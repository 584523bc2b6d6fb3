import EventRelay.Proofs.Recorded

/-!
# What the replays of a relay keep

A replay is changed in five ways: it is sent to a place, given a speed, paused, relieved of the
events due, and made to go on. What these five keep, and what holds of a new replay, holds of the
replays of all streams of a relay, whatever happens to it: a step has to do with one stream at a
time and leaves the others as they are.
-/

namespace EventRelay

/-- A property of replays that lasts while they play before this store. -/
structure Replay.Lasting (config : ReplayConfig) (archive : Archive) (P : Replay → Prop) :
    Prop where
  pause : ∀ r, P r → P r.pause
  takeDue : ∀ r, P r → P (r.takeDue config).1
  proceed : ∀ r, P r → ∀ now, P (r.proceed config archive now).1

/-- And whatever they are told, from the start. -/
structure Replay.Permanent (config : ReplayConfig) (archive : Archive) (P : Replay → Prop) : Prop
    extends Lasting config archive P where
  start : P .start
  seek : ∀ r, P r → ∀ now p, P (r.seek now p)
  setSpeed : ∀ r, P r → ∀ now x, acceptsSpeed x = true → P (r.setSpeed now x)

namespace Hub

/-! ## One stream that plays -/

section Stream

variable {P : Replay → Prop} {h : Hub} {i : StreamId}

theorem lasting_modifyStream {f : Stream → Stream} (hp : P (h.stream i).replay)
    (hf : P (f (h.stream i)).replay) : P ((h.modifyStream i f).stream i).replay := by
  rw [stream_modifyStream]
  split_ifs
  · exact hf
  · exact hp

theorem lasting_modifyReplay {f : Replay → Replay} (hp : P (h.stream i).replay)
    (hf : P (f (h.stream i).replay)) : P ((h.modifyReplay i f).stream i).replay :=
  lasting_modifyStream (f := fun s => { s with replay := f s.replay }) hp hf

theorem lasting_send (batch : List Message) (hp : P (h.stream i).replay) :
    P ((h.send i batch).1.stream i).replay := by
  obtain ⟨connections, kept, hsend, -, -, -⟩ := send_eq h i batch
  rw [hsend]
  exact lasting_modifyStream (h := { h with connections }) hp hp

variable (lasting : Replay.Lasting h.config h.archive P)

include lasting

theorem lasting_pauseReplay (hp : P (h.stream i).replay) :
    P ((h.pauseReplay i).stream i).replay :=
  lasting_modifyReplay hp (lasting.pause _ hp)

theorem lasting_goLive (hp : P (h.stream i).replay) : P ((h.goLive i).stream i).replay := by
  have paused := lasting_pauseReplay lasting hp
  have live : P (((h.pauseReplay i).setLive i true).stream i).replay :=
    lasting_modifyStream paused paused
  unfold goLive
  dsimp only
  split_ifs
  · rw [(registerLive_eq _ i).1]
    exact live
  · exact live

theorem lasting_handleExhausted (hp : P (h.stream i).replay) :
    P ((h.handleExhausted i).stream i).replay := by
  unfold handleExhausted
  split
  · exact lasting_goLive lasting hp
  · exact lasting_modifyStream hp hp

theorem lasting_runReplay (hp : P (h.stream i).replay) : P ((h.runReplay i).stream i).replay := by
  have ran :
      P ((h.modifyReplay i fun r => (r.run h.config h.archive h.now).1).stream i).replay := by
    refine lasting_modifyReplay hp ?_
    unfold Replay.run
    split_ifs
    · exact hp
    · exact lasting.proceed _ hp _
  unfold runReplay
  split_ifs
  · exact lasting_pauseReplay lasting hp
  · dsimp only
    split
    · exact ran
    · exact lasting_handleExhausted (h := h.modifyReplay i _) lasting ran

theorem lasting_play (hp : P (h.stream i).replay) : P ((h.play i).stream i).replay := by
  unfold play
  split_ifs
  · rwa [(registerLive_eq h i).1]
  · exact lasting_runReplay lasting hp

theorem lasting_startStream (hp : P (h.stream i).replay) :
    P ((h.startStream i).stream i).replay := by
  unfold startStream
  split_ifs
  · exact hp
  · exact lasting_play (h := h.setPlaying i true) lasting (lasting_modifyStream hp hp)

theorem lasting_idle (hp : P (h.stream i).replay) : P ((h.idle i).stream i).replay := by
  have leave {m : Hub} (hm : P (m.stream i).replay) :
      P ((if (m.stream i).attached then m.unsubscribeIfIdle i else m).stream i).replay := by
    unfold unsubscribeIfIdle
    split_ifs <;> exact hm
  refine leave ?_
  split_ifs
  · exact hp
  · exact lasting_pauseReplay lasting hp

theorem lasting_addSubscriber (c : ConnId) (hp : P (h.stream i).replay) :
    P ((h.addSubscriber i c).stream i).replay := by
  have resumed {m : Hub} (lasting : Replay.Lasting m.config m.archive P)
      (hm : P (m.stream i).replay) :
      P ((if (m.stream i).playing then m.play i else m).stream i).replay := by
    split_ifs
    · exact lasting_play lasting hm
    · exact hm
  by_cases joined : (h.audience i).contains c = true
  · rw [addSubscriber, if_pos joined]
    exact resumed lasting hp
  · rw [addSubscriber, if_neg joined]
    exact resumed (m := h.enrol i c) lasting (lasting_modifyStream hp hp)

theorem lasting_removeSubscriber (c : ConnId) (hp : P (h.stream i).replay) :
    P ((h.removeSubscriber i c).stream i).replay := by
  unfold removeSubscriber
  dsimp only
  split_ifs
  · exact lasting_idle (h := h.modifyStream i _) lasting (lasting_modifyStream hp hp)
  · exact lasting_modifyStream hp hp

theorem lasting_deliver (events : List Message) (hp : P (h.stream i).replay) :
    P ((h.deliver i events).stream i).replay := by
  have sent := lasting_send events hp
  have confined := confined_send h i events
  unfold deliver
  dsimp only
  split_ifs
  · exact lasting_idle (confined.config.symm ▸ confined.archive.symm ▸ lasting) sent
  · exact sent

theorem lasting_replayExhausted (epoch : Nat) (hp : P (h.stream i).replay) :
    P ((h.replayExhausted i epoch).stream i).replay := by
  unfold replayExhausted
  dsimp only
  split_ifs
  · exact hp
  · exact lasting_handleExhausted lasting hp

theorem lasting_resume (epoch : Nat) (hp : P (h.stream i).replay) :
    P ((h.resume i epoch).stream i).replay := by
  have on : P ((h.modifyReplay i fun r =>
      (r.proceed h.config h.archive h.now).1).stream i).replay :=
    lasting_modifyReplay hp (lasting.proceed _ hp _)
  unfold resume
  split_ifs
  · exact hp
  · split
    · exact on
    · exact lasting_replayExhausted (h := h.modifyReplay i _) lasting epoch on

theorem lasting_fire (epoch : Nat) (hp : P (h.stream i).replay) :
    P ((h.fire i epoch).stream i).replay := by
  have taken : P ((h.modifyReplay i fun r => (r.takeDue h.config).1).stream i).replay :=
    lasting_modifyReplay hp (lasting.takeDue _ hp)
  have lasting' : Replay.Lasting (h.modifyReplay i fun r => (r.takeDue h.config).1).config
    (h.modifyReplay i fun r => (r.takeDue h.config).1).archive P := lasting
  rw [fire_eq]
  dsimp only
  split_ifs
  · exact hp
  · exact lasting_resume lasting' epoch taken
  · have confined := confined_deliver (h.modifyReplay i fun r => (r.takeDue h.config).1) i
      ((h.stream i).replay.takeDue h.config).2
    exact lasting_resume (confined.config.symm ▸ confined.archive.symm ▸ lasting') epoch
      (lasting_deliver lasting' _ taken)

end Stream

/-! ## One stream that is told something -/

section Stream

variable {P : Replay → Prop} {h : Hub} {i : StreamId}
  (permanent : Replay.Permanent h.config h.archive P)

include permanent

theorem permanent_seekReplay (p : Position) (hp : P (h.stream i).replay) :
    P ((h.seekReplay i p).stream i).replay :=
  lasting_modifyReplay hp (permanent.seek _ hp _ p)

theorem permanent_stopStream (hp : P (h.stream i).replay) :
    P ((h.stopStream i).stream i).replay := by
  have stopped : P ((h.setPlaying i false).stream i).replay := lasting_modifyStream hp hp
  have confined := (confined_setPlaying h i false).trans (confined_deregisterLive _ i)
  unfold stopStream
  dsimp only
  split_ifs
  · exact hp
  · refine permanent_seekReplay (confined.config.symm ▸ confined.archive.symm ▸ permanent) _ ?_
    rwa [deregisterLive_stream]
  · exact lasting_pauseReplay (h := h.setPlaying i false) permanent.toLasting stopped

theorem permanent_leaveLive (p : Position) (hp : P (h.stream i).replay) :
    P ((h.leaveLive i p).stream i).replay := by
  have sought : P (((h.setLive i false).seekReplay i p).stream i).replay :=
    permanent_seekReplay (h := h.setLive i false) permanent p (lasting_modifyStream hp hp)
  have confined := (confined_setLive h i false).trans
    ((confined_seekReplay _ i p).trans (confined_deregisterLive _ i))
  unfold leaveLive
  dsimp only
  split_ifs
  · refine lasting_runReplay (confined.config.symm ▸ confined.archive.symm ▸ permanent.toLasting) ?_
    rwa [deregisterLive_stream]
  · exact sought

theorem permanent_seekStream (p : Position) (hp : P (h.stream i).replay) :
    P ((h.seekStream i p).stream i).replay := by
  have sought := permanent_seekReplay permanent p hp
  unfold seekStream
  dsimp only
  split
  · exact hp
  · exact permanent_leaveLive permanent _ hp
  · split_ifs
    · exact lasting_modifyStream sought sought
    · exact lasting_runReplay (h := h.seekReplay i _) permanent.toLasting sought
    · exact lasting_goLive permanent.toLasting hp
  · split_ifs
    · exact lasting_runReplay (h := h.seekReplay i _) permanent.toLasting sought
    · exact sought

theorem permanent_setSpeed (x : Binary32) (hp : P (h.stream i).replay) :
    P ((h.setSpeed i x).1.stream i).replay := by
  unfold setSpeed
  dsimp only
  split_ifs with zero refused
  · exact permanent_stopStream permanent hp
  · exact hp
  all_goals
    have paced : P ((h.modifyReplay i (·.setSpeed h.now x)).stream i).replay :=
      lasting_modifyReplay hp (permanent.setSpeed _ hp _ x (by simpa using refused))
  · exact paced
  · exact permanent_leaveLive (h := h.modifyReplay i _) permanent .eof paced
  · exact lasting_runReplay (h := h.modifyReplay i _) permanent.toLasting paced
  · exact paced

end Stream

/-! ## All streams -/

/-- The property holds of all replays. -/
def Replays (h : Hub) (P : Replay → Prop) : Prop := ∀ i < h.streams.length, P (h.stream i).replay

section Streams

variable {P : Replay → Prop} {h h' : Hub} {i : StreamId}

theorem Replays.confined (all : h.Replays P) (hc : Confined i h h')
    (own : P (h.stream i).replay → P (h'.stream i).replay) : h'.Replays P := by
  intro j hj
  rw [hc.streams] at hj
  by_cases hji : j = i
  · subst hji
    exact own (all j hj)
  · rw [hc.others j hji]
    exact all j hj

theorem replays_sendStreams (batch : List Message) : ∀ (is : List StreamId) {h : Hub},
    h.Replays P → (h.sendStreams batch is).1.Replays P
  | [], _, all => all
  | i :: is, h, all =>
    have sent := all.confined (confined_send h i batch) (lasting_send batch)
    replays_sendStreams batch is sent

theorem replays_unsubscribeAll : ∀ (is : List StreamId) {h : Hub}, h.Replays P →
    (is.foldl unsubscribeIfIdle h).Replays P
  | [], _, all => all
  | i :: is, h, all => by
    have left : (h.unsubscribeIfIdle i).Replays P := by
      refine all.confined (confined_unsubscribeIfIdle h i) fun hp => ?_
      unfold unsubscribeIfIdle
      split_ifs <;> exact hp
    exact replays_unsubscribeAll is left

theorem replays_broadcast (all : h.Replays P) (batch : List Message) :
    (h.broadcast batch).Replays P := by
  unfold broadcast
  split_ifs
  · exact all
  · exact replays_unsubscribeAll _ (replays_sendStreams batch _ all)

theorem config_addSubscriber (h : Hub) (i : StreamId) (c : ConnId) :
    (h.addSubscriber i c).config = h.config := by
  obtain ⟨m, rfl | rfl, confined⟩ := confined_addSubscriber h i c
  · exact confined.config
  · exact confined.config

variable (permanent : Replay.Permanent h.config h.archive P) (all : h.Replays P)

include permanent all

theorem replays_addSubscriber (i : StreamId) (c : ConnId) : (h.addSubscriber i c).Replays P := by
  intro j hj
  rw [streams_addSubscriber] at hj
  by_cases hji : j = i
  · subst hji
    exact lasting_addSubscriber permanent.toLasting c (all j hj)
  · obtain ⟨m, rfl | rfl, confined⟩ := confined_addSubscriber h i c
    · rw [confined.others j hji]
      exact all j hj
    · rw [confined.others j hji, stream_enrol_ne c hji]
      exact all j hj

theorem replays_createStream : h.createStream.1.Replays P := by
  intro j hj
  rw [streams_createStream] at hj
  rw [stream_createStream]
  split_ifs with new
  · exact permanent.start
  · exact all j (by omega)

end Streams

end Hub

/-! ## Sessions -/

namespace Desk

open Hub

theorem config_streamFor (d : Desk) : d.streamFor.1.hub.config = d.hub.config := by
  unfold Desk.streamFor
  split
  · rfl
  · exact config_addSubscriber ..

theorem config_leave (d : Desk) (i : StreamId) : (d.leave i).hub.config = d.hub.config := by
  have left := (confined_removeSubscriber d.hub i d.session.connection).config
  unfold Desk.leave removeIfAbandoned
  dsimp only
  split_ifs <;> exact left

variable {P : Replay → Prop} {d : Desk}
  (permanent : Replay.Permanent d.hub.config d.hub.archive P) (all : d.hub.Replays P)

include permanent all

theorem replays_streamFor : d.streamFor.1.hub.Replays P := by
  unfold Desk.streamFor
  split
  · exact all
  · exact replays_addSubscriber (h := d.hub.createStream.1) permanent
      (replays_createStream permanent all) _ _

theorem replays_onStream {f : Hub → StreamId → Hub} (confined : ∀ h i, Confined i h (f h i))
    (own : ∀ (h : Hub) i, Replay.Permanent h.config h.archive P → P (h.stream i).replay →
      P ((f h i).stream i).replay) : (d.onStream f).hub.Replays P := by
  have found := replays_streamFor permanent all
  have permanent' : Replay.Permanent d.streamFor.1.hub.config d.streamFor.1.hub.archive P :=
    (config_streamFor d).symm ▸ (Relay.archive_streamFor d).symm ▸ permanent
  exact found.confined (confined _ _) (own _ _ permanent')

theorem replays_leave (i : StreamId) : (d.leave i).hub.Replays P := by
  have left := all.confined (confined_removeSubscriber d.hub i d.session.connection)
    (lasting_removeSubscriber permanent.toLasting d.session.connection)
  unfold Desk.leave removeIfAbandoned
  dsimp only
  split_ifs <;> exact left

theorem replays_disconnect : d.disconnect.hub.Replays P := by
  unfold Desk.disconnect
  split
  · exact all
  · exact replays_leave (d := { d with session := _ }) permanent all _

theorem replays_subscribe (uid : UInt32) : (d.subscribe uid).1.hub.Replays P := by
  unfold Desk.subscribe
  split
  · exact all
  split
  · exact replays_addSubscriber permanent all _ _
  · next target _ _ current _ =>
    dsimp only
    split_ifs
    · exact all
    · have permanent' :
          Replay.Permanent (d.leave current).hub.config (d.leave current).hub.archive P :=
        (config_leave d current).symm ▸ (archive_leave d current).symm ▸ permanent
      exact replays_addSubscriber permanent' (replays_leave permanent all current) _ _

theorem replays_handleControl (m : Message) : (d.handleControl m).1.hub.Replays P := by
  obtain ⟨timestamp, version, payload⟩ := m
  cases payload with
  | start =>
    exact replays_onStream permanent all confined_startStream
      fun _ _ permanent => lasting_startStream permanent.toLasting
  | stop => exact replays_onStream permanent all confined_stopStream fun _ _ => permanent_stopStream
  | seek p =>
    exact replays_onStream permanent all (confined_seekStream · · p)
      fun _ _ permanent => permanent_seekStream permanent p
  | speed x =>
    exact replays_onStream permanent all (confined_setSpeed · · x)
      fun _ _ permanent => permanent_setSpeed permanent x
  | subscribeStream uid => exact replays_subscribe permanent all uid
  | streamDescription text =>
    exact replays_onStream permanent all (confined_describe · · text)
      fun _ _ _ hp => lasting_modifyStream hp hp
  | _ => exact all

end Desk

/-! ## The relay -/

namespace Relay

open Hub

variable {P : Replay → Prop} {r : Relay}

theorem replays_step (permanent : Replay.Permanent r.hub.config r.hub.archive P)
    (all : r.hub.Replays P) (act : Act) : (r.step act).hub.Replays P := by
  have fired (i : StreamId) (epoch : Nat) : (r.hub.fire i epoch).Replays P :=
    all.confined (confined_fire r.hub i epoch) (lasting_fire permanent.toLasting epoch)
  cases act with
  | handle s run =>
    cases run with
    | data events =>
      rw [hub_step_data]
      split_ifs
      · exact replays_broadcast all events
      · exact replays_broadcast (h := r.hub.stored events) all events
    | control m => exact (r.desk s).replays_handleControl permanent all m
  | disconnect s => exact (r.desk s).replays_disconnect permanent all
  | tick i =>
    rw [step]
    split
    · exact all
    · exact fired i _
  | late i epoch => exact fired i epoch
  | _ => exact all

end Relay

end EventRelay
