import EventRelay.Hub.Catalog
import EventRelay.Hub.Timeline
import Mathlib.Tactic.SplitIfs

/-!
# Steps that stay with one stream

Whatever happens to a stream (a control request, a departure, a delivery, a timer) leaves the other
streams as they are, the catalog, and the entries of others in the live set. The stream keeps its
uid and gains no subscribers, connections stay or go as they did, and only those of its subscribers
are sent anything. It enters the live set only if somebody watches it.
-/

namespace EventRelay.Hub

/-- A step has changed nothing that has to do with other streams than this one. -/
structure Confined (i : StreamId) (h h' : Hub) : Prop where
  archive : h'.archive = h.archive
  config : h'.config = h.config
  catalog : h'.catalog = h.catalog
  nextUid : h'.nextUid = h.nextUid
  streams : h'.streams.length = h.streams.length
  others : ∀ j, j ≠ i → h'.stream j = h.stream j
  uid : (h'.stream i).uid = (h.stream i).uid
  attached : (h'.stream i).attached = (h.stream i).attached
  joins : (h'.stream i).joins = (h.stream i).joins
  subscribers : (h'.stream i).subscribers.Sublist (h.stream i).subscribers
  connections : h'.connections.length = h.connections.length
  alive : ∀ c, h'.isAlive c = h.isAlive c
  queues : ∀ c, c ∉ h.audience i → h'.connection c = h.connection c
  listed : ∀ e ∈ h'.live, e ∈ h.live ∨ e = ((h.stream i).uid, i) ∧ h.audience i ≠ []
  unlisted : ∀ e ∈ h.live, e.1 ≠ (h.stream i).uid → e ∈ h'.live
  once : h.live.Nodup → h'.live.Nodup
  keys : (h.live.map (·.1)).Nodup → (h'.live.map (·.1)).Nodup

namespace Confined

variable {i : StreamId} {h h' h'' : Hub}

theorem refl (i : StreamId) (h : Hub) : Confined i h h where
  archive := rfl
  config := rfl
  catalog := rfl
  nextUid := rfl
  streams := rfl
  others _ _ := rfl
  uid := rfl
  attached := rfl
  joins := rfl
  subscribers := .refl _
  connections := rfl
  alive _ := rfl
  queues _ _ := rfl
  listed _ he := .inl he
  unlisted _ he _ := he
  once := id
  keys := id

theorem mem_audience {c : ConnId} :
    c ∈ h.audience i ↔ c ∈ (h.stream i).subscribers ∧ h.isAlive c = true := List.mem_filter

theorem known (hc : Confined i h h') {j : StreamId} (hj : j < h.streams.length) :
    j < h'.streams.length := by
  rw [hc.streams]
  exact hj

theorem sublist_audience (hc : Confined i h h') (j : StreamId) :
    (h'.audience j).Sublist (h.audience j) := by
  have alive : h'.isAlive = h.isAlive := funext hc.alive
  rw [Hub.audience, Hub.audience, alive]
  refine List.Sublist.filter _ ?_
  by_cases hj : j = i
  · subst hj
    exact hc.subscribers
  · exact hc.others j hj ▸ .refl _

/-- Nobody comes to watch who did not before. -/
theorem audience (hc : Confined i h h') {c : ConnId} {j : StreamId} (hm : c ∈ h'.audience j) :
    c ∈ h.audience j := (hc.sublist_audience j).subset hm

theorem trans (h₁ : Confined i h h') (h₂ : Confined i h' h'') : Confined i h h'' where
  archive := h₂.archive.trans h₁.archive
  config := h₂.config.trans h₁.config
  catalog := h₂.catalog.trans h₁.catalog
  nextUid := h₂.nextUid.trans h₁.nextUid
  streams := h₂.streams.trans h₁.streams
  others j hj := (h₂.others j hj).trans (h₁.others j hj)
  uid := h₂.uid.trans h₁.uid
  attached := h₂.attached.trans h₁.attached
  joins := h₂.joins.trans h₁.joins
  subscribers := h₂.subscribers.trans h₁.subscribers
  connections := h₂.connections.trans h₁.connections
  alive c := (h₂.alive c).trans (h₁.alive c)
  queues c hc := (h₂.queues c fun h => hc (h₁.audience h)).trans (h₁.queues c hc)
  listed e he := by
    rcases h₂.listed e he with he | ⟨rfl, ha⟩
    · exact h₁.listed e he
    · obtain ⟨c, hc⟩ := List.exists_mem_of_ne_nil _ ha
      exact .inr ⟨by rw [h₁.uid], List.ne_nil_of_mem (h₁.audience hc)⟩
  unlisted e he hu := h₂.unlisted e (h₁.unlisted e he hu) (by rwa [h₁.uid])
  once hl := h₂.once (h₁.once hl)
  keys hl := h₂.keys (h₁.keys hl)

end Confined

/-! ## Parts -/

section Parts

variable (h : Hub) (i : StreamId)

theorem stream_modifyStream (f : Stream → Stream) (j : StreamId) :
    (h.modifyStream i f).stream j =
      if i = j ∧ i < h.streams.length then f (h.stream i) else h.stream j := by
  simp only [stream, modifyStream, List.getD_eq_getElem?_getD, List.getElem?_modify]
  by_cases hij : i = j
  · subst hij
    by_cases hi : i < h.streams.length
    · simp [hi]
    · simp [hi]
  · simp [hij]

theorem confined_modifyStream {f : Stream → Stream} (hu : ∀ s, (f s).uid = s.uid)
    (ha : ∀ s, (f s).attached = s.attached) (hj : ∀ s, (f s).joins = s.joins)
    (hs : (f (h.stream i)).subscribers.Sublist (h.stream i).subscribers) :
    Confined i h (h.modifyStream i f) where
  archive := rfl
  config := rfl
  catalog := rfl
  nextUid := rfl
  streams := List.length_modify ..
  others j hj := by
    rw [stream_modifyStream, if_neg fun h => hj h.1.symm]
  uid := by
    rw [stream_modifyStream]
    split_ifs
    · exact hu _
    · rfl
  attached := by
    rw [stream_modifyStream]
    split_ifs
    · exact ha _
    · rfl
  joins := by
    rw [stream_modifyStream]
    split_ifs
    · exact hj _
    · rfl
  subscribers := by
    rw [stream_modifyStream]
    split_ifs
    · exact hs
    · exact .refl _
  connections := rfl
  alive _ := rfl
  queues _ _ := rfl
  listed _ he := .inl he
  unlisted _ he _ := he
  once := id
  keys := id

theorem confined_now (now : Instant) : Confined i h { h with now } :=
  { Confined.refl i h with }

theorem confined_modifyReplay (f : Replay → Replay) : Confined i h (h.modifyReplay i f) := by
  have changed : Confined i h (h.modifyStream i fun s => { s with replay := f s.replay }) :=
    confined_modifyStream h i (fun _ => rfl) (fun _ => rfl) (fun _ => rfl) (.refl _)
  exact changed.trans (confined_now _ i ⟨h.now.ms, h.now.turn + 1⟩)

theorem confined_setLive (live : Bool) : Confined i h (h.setLive i live) :=
  confined_modifyStream h i (fun _ => rfl) (fun _ => rfl) (fun _ => rfl) (.refl _)

theorem confined_setPlaying (playing : Bool) : Confined i h (h.setPlaying i playing) :=
  confined_modifyStream h i (fun _ => rfl) (fun _ => rfl) (fun _ => rfl) (.refl _)

theorem confined_describe (description : String) : Confined i h (h.describe i description) :=
  confined_modifyStream h i (fun _ => rfl) (fun _ => rfl) (fun _ => rfl) (.refl _)

theorem mem_erase {index : Index} {uid : UInt32} {e : UInt32 × StreamId} :
    e ∈ index.erase uid ↔ e ∈ index ∧ e.1 ≠ uid := by
  simp [Index.erase]

theorem mem_insert {index : Index} {uid : UInt32} {e : UInt32 × StreamId} :
    e ∈ index.insert uid i ↔ e = (uid, i) ∨ e ∈ index ∧ e.1 ≠ uid := by
  rw [Index.insert, List.mem_cons, mem_erase]

/-- Only the live set has changed, and there only the entry of the stream. -/
theorem confined_live {live : Index}
    (listed : ∀ e ∈ live, e ∈ h.live ∨ e = ((h.stream i).uid, i) ∧ h.audience i ≠ [])
    (unlisted : ∀ e ∈ h.live, e.1 ≠ (h.stream i).uid → e ∈ live)
    (once : h.live.Nodup → live.Nodup)
    (keys : (h.live.map (·.1)).Nodup → (live.map (·.1)).Nodup) : Confined i h { h with live } :=
  { Confined.refl i h with
    listed
    unlisted
    once
    keys }

theorem keys_erase {index : Index} (once : (index.map (·.1)).Nodup) (uid : UInt32) :
    ((index.erase uid).map (·.1)).Nodup := once.sublist (List.filter_sublist.map _)

theorem keys_insert {index : Index} (once : (index.map (·.1)).Nodup) (uid : UInt32) :
    ((index.insert uid i).map (·.1)).Nodup := by
  refine List.nodup_cons.2 ⟨fun again => ?_, keys_erase once uid⟩
  obtain ⟨e, he, same⟩ := List.mem_map.1 again
  exact (mem_erase.1 he).2 same

theorem confined_registerLive : Confined i h (h.registerLive i) := by
  unfold registerLive
  split_ifs with hw
  · exact Confined.refl i h
  · refine confined_live h i (fun e he => ?_) (fun e he hu => (mem_insert i).2 (.inr ⟨he, hu⟩))
      (fun hl => List.nodup_cons.2 ⟨fun he => (mem_erase.1 he).2 rfl, hl.filter _⟩)
      fun hl => keys_insert i hl _
    have watched : h.audience i ≠ [] := by
      intro ha
      exact hw (by simp [subscriberCount, ha])
    rcases (mem_insert i).1 he with rfl | ⟨he, -⟩
    · exact .inr ⟨rfl, watched⟩
    · exact .inl he

theorem confined_unsubscribe : Confined i h (h.unsubscribe (h.stream i).uid) :=
  confined_live h i (fun _ he => .inl (mem_erase.1 he).1) (fun _ he hu => mem_erase.2 ⟨he, hu⟩)
    (fun hl => hl.filter _) fun hl => keys_erase hl _

theorem confined_unsubscribeIfIdle : Confined i h (h.unsubscribeIfIdle i) := by
  unfold unsubscribeIfIdle
  split_ifs
  · exact confined_unsubscribe h i
  · exact Confined.refl i h

theorem confined_deregisterLive : Confined i h (h.deregisterLive i) := by
  unfold deregisterLive
  split_ifs
  · exact confined_unsubscribe h i
  · exact Confined.refl i h

end Parts

/-! ## What a stream plays -/

section Playback

variable (h : Hub) (i : StreamId)

theorem confined_pauseReplay : Confined i h (h.pauseReplay i) := confined_modifyReplay h i _

theorem confined_seekReplay (p : Position) : Confined i h (h.seekReplay i p) :=
  confined_modifyReplay h i _

theorem confined_goLive : Confined i h (h.goLive i) := by
  have paused := (confined_pauseReplay h i).trans (confined_setLive _ i true)
  unfold goLive
  dsimp only
  split_ifs
  · exact paused.trans (confined_registerLive _ i)
  · exact paused

theorem confined_handleExhausted : Confined i h (h.handleExhausted i) := by
  unfold handleExhausted
  split
  · exact confined_goLive h i
  · exact confined_setPlaying h i false

theorem confined_runReplay : Confined i h (h.runReplay i) := by
  unfold runReplay
  split_ifs
  · exact confined_pauseReplay h i
  · dsimp only
    split
    · exact confined_modifyReplay h i _
    · exact (confined_modifyReplay h i _).trans (confined_handleExhausted _ i)

theorem confined_idle : Confined i h (h.idle i) := by
  have leave (m : Hub) (hm : Confined i h m) :
      Confined i h (if (m.stream i).attached then m.unsubscribeIfIdle i else m) := by
    split_ifs
    · exact hm.trans (confined_unsubscribeIfIdle _ i)
    · exact hm
  refine leave _ ?_
  split_ifs
  · exact Confined.refl i h
  · exact confined_pauseReplay h i

theorem confined_play : Confined i h (h.play i) := by
  unfold play
  split_ifs
  · exact confined_registerLive h i
  · exact confined_runReplay h i

theorem confined_startStream : Confined i h (h.startStream i) := by
  unfold startStream
  split_ifs
  · exact Confined.refl i h
  · exact (confined_setPlaying h i true).trans (confined_play _ i)

theorem confined_stopStream : Confined i h (h.stopStream i) := by
  have stopped := confined_setPlaying h i false
  unfold stopStream
  dsimp only
  split_ifs
  · exact Confined.refl i h
  · exact stopped.trans ((confined_deregisterLive _ i).trans (confined_seekReplay _ i _))
  · exact stopped.trans (confined_pauseReplay _ i)

theorem confined_leaveLive (p : Position) : Confined i h (h.leaveLive i p) := by
  have sought := (confined_setLive h i false).trans (confined_seekReplay _ i p)
  unfold leaveLive
  dsimp only
  split_ifs
  · exact sought.trans ((confined_deregisterLive _ i).trans (confined_runReplay _ i))
  · exact sought

theorem confined_seekStream (p : Position) : Confined i h (h.seekStream i p) := by
  have sought := confined_seekReplay h i p
  unfold seekStream
  dsimp only
  split
  · exact Confined.refl i h
  · exact confined_leaveLive h i _
  · split_ifs
    · exact sought.trans (confined_setLive _ i true)
    · exact sought.trans (confined_runReplay _ i)
    · exact confined_goLive h i
  · split_ifs
    · exact sought.trans (confined_runReplay _ i)
    · exact sought

theorem confined_setSpeed (speed : Binary32) : Confined i h (h.setSpeed i speed).1 := by
  have paced := confined_modifyReplay h i (·.setSpeed h.now speed)
  unfold setSpeed
  dsimp only
  split_ifs
  · exact confined_stopStream h i
  · exact Confined.refl i h
  · exact paced
  · exact paced.trans (confined_leaveLive _ i .eof)
  · exact paced.trans (confined_runReplay _ i)
  · exact paced

end Playback

/-! ## Those who watch -/

section Audience

variable (h : Hub) (i : StreamId)

theorem confined_removeSubscriber (c : ConnId) : Confined i h (h.removeSubscriber i c) := by
  have left := confined_modifyStream h i
    (f := fun s => { s with subscribers := s.subscribers.filter fun d => h.isAlive d && d != c })
    (fun _ => rfl) (fun _ => rfl) (fun _ => rfl) List.filter_sublist
  unfold removeSubscriber
  dsimp only
  split_ifs
  · exact left.trans (confined_idle _ i)
  · exact left

theorem connection_modifyConnection (c d : ConnId) (f : Connection → Connection) :
    (h.modifyConnection c f).connection d =
      if c = d ∧ c < h.connections.length then f (h.connection c) else h.connection d := by
  simp only [connection, modifyConnection, List.getD_eq_getElem?_getD, List.getElem?_modify]
  by_cases hcd : c = d
  · subst hcd
    by_cases hc : c < h.connections.length
    · simp [hc]
    · simp [hc]
  · simp [hcd]

/-- Something happens to a subscriber that leaves it where it is. -/
theorem confined_modifyConnection {c : ConnId} (hc : c ∈ h.audience i)
    {f : Connection → Connection} (hf : (f (h.connection c)).alive = (h.connection c).alive) :
    Confined i h (h.modifyConnection c f) :=
  { Confined.refl i h with
    connections := List.length_modify ..
    alive := fun d => by
      unfold isAlive
      rw [connection_modifyConnection]
      split_ifs with hd
      · rw [hf, hd.1]
      · rfl
    queues := fun d hd => by
      rw [connection_modifyConnection, if_neg]
      rintro ⟨rfl, -⟩
      exact hd hc
    listed := fun _ he => .inl he }

theorem alive_send (c : Connection) (batch : List Message) :
    (c.send batch).1.alive = c.alive := by
  unfold Connection.send Connection.close
  split_ifs <;> rfl

theorem confined_sendTo {c : ConnId} (hc : c ∈ (h.stream i).subscribers) (batch : List Message) :
    Confined i h (h.sendTo c batch).1 := by
  unfold sendTo queue
  split_ifs with dead
  · exact Confined.refl i h
  · have watching : c ∈ h.audience i := Confined.mem_audience.2 ⟨hc, by simpa using dead⟩
    exact confined_modifyConnection h i watching (alive_send _ batch)

/-- Sending changes connections only. -/
theorem sendTo_eq (c : ConnId) (batch : List Message) :
    ∃ connections, (h.sendTo c batch).1 = { h with connections } := by
  unfold sendTo
  split_ifs <;> exact ⟨_, rfl⟩

theorem sendAll_eq (batch : List Message) : ∀ (cs : List ConnId) (h : Hub),
    ∃ connections, (h.sendAll batch cs).1 = { h with connections }
  | [], h => ⟨h.connections, rfl⟩
  | c :: cs, h => by
    obtain ⟨connections, hc⟩ := sendTo_eq h c batch
    obtain ⟨connections', hcs⟩ := sendAll_eq batch cs (h.sendTo c batch).1
    refine ⟨connections', ?_⟩
    rw [sendAll]
    dsimp only
    rw [hcs, hc]

theorem sublist_sendAll (batch : List Message) : ∀ (cs : List ConnId) (h : Hub),
    (h.sendAll batch cs).2.Sublist cs
  | [], _ => .refl _
  | c :: cs, h => by
    rw [sendAll]
    dsimp only
    split_ifs
    · exact (sublist_sendAll batch cs _).cons_cons c
    · exact (sublist_sendAll batch cs _).cons c

variable {i} in
theorem confined_sendAll (batch : List Message) : ∀ {cs : List ConnId} {h : Hub},
    (∀ c ∈ cs, c ∈ (h.stream i).subscribers) → Confined i h (h.sendAll batch cs).1
  | [], h, _ => Confined.refl i h
  | c :: cs, h, hcs => by
    refine (confined_sendTo h i (hcs c (by simp)) batch).trans (confined_sendAll batch ?_)
    intro d hd
    obtain ⟨connections, hc⟩ := sendTo_eq h c batch
    rw [hc]
    exact hcs d (by simp [hd])

/-- What a batch sent to a stream leaves: the streams as they were, but for those who could not
take it. -/
theorem send_eq (batch : List Message) : ∃ connections kept,
    (h.send i batch).1 = ({ h with connections } : Hub).modifyStream i
      (fun s => { s with subscribers := kept }) ∧
    (h.send i batch).2 = !kept.isEmpty ∧ kept.Sublist (h.stream i).subscribers ∧
    Confined i h { h with connections } := by
  obtain ⟨connections, hall⟩ := sendAll_eq batch (h.stream i).subscribers h
  refine ⟨connections, _, ?_, rfl, sublist_sendAll batch _ h, ?_⟩
  · rw [send]
    dsimp only
    rw [hall]
  · exact hall ▸ confined_sendAll batch fun _ hc => hc

theorem confined_send (batch : List Message) : Confined i h (h.send i batch).1 := by
  obtain ⟨connections, kept, hsend, -, sub, sent⟩ := send_eq h i batch
  rw [hsend]
  exact sent.trans (confined_modifyStream _ i (fun _ => rfl) (fun _ => rfl) (fun _ => rfl) sub)

theorem confined_deliver (events : List Message) : Confined i h (h.deliver i events) := by
  have sent := confined_send h i events
  unfold deliver
  dsimp only
  split_ifs
  · exact sent.trans (confined_idle _ i)
  · exact sent

theorem confined_replayExhausted (epoch : Nat) : Confined i h (h.replayExhausted i epoch) := by
  unfold replayExhausted
  dsimp only
  split_ifs
  · exact Confined.refl i h
  · exact confined_handleExhausted h i

/-- A replay that is still at work after its timer went off plays on. -/
def resume (h : Hub) (i : StreamId) (epoch : Nat) : Hub :=
  if (h.stream i).replay.epoch ≠ epoch || !(h.stream i).replay.running then h
  else match ((h.stream i).replay.proceed h.config h.archive h.now).2 with
    | .scheduled => h.modifyReplay i fun r => (r.proceed h.config h.archive h.now).1
    | .exhausted =>
      (h.modifyReplay i fun r => (r.proceed h.config h.archive h.now).1).replayExhausted i epoch

/-- A timer that goes off takes the events due, delivers them if there are any, and has the replay
play on. -/
theorem fire_eq (epoch : Nat) : h.fire i epoch =
    if (h.stream i).replay.epoch ≠ epoch then h
    else
      let due := ((h.stream i).replay.takeDue h.config).2
      let taken := h.modifyReplay i fun r => (r.takeDue h.config).1
      (if due = [] then taken else taken.deliver i due).resume i epoch := rfl

theorem confined_resume (epoch : Nat) : Confined i h (h.resume i epoch) := by
  have proceeded := confined_modifyReplay h i fun r => (r.proceed h.config h.archive h.now).1
  unfold resume
  split_ifs
  · exact Confined.refl i h
  · split
    · exact proceeded
    · exact proceeded.trans (confined_replayExhausted _ i epoch)

theorem confined_fire (epoch : Nat) : Confined i h (h.fire i epoch) := by
  have taken := confined_modifyReplay h i fun r => (r.takeDue h.config).1
  rw [fire_eq]
  dsimp only
  split_ifs
  · exact Confined.refl i h
  · exact taken.trans (confined_resume _ i epoch)
  · exact (taken.trans (confined_deliver _ i _)).trans (confined_resume _ i epoch)

end Audience

/-! ## The live feed -/

section Feed

variable {α : Type*} {part : Hub → α}

theorem sendStreams_same (send : ∀ h i batch, part (h.send i batch).1 = part h)
    (batch : List Message) : ∀ (is : List StreamId) (h : Hub),
    part (h.sendStreams batch is).1 = part h
  | [], _ => rfl
  | i :: is, h => (sendStreams_same send batch is _).trans (send h i batch)

/-- What neither sending to a stream nor its leaving the live set changes is the same after a
broadcast. -/
theorem broadcast_same (send : ∀ h i batch, part (h.send i batch).1 = part h)
    (idle : ∀ h i, part (h.unsubscribeIfIdle i) = part h) (h : Hub) (batch : List Message) :
    part (h.broadcast batch) = part h := by
  have idles : ∀ (is : List StreamId) (h : Hub), part (is.foldl unsubscribeIfIdle h) = part h := by
    intro is
    induction is with
    | nil => exact fun _ => rfl
    | cons i is ih => exact fun h => (ih _).trans (idle h i)
  unfold broadcast
  split_ifs
  · rfl
  · exact (idles _ _).trans (sendStreams_same send batch _ h)

end Feed

end EventRelay.Hub
