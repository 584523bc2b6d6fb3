import EventRelay.Proofs.Growing
import EventRelay.Proofs.Sent

/-!
# From history to the live feed

A stream that replays forwards goes live at the moment at which its replay finds nothing ahead of
its cursor, whether it looks when it is started, when it is sent to a place, or when a timer has
gone off. By then it has sent all that is wanted of history. What the stream sends is what those who
watch it are sent: nothing else on the way sends them anything.
-/

namespace EventRelay

open Direction

/-- What a stream that plays forwards from a place in history has sent: while it replays, a first
part of what is wanted, and once it is live all of that, and then what it was fed. -/
inductive Stream.Plays (s : Stream) (t : Int64) (log wanted : List Message) :
    (fed sent : List Message) → Prop
  | replaying {sent : List Message} (live : s.live = false)
      (covers : s.replay.Covers t log wanted sent) : Plays s t log wanted [] sent
  | live (fed : List Message) (live : s.live = true) (playing : s.playing = true) :
      Plays s t log wanted fed (inOrder wanted ++ fed)

section Plays

variable {s : Stream} {t : Int64} {log wanted fed sent : List Message}

theorem Stream.Plays.covers (h : s.Plays t log wanted fed sent) (replaying : s.live = false) :
    fed = [] ∧ s.replay.Covers t log wanted sent := by
  cases h with
  | replaying _ covers => exact ⟨rfl, covers⟩
  | live _ live =>
    rw [replaying] at live
    cases live

theorem Stream.Plays.all (h : s.Plays t log wanted fed sent) (live : s.live = true) :
    s.playing = true ∧ sent = inOrder wanted ++ fed := by
  cases h with
  | replaying replaying =>
    rw [live] at replaying
    cases replaying
  | live _ _ playing => exact ⟨playing, rfl⟩

theorem Stream.Plays.congr {s' : Stream} (h : s.Plays t log wanted fed sent)
    (hl : s'.live = s.live) (hp : s'.playing = s.playing) (hr : s'.replay = s.replay) :
    s'.Plays t log wanted fed sent := by
  cases h with
  | replaying live covers => exact .replaying (hl.trans live) (hr ▸ covers)
  | live fed live playing => exact .live fed (hl.trans live) (hp.trans playing)

end Plays

namespace Hub

/-! ## Steps that send nothing -/

/-- A step on a stream has sent nothing to anybody and has lost no subscriber. -/
structure Silent (i : StreamId) (h h' : Hub) : Prop where
  connections : h'.connections = h.connections
  subscribers : (h'.stream i).subscribers = (h.stream i).subscribers

section Silent

variable {h h' h'' : Hub} {i : StreamId} {c : ConnId}

theorem Silent.refl : Silent i h h := ⟨rfl, rfl⟩

theorem Silent.trans (h₁ : Silent i h h') (h₂ : Silent i h' h'') : Silent i h h'' :=
  ⟨h₂.connections.trans h₁.connections, h₂.subscribers.trans h₁.subscribers⟩

theorem Silent.connection (hs : Silent i h h') (c : ConnId) :
    h'.connection c = h.connection c := by
  rw [Hub.connection, Hub.connection, hs.connections]

theorem Silent.audience (hs : Silent i h h') : h'.audience i = h.audience i := by
  have alive : h'.isAlive = h.isAlive := by
    funext c
    rw [isAlive, isAlive, hs.connection]
  rw [Hub.audience, Hub.audience, hs.subscribers, alive]

theorem silent_modifyStream {f : Stream → Stream} (hf : ∀ s, (f s).subscribers = s.subscribers) :
    Silent i h (h.modifyStream i f) := by
  refine ⟨rfl, ?_⟩
  rw [stream_modifyStream]
  split_ifs
  · exact hf _
  · rfl

theorem silent_modifyReplay (f : Replay → Replay) : Silent i h (h.modifyReplay i f) := by
  have changed : Silent i h (h.modifyStream i fun s => { s with replay := f s.replay }) :=
    silent_modifyStream fun _ => rfl
  exact ⟨changed.connections, changed.subscribers⟩

theorem silent_registerLive : Silent i h (h.registerLive i) := by
  unfold registerLive
  split_ifs <;> exact ⟨rfl, rfl⟩

theorem silent_goLive : Silent i h (h.goLive i) := by
  have live : Silent i h ((h.pauseReplay i).setLive i true) :=
    (silent_modifyReplay _).trans (silent_modifyStream fun _ => rfl)
  unfold goLive
  dsimp only
  split_ifs
  · exact live.trans silent_registerLive
  · exact live

theorem silent_handleExhausted : Silent i h (h.handleExhausted i) := by
  unfold handleExhausted
  split
  · exact silent_goLive
  · exact silent_modifyStream fun _ => rfl

theorem silent_unsubscribeIfIdle : Silent i h (h.unsubscribeIfIdle i) := by
  unfold unsubscribeIfIdle
  split_ifs <;> exact ⟨rfl, rfl⟩

theorem silent_idle : Silent i h (h.idle i) := by
  have leave {m : Hub} (hm : Silent i h m) :
      Silent i h (if (m.stream i).attached then m.unsubscribeIfIdle i else m) := by
    split_ifs
    · exact hm.trans silent_unsubscribeIfIdle
    · exact hm
  refine leave ?_
  split_ifs
  · exact .refl
  · exact silent_modifyReplay _

theorem silent_runReplay : Silent i h (h.runReplay i) := by
  unfold runReplay
  split_ifs
  · exact silent_modifyReplay _
  · dsimp only
    split
    · exact silent_modifyReplay _
    · exact (silent_modifyReplay _).trans silent_handleExhausted

theorem silent_play : Silent i h (h.play i) := by
  unfold play
  split_ifs
  · exact silent_registerLive
  · exact silent_runReplay

theorem silent_startStream : Silent i h (h.startStream i) := by
  have playing : Silent i h (h.setPlaying i true) := silent_modifyStream fun _ => rfl
  unfold startStream
  split_ifs
  · exact .refl
  · exact playing.trans silent_play

theorem silent_deregisterLive : Silent i h (h.deregisterLive i) := by
  unfold deregisterLive
  split_ifs <;> exact ⟨rfl, rfl⟩

theorem silent_stopStream : Silent i h (h.stopStream i) := by
  have stopped : Silent i h (h.setPlaying i false) := silent_modifyStream fun _ => rfl
  unfold stopStream
  dsimp only
  split_ifs
  · exact .refl
  · exact stopped.trans (silent_deregisterLive.trans (silent_modifyReplay _))
  · exact stopped.trans (silent_modifyReplay _)

theorem silent_leaveLive (p : Position) : Silent i h (h.leaveLive i p) := by
  have recorded : Silent i h (h.setLive i false) := silent_modifyStream fun _ => rfl
  have sought := recorded.trans (silent_modifyReplay (·.seek (h.setLive i false).now p))
  unfold leaveLive
  dsimp only
  split_ifs
  · exact sought.trans (silent_deregisterLive.trans silent_runReplay)
  · exact sought

theorem silent_seekStream (p : Position) : Silent i h (h.seekStream i p) := by
  have sought : Silent i h (h.seekReplay i p) := silent_modifyReplay _
  unfold seekStream
  dsimp only
  split
  · exact .refl
  · exact silent_leaveLive _
  · split_ifs
    · exact sought.trans (silent_modifyStream fun _ => rfl)
    · exact sought.trans silent_runReplay
    · exact silent_goLive
  · split_ifs
    · exact sought.trans silent_runReplay
    · exact sought

theorem silent_setSpeed (speed : Binary32) : Silent i h (h.setSpeed i speed).1 := by
  have paced : Silent i h (h.modifyReplay i (·.setSpeed h.now speed)) := silent_modifyReplay _
  unfold setSpeed
  dsimp only
  split_ifs
  · exact silent_stopStream
  · exact .refl
  · exact paced
  · exact paced.trans (silent_leaveLive .eof)
  · exact paced.trans silent_runReplay
  · exact paced

theorem silent_replayExhausted (epoch : Nat) : Silent i h (h.replayExhausted i epoch) := by
  unfold replayExhausted
  dsimp only
  split_ifs
  · exact .refl
  · exact silent_handleExhausted

theorem silent_resume (epoch : Nat) : Silent i h (h.resume i epoch) := by
  unfold resume
  split_ifs
  · exact .refl
  · split
    · exact silent_modifyReplay _
    · exact (silent_modifyReplay _).trans (silent_replayExhausted epoch)

/-- Who watches a stream is sent what it delivers. -/
theorem connection_deliver (known : i < h.streams.length) (once : (h.audience i).Nodup)
    (hc : c ∈ h.audience i) (batch : List Message) :
    (h.deliver i batch).connection c = ((h.connection c).send batch).1 := by
  rw [← (sent_send known once hc batch).connection]
  unfold deliver
  dsimp only
  split_ifs
  · exact silent_idle.connection c
  · rfl

/-- A delivery to a connection that is still open after it. -/
theorem sent_deliver (known : i < h.streams.length) (once : (h.audience i).Nodup)
    (hc : c ∈ h.audience i) (batch : List Message)
    (taken : ((h.deliver i batch).connection c).closed = false) :
    Sent i c batch h (h.deliver i batch) := by
  have sent := sent_send known once hc batch
  rw [connection_deliver known once hc batch] at taken
  have watching := sent.watching (Connection.send_of_open taken).1
  have delivered : h.deliver i batch = (h.send i batch).1 := by
    have watched : (h.send i batch).1.subscriberCount i ≠ 0 := fun none =>
      List.ne_nil_of_mem watching (List.length_eq_zero_iff.1 none)
    rw [deliver]
    dsimp only
    rw [if_neg (by simp [watched])]
  rw [delivered]
  exact sent

end Silent

/-! ## Going live -/

section Plays

variable {h : Hub} {i : StreamId} {t : Int64} {log wanted fed sent : List Message}

theorem stream_goLive (known : i < h.streams.length) : (h.goLive i).stream i =
    { h.stream i with live := true, replay := (h.stream i).replay.pause } := by
  have paused : (h.pauseReplay i).stream i = _ := stream_modifyReplay known _
  have known' := (confined_pauseReplay h i).known known
  have live : ((h.pauseReplay i).setLive i true).stream i = _ := stream_modifyStream_self known' _
  rw [paused] at live
  unfold goLive
  dsimp only
  split_ifs
  · rw [(registerLive_eq _ i).1]
    exact live
  · exact live

/-- A replay that has come to its end has sent what is wanted, and the stream goes live. -/
theorem plays_handleExhausted (known : i < h.streams.length)
    (playing : (h.stream i).playing = true) (covers : (h.stream i).replay.Covers t log wanted sent)
    (all : sent = inOrder wanted) :
    ((h.handleExhausted i).stream i).Plays t log wanted [] sent := by
  rw [handleExhausted, covers.forwards]
  dsimp only
  rw [stream_goLive known, all, ← List.append_nil (inOrder wanted)]
  exact .live [] rfl playing

variable (serves : h.archive.Serves log) (known : i < h.streams.length)

include serves known

theorem plays_runReplay (replaying : (h.stream i).live = false)
    (playing : (h.stream i).playing = true)
    (covers : (h.stream i).replay.Covers t log wanted sent) :
    ((h.runReplay i).stream i).Plays t log wanted [] sent := by
  unfold runReplay
  split_ifs
  · obtain ⟨hb, hc, hs⟩ := (h.stream i).replay.pause_fields
    rw [pauseReplay, stream_modifyReplay known]
    exact .replaying replaying (covers.congr hb hc hs)
  · have hs := stream_modifyReplay known fun r => (r.run h.config h.archive h.now).1
    obtain ⟨run, all⟩ := covers.run h.config h.now serves
    dsimp only
    split
    · rw [hs]
      exact .replaying replaying run
    · next ended =>
      refine plays_handleExhausted ((confined_modifyReplay h i _).known known) ?_ ?_ (all ended)
      · rw [hs]
        exact playing
      · rw [hs]
        exact run

omit serves in
/-- A stream that is sent to a time replays, and runs if it plays. -/
theorem seekStream_time (t : Int64) : ∃ m : Hub, m.archive = h.archive ∧ i < m.streams.length ∧
    m.stream i =
      { h.stream i with live := false, replay := (h.stream i).replay.seek h.now (.time t) } ∧
    h.seekStream i (.time t) = if (h.stream i).playing then m.runReplay i else m := by
  unfold seekStream
  dsimp only
  rcases live : (h.stream i).live with _ | _
  · have sought := confined_seekReplay h i (.time t)
    refine ⟨h.seekReplay i (.time t), sought.archive, sought.known known, ?_, rfl⟩
    rw [← live]
    exact stream_modifyReplay known _
  · have left := (confined_setLive h i false).trans (confined_seekReplay _ i (.time t))
    have out := left.trans (confined_deregisterLive _ i)
    have hs := stream_leaving known (.time t)
    rw [leaveLive]
    dsimp only
    rw [hs]
    dsimp only
    split_ifs with playing
    · refine ⟨_, out.archive, out.known known, ?_, rfl⟩
      rw [deregisterLive_stream, hs]
    · exact ⟨_, left.archive, left.known known, hs, rfl⟩

theorem plays_seekStream (forwards : (h.stream i).replay.direction = .forward) (t : Int64) :
    ((h.seekStream i (.time t)).stream i).Plays t log (log.filter fun m => t ≤ m.timestamp)
      [] [] := by
  have covers := Replay.covers_seek forwards serves.bounded h.now t
  obtain ⟨m, archive, known', hs, he⟩ := seekStream_time known t
  rw [he]
  split_ifs with playing
  · refine plays_runReplay (archive ▸ serves) known' ?_ ?_ ?_
    · rw [hs]
    · rw [hs]
      exact playing
    · rw [hs]
      exact covers
  · rw [hs]
    exact .replaying rfl covers

theorem plays_startStream (plays : (h.stream i).Plays t log wanted fed sent) :
    ((h.startStream i).stream i).Plays t log wanted fed sent := by
  have hs : (h.setPlaying i true).stream i = { h.stream i with playing := true } :=
    stream_modifyStream_self known _
  unfold startStream
  split_ifs with playing
  · exact plays
  · cases plays with
    | live _ _ on => exact absurd on playing
    | replaying replaying covers =>
      have replaying' : ((h.setPlaying i true).stream i).live = false := by
        rw [hs]
        exact replaying
      rw [play, if_neg (by simp [replaying'])]
      have known' := (confined_setPlaying h i true).known known
      refine plays_runReplay serves known' replaying' ?_ ?_
      · rw [hs]
      · rw [hs]
        exact covers

theorem plays_resume {epoch : Nat} (hr : (h.stream i).replay.running = true)
    (he : (h.stream i).replay.epoch = epoch) (replaying : (h.stream i).live = false)
    (playing : (h.stream i).playing = true)
    (covers : (h.stream i).replay.Covers t log wanted sent) :
    ((h.resume i epoch).stream i).Plays t log wanted [] sent := by
  have hs := stream_modifyReplay known fun r => (r.proceed h.config h.archive h.now).1
  obtain ⟨on, all⟩ := covers.proceed h.config h.now serves
  rw [resume, if_neg (by simp [hr, he])]
  rcases (proceed_cases (h.stream i).replay h.config h.archive h.now).2 with
    ⟨ho, -⟩ | ⟨ho, -, same⟩
  · rw [ho]
    dsimp only
    rw [hs]
    exact .replaying replaying on
  · rw [ho]
    dsimp only
    rw [replayExhausted, hs]
    dsimp only
    rw [if_neg (by simp [replaying, playing, same, he])]
    refine plays_handleExhausted ((confined_modifyReplay h i _).known known) ?_ ?_ (all ho)
    · rw [hs]
      exact playing
    · rw [hs]
      exact on

omit known in
/-- A timer that goes off delivers a part of what is wanted, and after the last one the stream is
live. -/
theorem plays_fire {c : ConnId} (hi : h.Apart i) (once : (h.audience i).Nodup)
    (hc : c ∈ h.audience i) (plays : (h.stream i).Plays t log wanted fed sent) {timer : Timer}
    (pending : (h.stream i).replay.timer = some timer)
    (taken : ((h.fire i timer.epoch).connection c).closed = false) :
    ∃ due, ((h.fire i timer.epoch).stream i).Plays t log wanted fed (sent ++ due) ∧
      ((h.fire i timer.epoch).connection c).queue.flatten =
        (h.connection c).queue.flatten ++ due ∧ c ∈ (h.fire i timer.epoch).audience i := by
  obtain ⟨hr, he⟩ := hi.timed.epoch_eq pending
  obtain ⟨replaying, playing⟩ := hi.running hr
  obtain ⟨due, rest, hb, hdue, -⟩ := Replay.takeDue_eq h.config (h.stream i).replay
  have hs := stream_modifyReplay hi.known fun r => (r.takeDue h.config).1
  have confined := confined_modifyReplay h i fun r => (r.takeDue h.config).1
  have silent := silent_modifyReplay (h := h) (i := i) fun r => (r.takeDue h.config).1
  rw [fire_eq, if_neg (fun ne => ne he.symm), hdue] at taken ⊢
  -- from here on all that matters of the state is what is known of the stream in it
  generalize (h.modifyReplay i fun r => (r.takeDue h.config).1) = m at hs confined silent taken ⊢
  rw [hdue] at hs
  dsimp only at hs taken ⊢
  have resumed {m' : Hub} (stream : ∃ subscribers, m'.stream i = { m.stream i with subscribers })
      (archive : m'.archive = m.archive) (streams : m'.streams.length = m.streams.length) :
      ((m'.resume i timer.epoch).stream i).Plays t log wanted fed (sent ++ due) := by
    obtain ⟨rfl, covers⟩ := plays.covers replaying
    obtain ⟨subscribers, stream⟩ := stream
    rw [hs] at stream
    have archive := archive.trans confined.archive
    have known : i < m'.streams.length := streams ▸ confined.known hi.known
    refine plays_resume (archive ▸ serves) known ?_ ?_ ?_ ?_ ?_
    · rw [stream]
      exact hr
    · rw [stream]
      exact he.symm
    · rw [stream]
      exact replaying
    · rw [stream]
      exact playing
    · rw [stream]
      exact covers.take hb
  split_ifs at taken ⊢ with none
  · refine ⟨due, resumed ⟨_, rfl⟩ rfl rfl, ?_, ?_⟩
    · rw [(silent.trans (silent_resume _)).connection, none, List.append_nil]
    · rw [(silent.trans (silent_resume _)).audience]
      exact hc
  · have after := silent_resume (h := m.deliver i due) (i := i) timer.epoch
    rw [after.connection] at taken
    have delivered := confined_deliver m i due
    have sent := sent_deliver (confined.known hi.known)
      (by rw [silent.audience]; exact once) (by rw [silent.audience]; exact hc) due taken
    rw [sent.connection] at taken
    obtain ⟨ok, queued⟩ := Connection.send_of_open taken
    refine ⟨due, resumed sent.stream sent.archive delivered.streams, ?_, ?_⟩
    · rw [after.connection, sent.connection, queued, silent.connection, List.flatten_append,
        List.flatten_singleton]
    · rw [after.audience]
      exact sent.watching ok

end Plays

section Speed

variable {h : Hub} {i : StreamId} (known : i < h.streams.length)

include known

theorem speed_handleExhausted :
    ((h.handleExhausted i).stream i).replay.speed = (h.stream i).replay.speed := by
  unfold handleExhausted
  split
  · rw [stream_goLive known]
    exact (h.stream i).replay.pause_fields.2.2
  · rw [stream_modifyStream_self known]

theorem speed_runReplay : ((h.runReplay i).stream i).replay.speed = (h.stream i).replay.speed := by
  unfold runReplay
  split_ifs
  · rw [pauseReplay, stream_modifyReplay known]
    exact (h.stream i).replay.pause_fields.2.2
  · have hs := stream_modifyReplay known fun r => (r.run h.config h.archive h.now).1
    have ran : ((h.modifyReplay i fun r =>
        (r.run h.config h.archive h.now).1).stream i).replay.speed = (h.stream i).replay.speed := by
      rw [hs]
      exact Replay.speed_run ..
    dsimp only
    split
    · exact ran
    · have known' := (confined_modifyReplay h i fun r =>
        (r.run h.config h.archive h.now).1).known known
      exact (speed_handleExhausted known').trans ran

theorem speed_seekStream (t : Int64) :
    ((h.seekStream i (.time t)).stream i).replay.speed = (h.stream i).replay.speed := by
  have sought : ((h.stream i).replay.seek h.now (.time t)).speed = (h.stream i).replay.speed :=
    (Replay.rearm_fields _ _).2.2.1
  obtain ⟨m, -, known', hs, he⟩ := seekStream_time known t
  rw [he]
  split_ifs
  · rw [speed_runReplay known', hs]
    exact sought
  · rw [hs]
    exact sought

end Speed

end Hub

end EventRelay
