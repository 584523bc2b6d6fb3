import EventRelay.Proofs.Confined

/-!
# What play does not touch

Playing, sending, and entering and leaving the live set change the replay of a stream, whether it is
live and playing, who is left of those who watch it, the live set, the state of connections, and the
order of what happens within a millisecond. A part of the hub that depends on none of these is the
same whatever a stream plays.
-/

namespace EventRelay.Hub

variable {α : Type*}

/-- A part of the hub that what streams play and send leaves as it is. -/
structure Inert (part : Hub → α) : Prop where
  replay : ∀ h i f, part (modifyReplay h i f) = part h
  setLive : ∀ h i live, part (setLive h i live) = part h
  setPlaying : ∀ h i playing, part (setPlaying h i playing) = part h
  subscribers : ∀ h i (f : List ConnId → List ConnId),
    part (modifyStream h i fun s => { s with subscribers := f s.subscribers }) = part h
  listing : ∀ (h : Hub) live, part { h with live } = part h
  connections : ∀ (h : Hub) connections, part { h with connections } = part h

namespace Inert

variable {part : Hub → α} (inert : Inert part) (h : Hub) (i : StreamId)
include inert

/-! ## What a stream plays -/

theorem registerLive : part (h.registerLive i) = part h := by
  unfold Hub.registerLive
  split_ifs
  · rfl
  · exact inert.listing h _

theorem unsubscribeIfIdle : part (h.unsubscribeIfIdle i) = part h := by
  unfold Hub.unsubscribeIfIdle
  split_ifs
  · exact inert.listing h _
  · rfl

theorem deregisterLive : part (h.deregisterLive i) = part h := by
  unfold Hub.deregisterLive
  split_ifs
  · exact inert.listing h _
  · rfl

theorem goLive : part (h.goLive i) = part h := by
  have live : part ((h.pauseReplay i).setLive i true) = part h :=
    (inert.setLive ..).trans (inert.replay ..)
  unfold Hub.goLive
  dsimp only
  split_ifs
  · exact (inert.registerLive _ i).trans live
  · exact live

theorem handleExhausted : part (h.handleExhausted i) = part h := by
  unfold Hub.handleExhausted
  split
  · exact inert.goLive h i
  · exact inert.setPlaying h i false

theorem runReplay : part (h.runReplay i) = part h := by
  unfold Hub.runReplay
  split_ifs
  · exact inert.replay h i _
  · dsimp only
    split
    · exact inert.replay h i _
    · exact (inert.handleExhausted _ i).trans (inert.replay h i _)

theorem idle : part (h.idle i) = part h := by
  have leave {m : Hub} (hm : part m = part h) :
      part (if (m.stream i).attached then m.unsubscribeIfIdle i else m) = part h := by
    split_ifs
    · exact (inert.unsubscribeIfIdle m i).trans hm
    · exact hm
  refine leave ?_
  split_ifs
  · rfl
  · exact inert.replay h i _

theorem play : part (h.play i) = part h := by
  unfold Hub.play
  split_ifs
  · exact inert.registerLive h i
  · exact inert.runReplay h i

theorem startStream : part (h.startStream i) = part h := by
  unfold Hub.startStream
  split_ifs
  · rfl
  · exact (inert.play _ i).trans (inert.setPlaying h i true)

theorem stopStream : part (h.stopStream i) = part h := by
  have stopped := inert.setPlaying h i false
  unfold Hub.stopStream
  dsimp only
  split_ifs
  · rfl
  · exact (inert.replay ..).trans ((inert.deregisterLive _ i).trans stopped)
  · exact (inert.replay ..).trans stopped

theorem leaveLive (p : Position) : part (h.leaveLive i p) = part h := by
  have sought : part ((h.setLive i false).seekReplay i p) = part h :=
    (inert.replay ..).trans (inert.setLive h i false)
  unfold Hub.leaveLive
  dsimp only
  split_ifs
  · exact (inert.runReplay _ i).trans ((inert.deregisterLive _ i).trans sought)
  · exact sought

theorem seekStream (p : Position) : part (h.seekStream i p) = part h := by
  have sought : part (h.seekReplay i p) = part h := inert.replay ..
  unfold Hub.seekStream
  dsimp only
  split
  · rfl
  · exact inert.leaveLive h i _
  · split_ifs
    · exact (inert.setLive _ i true).trans sought
    · exact (inert.runReplay _ i).trans sought
    · exact inert.goLive h i
  · split_ifs
    · exact (inert.runReplay _ i).trans sought
    · exact sought

theorem setSpeed (speed : Binary32) : part (h.setSpeed i speed).1 = part h := by
  have paced := inert.replay h i (·.setSpeed h.now speed)
  unfold Hub.setSpeed
  dsimp only
  split_ifs
  · exact inert.stopStream h i
  · rfl
  · exact paced
  · exact (inert.leaveLive _ i .eof).trans paced
  · exact (inert.runReplay _ i).trans paced
  · exact paced

/-! ## What a stream sends -/

theorem send (batch : List Message) : part (h.send i batch).1 = part h := by
  obtain ⟨connections, kept, hsend, -⟩ := send_eq h i batch
  rw [hsend]
  exact (inert.subscribers _ i fun _ => kept).trans (inert.connections h connections)

theorem deliver (events : List Message) : part (h.deliver i events) = part h := by
  have sent := inert.send h i events
  unfold Hub.deliver
  dsimp only
  split_ifs
  · exact (inert.idle _ i).trans sent
  · exact sent

theorem replayExhausted (epoch : Nat) : part (h.replayExhausted i epoch) = part h := by
  unfold Hub.replayExhausted
  dsimp only
  split_ifs
  · rfl
  · exact inert.handleExhausted h i

theorem resume (epoch : Nat) : part (h.resume i epoch) = part h := by
  have proceeded := inert.replay h i fun r => (r.proceed h.config h.archive h.now).1
  unfold Hub.resume
  split_ifs
  · rfl
  · split
    · exact proceeded
    · exact (inert.replayExhausted _ i epoch).trans proceeded

theorem fire (epoch : Nat) : part (h.fire i epoch) = part h := by
  have taken := inert.replay h i fun r => (r.takeDue h.config).1
  rw [fire_eq]
  dsimp only
  split_ifs
  · rfl
  · exact (inert.resume _ i epoch).trans taken
  · exact (inert.resume _ i epoch).trans ((inert.deliver _ i _).trans taken)

theorem broadcast (batch : List Message) : part (h.broadcast batch) = part h :=
  broadcast_same (inert.send · · ·) inert.unsubscribeIfIdle h batch

theorem removeSubscriber (c : ConnId) : part (h.removeSubscriber i c) = part h := by
  have left := inert.subscribers h i (·.filter fun d => h.isAlive d && d != c)
  unfold Hub.removeSubscriber
  dsimp only
  split_ifs
  · exact (inert.idle _ i).trans left
  · exact left

end Inert

/-! ## Such parts -/

section Each

variable {h h' : Hub} {part : Stream → α}

/-- What a change of one stream leaves as it is. -/
theorem map_modifyStream {f : Stream → Stream} (hf : ∀ s, part (f s) = part s) (h : Hub)
    (i : StreamId) : (h.modifyStream i f).streams.map part = h.streams.map part := by
  refine List.ext_getElem? fun j => ?_
  simp only [modifyStream, List.getElem?_map, List.getElem?_modify]
  cases h.streams[j]? with
  | none => rfl
  | some s =>
    split_ifs
    · exact congrArg some (hf s)
    · rfl

/-- A part of every stream that playing and sending leave alone. -/
theorem inert_map (replay : ∀ s r, part { s with replay := r } = part s)
    (setLive : ∀ s live, part { s with live } = part s)
    (setPlaying : ∀ s playing, part { s with playing } = part s)
    (subscribers : ∀ s subscribers, part { s with subscribers } = part s) :
    Inert fun h => h.streams.map part where
  replay h i f := map_modifyStream (fun s => replay s (f s.replay)) h i
  setLive h i live := map_modifyStream (fun s => setLive s live) h i
  setPlaying h i playing := map_modifyStream (fun s => setPlaying s playing) h i
  subscribers h i f := map_modifyStream (fun s => subscribers s (f s.subscribers)) h i
  listing _ _ := rfl
  connections _ _ := rfl

theorem part_eq_getD (part : Stream → α) (h : Hub) (i : StreamId) :
    part (h.stream i) = (h.streams.map part).getD i (part default) := by
  simp only [stream, List.getD_eq_getElem?_getD, List.getElem?_map]
  cases h.streams[i]? <;> rfl

/-- Where a part of every stream is the same, it is so of the stream at each place. -/
theorem part_stream (same : h'.streams.map part = h.streams.map part) (i : StreamId) :
    part (h'.stream i) = part (h.stream i) := by
  rw [part_eq_getD part h', part_eq_getD part h, same]

end Each

theorem inert_archive : Inert archive where
  replay _ _ _ := rfl
  setLive _ _ _ := rfl
  setPlaying _ _ _ := rfl
  subscribers _ _ _ := rfl
  listing _ _ := rfl
  connections _ _ := rfl

theorem inert_catalog : Inert catalog where
  replay _ _ _ := rfl
  setLive _ _ _ := rfl
  setPlaying _ _ _ := rfl
  subscribers _ _ _ := rfl
  listing _ _ := rfl
  connections _ _ := rfl

/-- The time in milliseconds, and the wall clock. -/
def clock (h : Hub) : Nat × Int64 := (h.now.ms, h.epoch)

theorem inert_clock : Inert clock where
  replay _ _ _ := rfl
  setLive _ _ _ := rfl
  setPlaying _ _ _ := rfl
  subscribers _ _ _ := rfl
  listing _ _ := rfl
  connections _ _ := rfl

end EventRelay.Hub
