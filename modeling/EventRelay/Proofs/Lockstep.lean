import EventRelay.Proofs.Inert

/-!
# The same operation in two hubs

What an operation on a stream does depends on the store, on the time in milliseconds, on what the
stream plays, and on whether anybody watches. It does not depend on who watches, nor on the order in
which things happen within one millisecond, which only tells when timers go off that are due
together. So a relation between two hubs that agree on what it depends on is kept by the operation,
once it is kept by the few changes that operations are made of.
-/

namespace EventRelay

/-- An instant without its turn. -/
def Instant.rounded (t : Instant) : Instant := ⟨t.ms, 0⟩

namespace Replay

/-! ## Replays up to turns -/

/-- A replay without the turn of its timer. -/
def rounded (r : Replay) : Replay :=
  { r with timer := r.timer.map fun t => { t with due := t.due.rounded } }

/-- A change that heeds turns only to pass them on. -/
def Rounds (f : ReplayConfig → Archive → Instant → Replay → Replay) : Prop :=
  ∀ config archive now r, (f config archive now r).rounded =
    f config archive now.rounded r.rounded

variable (config : ReplayConfig) (archive : Archive) (now : Instant) (r : Replay)

@[simp] theorem running_rounded : r.rounded.running = r.running := rfl

@[simp] theorem buffer_rounded : r.rounded.buffer = r.buffer := rfl

@[simp] theorem cursor_rounded : r.rounded.cursor = r.cursor := rfl

@[simp] theorem speed_rounded : r.rounded.speed = r.speed := rfl

@[simp] theorem direction_rounded : r.rounded.direction = r.direction := rfl

@[simp] theorem isSome_timer_rounded : r.rounded.timer.isSome = r.timer.isSome := Option.isSome_map

theorem rounded_rearm : (r.rearm now).rounded = r.rounded.rearm now.rounded := by
  unfold rearm
  rw [running_rounded]
  split_ifs <;> rfl

theorem rounds_seek (p : Position) : Rounds fun _ _ now r => r.seek now p := by
  intro config archive now r
  cases p <;> exact rounded_rearm ..

theorem rounds_setSpeed (speed : Binary32) : Rounds fun _ _ now r => r.setSpeed now speed := by
  intro config archive now r
  change (r.setSpeed now speed).rounded = r.rounded.setSpeed now.rounded speed
  unfold setSpeed
  rw [speed_rounded]
  split_ifs
  · exact rounded_rearm ..
  · rfl

theorem rounds_pause : Rounds fun _ _ _ r => r.pause := by
  intro config archive now r
  change r.pause.rounded = r.rounded.pause
  unfold pause
  rw [running_rounded, isSome_timer_rounded]
  split_ifs <;> rfl

theorem rounded_fill : (r.fill config archive).rounded = r.rounded.fill config archive := by
  unfold fill
  rw [buffer_rounded, cursor_rounded, direction_rounded]
  split_ifs
  · split <;> rfl
  · rfl

theorem rounded_schedule : ((r.schedule now).1.rounded, (r.schedule now).2) =
    r.rounded.schedule now.rounded := by
  unfold schedule scheduleBy
  rw [buffer_rounded]
  split <;> rfl

theorem rounded_proceed : ((r.proceed config archive now).1.rounded,
    (r.proceed config archive now).2) = r.rounded.proceed config archive now.rounded := by
  rw [proceed, proceed, rounded_schedule, rounded_fill]

theorem rounded_run : ((r.run config archive now).1.rounded, (r.run config archive now).2) =
    r.rounded.run config archive now.rounded := by
  unfold run
  rw [running_rounded, isSome_timer_rounded]
  split_ifs
  · rfl
  · exact rounded_proceed ..

theorem rounds_proceed : Rounds fun config archive now r => (r.proceed config archive now).1 :=
  fun config archive now r => congrArg Prod.fst (rounded_proceed config archive now r)

theorem rounds_run : Rounds fun config archive now r => (r.run config archive now).1 :=
  fun config archive now r => congrArg Prod.fst (rounded_run config archive now r)

theorem rounded_takeDue : ((r.takeDue config).1.rounded, (r.takeDue config).2) =
    r.rounded.takeDue config := by
  unfold takeDue
  dsimp only [rounded]
  split <;> rfl

theorem rounds_takeDue : Rounds fun config _ _ r => (r.takeDue config).1 :=
  fun config _ _ r => congrArg Prod.fst (rounded_takeDue config r)

end Replay

/-- A stream without those who watch it, and without the turn of its timer. -/
def Stream.sketch (s : Stream) : Stream :=
  { s with subscribers := [], joins := 0, replay := s.replay.rounded }

namespace Hub

/-! ## Hubs that look the same -/

/-- Two hubs that agree on all that an operation on a stream depends on. -/
structure Resembles (i : StreamId) (h h' : Hub) : Prop where
  archive : h'.archive = h.archive
  config : h'.config = h.config
  clock : h'.clock = h.clock
  stream : (h'.stream i).sketch = (h.stream i).sketch
  watched : h'.subscriberCount i = 0 ↔ h.subscriberCount i = 0

namespace Resembles

variable {i : StreamId} {h h' : Hub} (same : Resembles i h h')
include same

theorem live : (h'.stream i).live = (h.stream i).live :=
  (congrArg Stream.live same.stream :)

theorem playing : (h'.stream i).playing = (h.stream i).playing :=
  (congrArg Stream.playing same.stream :)

theorem attached : (h'.stream i).attached = (h.stream i).attached :=
  (congrArg Stream.attached same.stream :)

theorem replay : (h'.stream i).replay.rounded = (h.stream i).replay.rounded :=
  (congrArg Stream.replay same.stream :)

theorem speed : (h'.stream i).replay.speed = (h.stream i).replay.speed :=
  (congrArg Replay.speed same.replay :)

theorem running : (h'.stream i).replay.running = (h.stream i).replay.running :=
  (congrArg Replay.running same.replay :)

theorem epoch : (h'.stream i).replay.epoch = (h.stream i).replay.epoch :=
  (congrArg Replay.epoch same.replay :)

theorem now : h'.now.rounded = h.now.rounded :=
  congrArg (fun clock => Instant.mk clock.1 0) same.clock

theorem wallClock : h'.wallClock = h.wallClock :=
  congrArg (fun clock => clock.2 + Int64.ofNat clock.1) same.clock

/-- The replay comes to the same, whichever of the hubs it is in. -/
theorem run_outcome : ((h'.stream i).replay.run h'.config h'.archive h'.now).2 =
    ((h.stream i).replay.run h.config h.archive h.now).2 := by
  have outcome (m : Hub) := congrArg Prod.snd
    (Replay.rounded_run m.config m.archive m.now (m.stream i).replay)
  rw [show _ = _ from outcome h', show _ = _ from outcome h, same.replay, same.config, same.archive,
    same.now]

theorem proceed_outcome : ((h'.stream i).replay.proceed h'.config h'.archive h'.now).2 =
    ((h.stream i).replay.proceed h.config h.archive h.now).2 := by
  have outcome (m : Hub) := congrArg Prod.snd
    (Replay.rounded_proceed m.config m.archive m.now (m.stream i).replay)
  rw [show _ = _ from outcome h', show _ = _ from outcome h, same.replay, same.config, same.archive,
    same.now]

theorem takeDue_eq : ((h'.stream i).replay.takeDue h'.config).2 =
    ((h.stream i).replay.takeDue h.config).2 := by
  have due (m : Hub) := congrArg Prod.snd (Replay.rounded_takeDue m.config (m.stream i).replay)
  rw [show _ = _ from due h', show _ = _ from due h, same.replay, same.config]

end Resembles

/-- A relation between hubs that look the same to the operations on a stream, and that is kept by
what these are made of. -/
structure Lockstep (i : StreamId) (R : Hub → Hub → Prop) : Prop where
  resembles : ∀ {h h'}, R h h' → Resembles i h h'
  replay : ∀ {h h' f}, Replay.Rounds f → R h h' →
    R (h.modifyReplay i (f h.config h.archive h.now))
      (h'.modifyReplay i (f h'.config h'.archive h'.now))
  setLive : ∀ {h h'} live, R h h' → R (setLive h i live) (setLive h' i live)
  setPlaying : ∀ {h h'} playing, R h h' → R (setPlaying h i playing) (setPlaying h' i playing)
  registerLive : ∀ {h h'}, R h h' → R (registerLive h i) (registerLive h' i)
  deregisterLive : ∀ {h h'}, R h h' → R (deregisterLive h i) (deregisterLive h' i)
  unsubscribeIfIdle : ∀ {h h'}, R h h' → R (unsubscribeIfIdle h i) (unsubscribeIfIdle h' i)

namespace Lockstep

variable {i : StreamId} {R : Hub → Hub → Prop} (step : Lockstep i R) {h h' : Hub}
include step

theorem pauseReplay (hR : R h h') : R (h.pauseReplay i) (h'.pauseReplay i) :=
  step.replay Replay.rounds_pause hR

theorem seekReplay (hR : R h h') (p : Position) : R (h.seekReplay i p) (h'.seekReplay i p) :=
  step.replay (Replay.rounds_seek p) hR

theorem goLive (hR : R h h') : R (h.goLive i) (h'.goLive i) := by
  have live : R ((h.pauseReplay i).setLive i true) ((h'.pauseReplay i).setLive i true) :=
    step.setLive true (step.pauseReplay hR)
  have playing := (step.resembles live).playing
  have split (m : Hub) : m.goLive i = if (((m.pauseReplay i).setLive i true).stream i).playing then
      ((m.pauseReplay i).setLive i true).registerLive i else (m.pauseReplay i).setLive i true := rfl
  rw [split, split, playing]
  split_ifs
  · exact step.registerLive live
  · exact live

theorem handleExhausted (hR : R h h') : R (h.handleExhausted i) (h'.handleExhausted i) := by
  unfold Hub.handleExhausted
  simp only [Replay.direction, (step.resembles hR).speed]
  split
  · exact step.goLive hR
  · exact step.setPlaying false hR

theorem runReplay (hR : R h h') : R (h.runReplay i) (h'.runReplay i) := by
  have ran := step.replay Replay.rounds_run hR
  have outcome := (step.resembles hR).run_outcome
  have watched := (step.resembles hR).watched
  unfold Hub.runReplay
  simp only [watched]
  split_ifs
  · exact step.pauseReplay hR
  · rw [outcome]
    split
    · exact ran
    · exact step.handleExhausted ran

theorem idle (hR : R h h') : R (h.idle i) (h'.idle i) := by
  have leave {m m' : Hub} (hm : R m m') :
      R (if (m.stream i).attached then m.unsubscribeIfIdle i else m)
        (if (m'.stream i).attached then m'.unsubscribeIfIdle i else m') := by
    rw [(step.resembles hm).attached]
    split_ifs
    · exact step.unsubscribeIfIdle hm
    · exact hm
  refine leave ?_
  rw [(step.resembles hR).live]
  split_ifs
  · exact hR
  · exact step.pauseReplay hR

theorem play (hR : R h h') : R (h.play i) (h'.play i) := by
  unfold Hub.play
  rw [(step.resembles hR).live]
  split_ifs
  · exact step.registerLive hR
  · exact step.runReplay hR

theorem startStream (hR : R h h') : R (h.startStream i) (h'.startStream i) := by
  unfold Hub.startStream
  rw [(step.resembles hR).playing]
  split_ifs
  · exact hR
  · exact step.play (step.setPlaying true hR)

theorem stopStream (hR : R h h') : R (h.stopStream i) (h'.stopStream i) := by
  have stopped := step.setPlaying false hR
  unfold Hub.stopStream
  dsimp only
  rw [(step.resembles hR).playing, (step.resembles stopped).live,
    (step.resembles stopped).wallClock]
  split_ifs
  · exact hR
  · exact step.seekReplay (step.deregisterLive stopped) _
  · exact step.pauseReplay stopped

theorem leaveLive (hR : R h h') (p : Position) : R (h.leaveLive i p) (h'.leaveLive i p) := by
  have sought := step.seekReplay (step.setLive false hR) p
  unfold Hub.leaveLive
  dsimp only
  rw [(step.resembles sought).playing]
  split_ifs
  · exact step.runReplay (step.deregisterLive sought)
  · exact sought

theorem seekStream (hR : R h h') (p : Position) : R (h.seekStream i p) (h'.seekStream i p) := by
  have sought := step.seekReplay hR p
  unfold Hub.seekStream
  dsimp only
  rw [(step.resembles hR).live, (step.resembles hR).playing, (step.resembles hR).speed]
  split
  · exact hR
  · exact step.leaveLive hR _
  · split_ifs
    · exact step.setLive true sought
    · exact step.runReplay sought
    · exact step.goLive hR
  · split_ifs
    · exact step.runReplay sought
    · exact sought

theorem setSpeed (hR : R h h') (speed : Binary32) :
    R (h.setSpeed i speed).1 (h'.setSpeed i speed).1 := by
  have paced := step.replay (Replay.rounds_setSpeed speed) hR
  unfold Hub.setSpeed
  dsimp only
  rw [(step.resembles paced).live, (step.resembles paced).playing]
  split_ifs
  · exact step.stopStream hR
  · exact hR
  · exact paced
  · exact step.leaveLive paced .eof
  · exact step.runReplay paced
  · exact paced

theorem replayExhausted (hR : R h h') (epoch : Nat) :
    R (h.replayExhausted i epoch) (h'.replayExhausted i epoch) := by
  have same := step.resembles hR
  unfold Hub.replayExhausted
  dsimp only
  rw [same.live, same.playing, same.epoch]
  split_ifs
  · exact hR
  · exact step.handleExhausted hR

theorem resume (hR : R h h') (epoch : Nat) : R (h.resume i epoch) (h'.resume i epoch) := by
  have same := step.resembles hR
  have proceeded := step.replay Replay.rounds_proceed hR
  unfold Hub.resume
  rw [same.epoch, same.running, same.proceed_outcome]
  split_ifs
  · exact hR
  · split
    · exact proceeded
    · exact step.replayExhausted proceeded epoch

end Lockstep

end Hub

end EventRelay
