import EventRelay.Proofs.WithinRange

/-!
# Gaps that wrap around

The gap to an event says how long a replay waits for it, and nothing else depends on it. With a gap
that is wrapped around in 64 bits a timer goes off sooner or later than it would. When it does the
same events are told and fetched, the same timers have been superseded, and a request to run is
answered alike. So what is said of every run whose timers go off in turn, whenever that is, is said
of 64-bit arithmetic too.
-/

namespace EventRelay

namespace Replay

variable (r : Replay) (config : ReplayConfig) (archive : Archive) (now : Instant)

/-- A replay without the instant of its timer. -/
def untimed : Replay := { r with timer := r.timer.map fun t => { t with due := ⟨0, 0⟩ } }

@[simp] theorem running_untimed : r.untimed.running = r.running := rfl

@[simp] theorem buffer_untimed : r.untimed.buffer = r.buffer := rfl

@[simp] theorem cursor_untimed : r.untimed.cursor = r.cursor := rfl

@[simp] theorem speed_untimed : r.untimed.speed = r.speed := rfl

@[simp] theorem direction_untimed : r.untimed.direction = r.direction := rfl

@[simp] theorem isSome_timer_untimed : r.untimed.timer.isSome = r.timer.isSome := Option.isSome_map

@[simp] theorem untimed_untimed : r.untimed.untimed = r.untimed := by
  simp [untimed, Function.comp_def]

/-! ## What the instant of a timer is not used for -/

theorem untimed_rearm : (r.rearm now).untimed = (r.untimed.rearm now).untimed := by
  unfold rearm
  rw [running_untimed]
  split_ifs
  · rfl
  · exact r.untimed_untimed.symm

theorem untimed_seek (p : Position) : (r.seek now p).untimed = (r.untimed.seek now p).untimed := by
  cases p <;> exact untimed_rearm ..

theorem untimed_setSpeed (x : Binary32) :
    (r.setSpeed now x).untimed = (r.untimed.setSpeed now x).untimed := by
  unfold setSpeed
  rw [speed_untimed]
  split_ifs
  · exact untimed_rearm ..
  · exact ({ r with speed := x } : Replay).untimed_untimed.symm

theorem untimed_pause : r.pause.untimed = r.untimed.pause.untimed := by
  unfold pause
  rw [running_untimed, isSome_timer_untimed]
  split_ifs
  · rfl
  · exact r.untimed_untimed.symm

theorem fill_untimed : r.untimed.fill config archive = (r.fill config archive).untimed := by
  unfold fill
  rw [buffer_untimed, cursor_untimed, direction_untimed]
  split_ifs
  · split <;> rfl
  · rfl

theorem schedule_untimed : r.untimed.schedule now = r.schedule now := by
  unfold schedule scheduleBy
  rw [buffer_untimed]
  split <;> rfl

theorem proceed_untimed : r.untimed.proceed config archive now = r.proceed config archive now := by
  rw [proceed, fill_untimed, schedule_untimed, proceed]

theorem run_untimed : ((r.run config archive now).1.untimed, (r.run config archive now).2) =
    ((r.untimed.run config archive now).1.untimed, (r.untimed.run config archive now).2) := by
  unfold run
  rw [running_untimed, isSome_timer_untimed, proceed_untimed]
  split_ifs
  · rw [untimed_untimed]
  · rfl

theorem untimed_arm (delay delay' : Nat) :
    (r.arm now delay).untimed = (r.arm now delay').untimed := rfl

/-- However gaps are worked out, only the instant of a timer depends on it. -/
theorem untimed_scheduleBy (gap gap' : Message → Int) :
    ((r.scheduleBy gap now).1.untimed, (r.scheduleBy gap now).2) =
      ((r.scheduleBy gap' now).1.untimed, (r.scheduleBy gap' now).2) := by
  unfold scheduleBy
  split
  · rfl
  · exact congrArg (·, RunOutcome.scheduled) (untimed_arm ..)

theorem untimed_proceedWrapped :
    ((r.proceedWrapped config archive now).1.untimed, (r.proceedWrapped config archive now).2) =
      ((r.proceed config archive now).1.untimed, (r.proceed config archive now).2) :=
  untimed_scheduleBy ..

end Replay

namespace Solo

/-- A replay on its own without the instant of its timer. -/
def untimed (s : Solo) : Solo := { s with replay := s.replay.untimed }

def stepWrapped : Solo → Act → Solo := stepBy (·.runWrapped.1) fireWrapped

def stepsWrapped (s : Solo) (acts : List Act) : Solo := acts.foldl stepWrapped s

variable (s : Solo) (epoch : Nat) (act : Act)

theorem untimed_untimed : s.untimed.untimed = s.untimed :=
  congrArg (fun r => { s with replay := r }) s.replay.untimed_untimed

theorem fire_untimed : (s.fire epoch).untimed = (s.untimed.fire epoch).untimed := by
  by_cases current : epoch = s.replay.epoch
  · have current' : s.untimed.replay.epoch = epoch := current.symm
    have same : s.untimed.fire epoch = s.fire epoch := by
      unfold fire fireBy
      rw [if_neg (not_not_intro current'), if_neg (not_not_intro current.symm)]
      rfl
    rw [same]
  · rw [fire_of_ne current, fire_of_ne (s := s.untimed) current, untimed_untimed]

/-- A timer that goes off leads to the same, however the replay plays on, but for the instant of
its next timer. -/
theorem untimed_fireBy {proceed proceed' : Replay → Replay × RunOutcome}
    (alike : ∀ r, ((proceed r).1.untimed, (proceed r).2) =
      ((proceed' r).1.untimed, (proceed' r).2)) :
    (s.fireBy proceed epoch).untimed = (s.fireBy proceed' epoch).untimed := by
  unfold fireBy
  split_ifs
  · rfl
  · rcases s.replay.takeDue s.config with ⟨taken, due⟩
    obtain ⟨same, outcome⟩ := Prod.mk.inj (alike taken)
    -- whatever is told before, the replay plays on only if it runs and somebody listens
    by_cases nothing : due = [] <;> simp only [nothing, if_true, if_false, tell] <;>
      split_ifs with away running <;>
      first | rfl | (rw [outcome]; split <;> simp only [untimed, same])

theorem untimed_fireWrapped : (s.fireWrapped epoch).untimed = (s.fire epoch).untimed :=
  s.untimed_fireBy epoch fun r => r.untimed_proceedWrapped s.config s.archive s.now

theorem run_untimed : (s.run.1.untimed, s.run.2) = (s.untimed.run.1.untimed, s.untimed.run.2) :=
  congrArg (fun x : Replay × RunOutcome => ({ s with replay := x.1 }, x.2))
    (s.replay.run_untimed s.config s.archive s.now)

theorem untimed_runWrapped :
    (s.runWrapped.1.untimed, s.runWrapped.2) = (s.run.1.untimed, s.run.2) := by
  unfold runWrapped resumed Solo.run Replay.run
  split_ifs
  · rfl
  · exact congrArg (fun x : Replay × RunOutcome => ({ s with replay := x.1 }, x.2))
      (s.replay.untimed_proceedWrapped s.config s.archive s.now)

theorem step_untimed : (s.step act).untimed = (s.untimed.step act).untimed := by
  cases act with
  | seek p => exact congrArg (fun r => { s with replay := r }) (s.replay.untimed_seek s.now p)
  | speed x =>
    by_cases accepted : Replay.acceptsSpeed x = true
    · simp only [step, accepted, if_true]
      exact congrArg (fun r => { s with replay := r }) (s.replay.untimed_setSpeed s.now x)
    · simp only [step, accepted]
      exact s.untimed_untimed.symm
  | run => exact congrArg Prod.fst s.run_untimed
  | pause => exact congrArg (fun r => { s with replay := r }) s.replay.untimed_pause
  | tick =>
    have pending : s.untimed.replay.timer =
        s.replay.timer.map fun t => { t with due := ⟨0, 0⟩ } := rfl
    rcases ht : s.replay.timer with _ | timer <;> simp only [step, pending, ht, Option.map]
    · exact s.untimed_untimed.symm
    · exact s.fire_untimed timer.epoch
  | late epoch => exact s.fire_untimed epoch
  | wait | append | fail | leave => exact (untimed_untimed _).symm

theorem untimed_stepWrapped : (s.stepWrapped act).untimed = (s.step act).untimed := by
  cases act with
  | run => exact congrArg Prod.fst s.untimed_runWrapped
  | tick =>
    rcases ht : s.replay.timer with _ | timer <;> simp only [stepWrapped, stepBy, step, ht]
    exact s.untimed_fireWrapped timer.epoch
  | late epoch => exact s.untimed_fireWrapped epoch
  | seek | speed | pause | wait | append | fail | leave => rfl

/-! ## Runs -/

theorem steps_untimed : ∀ (acts : List Act) (s : Solo),
    (s.steps acts).untimed = (s.untimed.steps acts).untimed
  | [], s => s.untimed_untimed.symm
  | act :: acts, s => by
    rw [steps_cons, steps_cons, steps_untimed acts, step_untimed, ← steps_untimed acts]

theorem untimed_stepsWrapped : ∀ (acts : List Act) (s : Solo),
    (s.stepsWrapped acts).untimed = (s.steps acts).untimed
  | [], _ => rfl
  | act :: acts, s => by
    change ((s.stepWrapped act).stepsWrapped acts).untimed = _
    rw [untimed_stepsWrapped acts, steps_untimed acts, untimed_stepWrapped, ← steps_untimed acts,
      steps_cons]

theorem allows_untimed : s.untimed.Allows act ↔ s.Allows act := by
  cases act with
  | tick => exact (congrArg (· = true) s.replay.isSome_timer_untimed).to_iff
  | late | seek | speed | run | pause | wait | append | fail | leave => exact Iff.rfl

/-- In 64 bits that wrap around a run goes as it does with exact gaps, but for the instant of the
pending timer: the same has been told, the replay is at the same place and holds the same, the same
acts are possible next, and to a request to run the same is answered. -/
theorem stepsWrapped_alike (s : Solo) (acts : List Act) :
    let wrapped := s.stepsWrapped acts
    let exact := s.steps acts
    wrapped.untimed = exact.untimed ∧ (∀ act, wrapped.Allows act ↔ exact.Allows act) ∧
      wrapped.runWrapped.2 = exact.run.2 := by
  intro wrapped exact
  have same : wrapped.untimed = exact.untimed := untimed_stepsWrapped acts s
  refine ⟨same, fun act => ?_, ?_⟩
  · rw [← allows_untimed, same, allows_untimed]
  · calc wrapped.runWrapped.2 = wrapped.run.2 := (congrArg Prod.snd wrapped.untimed_runWrapped :)
      _ = wrapped.untimed.run.2 := (congrArg Prod.snd wrapped.run_untimed :)
      _ = exact.untimed.run.2 := by rw [same]
      _ = exact.run.2 := (congrArg Prod.snd exact.run_untimed).symm

end Solo

end EventRelay
