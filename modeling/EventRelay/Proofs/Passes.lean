import EventRelay.Proofs.Upcoming
import EventRelay.Replay.Solo

/-!
# A pass through history

From a seek on, a replay delivers the events from the position sought, each once and in the order of
play, whatever pauses, resumptions and changes of pace come between its timers. What was delivered
and what is upcoming are together always the same list, the course of the pass; the end is only
reported with nothing upcoming, once, and behind the last of the events. Each timer that goes off
delivers something, except for the one that a seek arms with nothing at hand, so the end comes
after as many timers as there are events, and one more.
-/

namespace EventRelay

/-- The events that a notice delivers. -/
def Notice.events : Notice → List Message
  | delivered _ events => events
  | exhausted .. => []

def Notice.isEnd : Notice → Bool
  | delivered .. => false
  | exhausted .. => true

theorem Notice.events_of_isEnd {n : Notice} (h : n.isEnd = true) : n.events = [] := by
  cases n with
  | delivered => cases h
  | exhausted => rfl

/-- The events delivered by notices, in turn. -/
def delivered (notices : List Notice) : List Message := notices.flatMap Notice.events

namespace Solo

/-- What can happen to a replay. Its pending timer may go off, and so may timers that have been
superseded, in any order. -/
inductive Act where
  | seek (position : Position)
  | speed (speed : Binary32)
  | run
  | pause
  | tick
  | late (epoch : Nat)
  | wait (now : Instant)
  | append (events : List Message)
  | fail (request : Request) (on : Bool)
  | leave
  deriving DecidableEq

/-- Superseded timers have earlier epochs than the pending one. -/
def Allows (s : Solo) : Act → Prop
  | .tick => s.replay.timer.isSome = true
  | .late epoch => epoch < s.replay.epoch
  | _ => True

instance (s : Solo) : DecidablePred s.Allows
  | .tick => inferInstanceAs (Decidable (_ = true))
  | .late epoch => inferInstanceAs (Decidable (epoch < s.replay.epoch))
  | .seek _ | .speed _ | .run | .pause | .wait _ | .append _ | .fail .. | .leave =>
    inferInstanceAs (Decidable True)

def step (s : Solo) : Act → Solo
  | .seek p => { s with replay := s.replay.seek s.now p }
  | .speed x =>
    if Replay.acceptsSpeed x then { s with replay := s.replay.setSpeed s.now x } else s
  | .run => s.run.1
  | .pause => { s with replay := s.replay.pause }
  | .tick =>
    match s.replay.timer with
    | none => s
    | some timer => s.fire timer.epoch
  | .late epoch => s.fire epoch
  | .wait now => { s with now }
  | .append events => { s with archive := (s.archive.appendBatch events).1 }
  | .fail request on => { s with archive := s.archive.setFailing request on }
  | .leave => { s with listening := false }

def steps (s : Solo) (acts : List Act) : Solo := acts.foldl step s

theorem steps_cons (s : Solo) (act : Act) (acts : List Act) :
    s.steps (act :: acts) = (s.step act).steps acts := rfl

theorem steps_append (s : Solo) (acts more : List Act) :
    s.steps (acts ++ more) = (s.steps acts).steps more := List.foldl_append

/-- Every act is possible when its turn comes. -/
def Allowed : Solo → List Act → Prop
  | _, [] => True
  | s, act :: acts => s.Allows act ∧ (s.step act).Allowed acts

instance : ∀ (s : Solo) (acts : List Act), Decidable (s.Allowed acts)
  | _, [] => inferInstanceAs (Decidable True)
  | s, act :: acts =>
    have : Decidable ((s.step act).Allowed acts) := instDecidableAllowed _ acts
    inferInstanceAs (Decidable (s.Allows act ∧ (s.step act).Allowed acts))

theorem allowed_append : ∀ {acts : List Act} {s : Solo} {more : List Act},
    s.Allowed (acts ++ more) ↔ s.Allowed acts ∧ (s.steps acts).Allowed more
  | [], _, _ => (true_and _).to_iff.symm
  | act :: acts, s, more => by
    rw [List.cons_append, Allowed, Allowed, allowed_append, and_assoc, steps_cons]

/-- A state that a replay comes to from its start. -/
def Reachable (s : Solo) : Prop :=
  ∃ config archive acts, (start config archive).Allowed acts ∧ s = (start config archive).steps acts

/-- How often an act reports the end of history, to the one who asks to run or to the listener. -/
def reports (s : Solo) : Act → Nat
  | .run => if s.run.2 = .exhausted then 1 else 0
  | act => (s.step act).heard.countP Notice.isEnd - s.heard.countP Notice.isEnd

def ends : Solo → List Act → Nat
  | _, [] => 0
  | s, act :: acts => s.reports act + (s.step act).ends acts

theorem ends_append : ∀ (acts : List Act) (s : Solo) (more : List Act),
    s.ends (acts ++ more) = s.ends acts + (s.steps acts).ends more
  | [], _, _ => (Nat.zero_add _).symm
  | act :: acts, s, more => by
    rw [List.cons_append, ends, ends, ends_append acts, steps_cons, Nat.add_assoc]

/-- Of the acts that report the end one is the first. -/
theorem exists_first_report : ∀ {acts : List Act} {s : Solo}, 0 < s.ends acts →
    ∃ before act after, acts = before ++ act :: after ∧ s.ends before = 0 ∧
      0 < (s.steps before).reports act
  | [], _, h => absurd h (Nat.lt_irrefl 0)
  | act :: acts, s, h => by
    rcases Nat.eq_zero_or_pos (s.reports act) with none | reported
    · rw [ends, none, Nat.zero_add] at h
      obtain ⟨before, last, after, rfl, unreported, reported⟩ := exists_first_report h
      exact ⟨act :: before, last, after, rfl, by rw [ends, none, unreported], reported⟩
    · exact ⟨[], act, acts, rfl, rfl, reported⟩

/-- What the listener was told after an earlier state, first first. -/
def since (s : Solo) (earlier : Solo) : List Notice := s.heard.reverse.drop earlier.heard.length

/-! ## Timers -/

theorem fire_of_ne {s : Solo} {epoch : Nat} (h : epoch ≠ s.replay.epoch) : s.fire epoch = s := by
  rw [fire, fireBy, if_pos (Ne.symm h)]

/-- All that a timer does to the replay when it goes off: nothing once it has been superseded. Or
else what is due is taken, and the replay pauses, plays on, or does not run and is left at that. -/
theorem fire_cases (s : Solo) (epoch : Nat) :
    let taken := (s.replay.takeDue s.config).1
    epoch ≠ s.replay.epoch ∧ (s.fire epoch).replay = s.replay ∨
      epoch = s.replay.epoch ∧ ((s.fire epoch).replay = taken.pause ∨
        (s.fire epoch).replay = (taken.proceed s.config s.archive s.now).1 ∨
        taken.running = false ∧ (s.fire epoch).replay = taken) := by
  by_cases he : epoch = s.replay.epoch
  · refine .inr ⟨he, ?_⟩
    rw [fire, fireBy, if_neg (not_not_intro he.symm)]
    rcases s.replay.takeDue s.config with ⟨taken, due⟩
    dsimp only
    split_ifs with away nothing running running
    · exact .inl rfl
    · exact .inr (.inl (by split <;> rfl))
    · exact .inr (.inr ⟨Bool.eq_false_of_not_eq_true running, rfl⟩)
    · exact .inr (.inl (by split <;> rfl))
    · exact .inr (.inr ⟨Bool.eq_false_of_not_eq_true running, rfl⟩)
  · exact .inl ⟨he, congrArg replay (fire_of_ne he)⟩

/-- What a timer leaves alone. -/
theorem fire_context (s : Solo) (epoch : Nat) :
    (s.fire epoch).config = s.config ∧ (s.fire epoch).archive = s.archive := by
  unfold fire fireBy
  split_ifs
  · exact ⟨rfl, rfl⟩
  · dsimp only
    split_ifs <;> first | exact ⟨rfl, rfl⟩ | (split <;> exact ⟨rfl, rfl⟩)

theorem timed_fire {s : Solo} (h : s.replay.Timed) (epoch : Nat) :
    (s.fire epoch).replay.Timed := by
  rcases fire_cases s epoch with ⟨-, hs⟩ | ⟨-, hs | hs | ⟨stopped, hs⟩⟩ <;> rw [hs]
  · exact h
  · exact Replay.pause_timed _
  · exact Replay.schedule_timed _ s.now
  · rw [Replay.Timed, stopped, (Replay.takeDue_fields s.config s.replay).1]
    rfl

/-- What a timer tells that goes off, last first. -/
def tickNotices (ms epoch : Nat) (due : List Message) (outcome : RunOutcome) : List Notice :=
  (if outcome = .exhausted then [.exhausted ms epoch] else []) ++
    if due = [] then [] else [.delivered ms due]

theorem delivered_tickNotices (ms epoch : Nat) (due : List Message) (outcome : RunOutcome) :
    delivered (tickNotices ms epoch due outcome).reverse = due := by
  unfold delivered tickNotices
  split_ifs with ho hd hd <;> simp [Notice.events, hd]

theorem countP_tickNotices (ms epoch : Nat) (due : List Message) (outcome : RunOutcome) :
    (tickNotices ms epoch due outcome).countP Notice.isEnd =
      if outcome = .exhausted then 1 else 0 := by
  unfold tickNotices
  split_ifs <;> rfl

/-- The end is told behind what is delivered. -/
theorem tail_tickNotices (ms epoch : Nat) (due : List Message) (outcome : RunOutcome) :
    ∀ n ∈ (tickNotices ms epoch due outcome).tail, n.isEnd = false := by
  unfold tickNotices
  split_ifs <;> simp [Notice.isEnd]

/-- A pending timer that goes off before somebody who listens: the events due are delivered, and the
replay plays on. -/
theorem step_tick_eq {s : Solo} (timed : s.replay.Timed) (listening : s.listening = true)
    (pending : s.replay.timer.isSome = true) :
    let taken := s.replay.takeDue s.config
    let next := taken.1.proceed s.config s.archive s.now
    s.step .tick = { s with
      replay := next.1
      heard := tickNotices s.now.ms s.replay.epoch taken.2 next.2 ++ s.heard } := by
  obtain ⟨timer, ht⟩ := Option.isSome_iff_exists.1 pending
  obtain ⟨running, epoch⟩ := timed.epoch_eq ht
  obtain ⟨due, rest, -, hdue, -⟩ := Replay.takeDue_eq s.config s.replay
  obtain ⟨replay, outcome, hnext⟩ : ∃ replay outcome,
      { s.replay with timer := none, buffer := rest }.proceed s.config s.archive s.now =
        (replay, outcome) := ⟨_, _, rfl⟩
  rw [hdue, step, ht]
  dsimp only
  rw [fire, fireBy, if_neg (not_not_intro epoch.symm), hdue, epoch]
  simp only [listening, Bool.not_true, Bool.false_eq_true, if_false]
  by_cases hd : due = []
  · simp only [tickNotices, hd, if_true]
    rw [if_pos running, hnext]
    cases outcome <;> rfl
  · simp only [tickNotices, hd, if_false, tell]
    rw [if_pos running, hnext]
    cases outcome <;> rfl

/-- What a pending timer does that goes off before somebody who listens. -/
theorem step_tick {s : Solo} (timed : s.replay.Timed) (listening : s.listening = true)
    (pending : s.replay.timer.isSome = true) : ∃ due rest replay outcome,
    s.replay.buffer = due ++ rest ∧
    (s.replay.Anchored → s.replay.buffer ≠ [] → due ≠ []) ∧
    { s.replay with timer := none, buffer := rest }.proceed s.config s.archive s.now =
      (replay, outcome) ∧
    s.step .tick = { s with
      replay
      heard := tickNotices s.now.ms s.replay.epoch due outcome ++ s.heard } := by
  obtain ⟨timer, ht⟩ := Option.isSome_iff_exists.1 pending
  obtain ⟨due, rest, hbuffer, hdue, some⟩ := Replay.takeDue_eq s.config s.replay
  have stepped := step_tick_eq timed listening pending
  rw [hdue] at stepped
  exact ⟨due, rest, _, _, hbuffer, fun anchored => some anchored (timed.epoch_eq ht).1, rfl,
    stepped⟩

theorem timed_step {s : Solo} (h : s.replay.Timed) (act : Act) : (s.step act).replay.Timed := by
  cases act with
  | seek p => exact Replay.seek_timed h s.now p
  | speed x =>
    rw [step]
    split_ifs
    · exact Replay.setSpeed_timed h s.now x
    · exact h
  | run => exact Replay.run_timed h s.config s.archive s.now
  | pause => exact Replay.pause_timed s.replay
  | tick =>
    rw [step]
    split
    · exact h
    · exact timed_fire h _
  | late epoch => exact timed_fire h epoch
  | wait | append | fail | leave => exact h

theorem timed_steps {s : Solo} (h : s.replay.Timed) (acts : List Act) :
    (s.steps acts).replay.Timed := by
  induction acts generalizing s with
  | nil => exact h
  | cons act acts ih => exact ih (timed_step h act)

/-! ## One step -/

/-- What leaves the course of a pass alone. The pace may change, the direction may not. -/
def Act.Steady (d : Direction) : Act → Prop
  | .seek _ | .append _ | .fail .. | .leave => False
  | .speed x => Replay.acceptsSpeed x = true → Direction.ofSpeed x = d
  | .run | .pause | .tick | .late _ | .wait _ => True

instance (d : Direction) : DecidablePred (Act.Steady d)
  | .seek _ | .append _ | .fail .. | .leave => inferInstanceAs (Decidable False)
  | .speed x =>
    inferInstanceAs (Decidable (Replay.acceptsSpeed x = true → Direction.ofSpeed x = d))
  | .run | .pause | .tick | .late _ | .wait _ => inferInstanceAs (Decidable True)

/-- A replay plays a log in a direction, and somebody listens. -/
structure Playing (d : Direction) (log : List Message) (s : Solo) : Prop where
  holds : s.archive.store.Holds log
  up : s.archive.failing .fetch = false
  listening : s.listening = true
  direction : s.replay.direction = d
  settled : s.replay.cursor.Settled log
  sharp : s.replay.cursor.Sharp d
  timed : s.replay.Timed
  anchored : s.replay.Anchored

/-- How many timers can still go off: one for each event, and one more that finds none at hand. -/
def budget (s : Solo) (log : List Message) : Nat :=
  (s.replay.upcoming log).length + if s.replay.running ∧ s.replay.buffer = [] then 1 else 0

/-- Nothing is left to deliver, and no timer is pending. -/
def Over (s : Solo) (log : List Message) : Prop :=
  s.replay.upcoming log = [] ∧ s.replay.running = false

section Step

variable {d : Direction} {log : List Message} {s : Solo}

theorem reports_of_heard {told : List Notice} {act : Act} (hrun : act ≠ .run)
    (h : (s.step act).heard = told ++ s.heard) : s.reports act = told.countP Notice.isEnd := by
  have : s.reports act = (s.step act).heard.countP Notice.isEnd - s.heard.countP Notice.isEnd := by
    cases act <;> first | rfl | exact absurd rfl hrun
  rw [this, h, List.countP_append, Nat.add_sub_cancel]

theorem reports_of_unheard {act : Act} (hrun : act ≠ .run) (h : (s.step act).heard = s.heard) :
    s.reports act = 0 :=
  (reports_of_heard hrun h : _ = ([] : List Notice).countP Notice.isEnd)

theorem reports_run_le (s : Solo) : s.reports .run ≤ 1 := by
  rw [reports]
  split_ifs <;> omega

/-- The outcome of a step: what the listener is told, what remains to be told, how many timers are
left, and that the end is only reported when it is reached, and then once and told last. -/
structure Outcome (d : Direction) (log : List Message) (s : Solo) (act : Act)
    (told : List Notice) : Prop where
  playing : (s.step act).Playing d log
  heard : (s.step act).heard = told ++ s.heard
  whole : delivered told.reverse ++ (s.step act).replay.upcoming log = s.replay.upcoming log
  budget : (s.step act).budget log + (if act = .tick then 1 else 0) ≤ s.budget log
  ended : 0 < s.reports act → (s.step act).Over log
  once : s.reports act ≤ 1
  counted : told.countP Notice.isEnd ≤ s.reports act
  last : ∀ n ∈ told.tail, n.isEnd = false
  quiet : act ≠ .tick → told = []
  running : act ≠ .pause → s.replay.running = true ∨ act = .run →
    (s.step act).replay.running = true ∨ 0 < s.reports act

theorem step_setSpeed (h : s.Playing d log) {x : Binary32} (steady : (Act.speed x).Steady d) :
    s.step (.speed x) = s ∨
      s.step (.speed x) = { s with replay := { s.replay with speed := x } } ∧
        Direction.ofSpeed x = d := by
  rw [step]
  split_ifs with hx
  · have hd := steady hx
    exact .inr ⟨by rw [Replay.setSpeed_same (hd.trans h.direction.symm)], hd⟩
  · exact .inl rfl

theorem quiet_outcome {act : Act} (hrun : act ≠ .run) (htick : act ≠ .tick)
    (playing : (s.step act).Playing d log) (heard : (s.step act).heard = s.heard)
    (upcoming : (s.step act).replay.upcoming log = s.replay.upcoming log)
    (budget : (s.step act).budget log ≤ s.budget log)
    (running : act = .pause ∨ (s.step act).replay.running = s.replay.running) :
    Outcome d log s act [] where
  playing := playing
  heard := heard
  whole := upcoming
  budget := by rwa [if_neg htick]
  ended hr := absurd hr (Nat.not_lt_of_le (reports_of_unheard hrun heard).le)
  once := (reports_of_unheard hrun heard).le.trans (Nat.zero_le 1)
  counted := Nat.zero_le _
  last := nofun
  quiet _ := rfl
  running hp hr := by
    rw [running.resolve_left hp]
    exact .inl (hr.resolve_right hrun)

theorem tick_outcome (h : s.Playing d log)
    (pending : s.replay.timer.isSome = true) : ∃ told, Outcome d log s .tick told := by
  obtain ⟨due, rest, replay, outcome, hbuffer, some, hnext, hs⟩ :=
    step_tick h.timed h.listening pending
  obtain ⟨timer, ht⟩ := Option.isSome_iff_exists.1 pending
  obtain ⟨running, -⟩ := h.timed.epoch_eq ht
  obtain ⟨settled, sharp, direction, upcoming, anchored, timed, filled, ended, empty⟩ :=
    Replay.proceed_spec s.config s.now h.holds h.up (h.direction.symm ▸ h.sharp)
      (by exact h.settled) hnext
  have whole : due ++ replay.upcoming log = s.replay.upcoming log := by
    rw [upcoming, Replay.upcoming, Replay.upcoming, hbuffer, List.append_assoc]
    rfl
  have reported : s.reports .tick = if outcome = .exhausted then 1 else 0 := by
    rw [reports_of_heard (by simp) (by rw [hs]), countP_tickNotices]
  refine ⟨_, hs ▸ ⟨h.holds, h.up, h.listening, direction.trans h.direction, settled,
    h.direction ▸ sharp, timed, anchored⟩, by rw [hs],
    by rw [delivered_tickNotices, hs]; exact whole, ?_, fun hr => ?_, ?_,
    by rw [countP_tickNotices, reported], tail_tickNotices _ _ due outcome,
    fun h => absurd rfl h, fun _ _ => ?_⟩
  · have slack : ¬(replay.running = true ∧ replay.buffer = []) := fun h => filled h.1 h.2
    rw [hs, budget, budget, if_pos rfl, ← whole, List.length_append]
    simp only [slack, if_false, running, true_and]
    split_ifs with hb
    · omega
    · have := List.length_pos_of_ne_nil (some h.anchored hb)
      omega
  · have ho : outcome = .exhausted := by
      by_contra ho
      rw [reported, if_neg ho] at hr
      exact absurd hr (Nat.lt_irrefl 0)
    have stopped := ended.1 ho
    rw [hs]
    exact ⟨upcoming.trans (empty stopped), stopped⟩
  · rw [reported]
    split_ifs <;> decide
  · rw [reported, hs]
    rcases hr : replay.running with _ | _
    · exact .inr (by rw [if_pos (ended.2 hr)]; exact Nat.one_pos)
    · exact .inl rfl

theorem run_outcome (h : s.Playing d log) :
    Outcome d log s .run [] := by
  by_cases hr : s.replay.running = true
  · obtain ⟨timer, ht, -⟩ := h.timed.exists_timer hr
    have same : s.step .run = s := by
      simp [step, Solo.run, Replay.run, hr, ht]
    have none : s.reports .run = 0 := by
      simp [reports, Solo.run, Replay.run, hr, ht]
    exact ⟨by rw [same]; exact h, by rw [same]; rfl, by rw [same]; rfl, by simp [same],
      fun h => absurd h (by omega), reports_run_le s, Nat.zero_le _, nofun, fun _ => rfl,
      fun _ _ => .inl (by rw [same]; exact hr)⟩
  · obtain ⟨replay, outcome, hnext⟩ : ∃ replay outcome,
        s.replay.proceed s.config s.archive s.now = (replay, outcome) := ⟨_, _, rfl⟩
    obtain ⟨settled, sharp, direction, upcoming, anchored, timed, filled, ended, empty⟩ :=
      Replay.proceed_spec s.config s.now h.holds h.up (h.direction.symm ▸ h.sharp) h.settled hnext
    have hrun : s.run = ({ s with replay }, outcome) := by
      simp [Solo.run, Replay.run, hr, hnext]
    have hs : s.step .run = { s with replay } := by rw [step, hrun]
    refine ⟨hs ▸ ⟨h.holds, h.up, h.listening, direction.trans h.direction, settled,
      h.direction ▸ sharp, timed, anchored⟩, by rw [hs]; rfl, by rw [hs]; exact upcoming, ?_,
      fun hr => ?_, reports_run_le s, Nat.zero_le _, nofun, fun _ => rfl, fun _ _ => ?_⟩
    · have slack : ¬(replay.running = true ∧ replay.buffer = []) := fun h => filled h.1 h.2
      simp [hs, budget, upcoming, slack, hr]
    · have ho : outcome = .exhausted := by
        by_contra ho
        simp [reports, hrun, ho] at hr
      have stopped := ended.1 ho
      rw [hs]
      exact ⟨upcoming.trans (empty stopped), stopped⟩
    · rw [hs]
      rcases hr : replay.running with _ | _
      · exact .inr (by simp [reports, hrun, ended.2 hr])
      · exact .inl rfl

theorem step_outcome (h : s.Playing d log) {act : Act}
    (steady : act.Steady d) (allowed : s.Allows act) :
    ∃ told, Outcome d log s act told := by
  cases act with
  | seek | append | fail | leave => exact steady.elim
  | run => exact ⟨_, run_outcome h⟩
  | tick => exact tick_outcome h allowed
  | late epoch =>
    have same : s.step (.late epoch) = s := fire_of_ne (Nat.ne_of_lt allowed)
    refine ⟨[], quiet_outcome (by simp) (by simp) ?_ ?_ ?_ ?_ (.inr ?_)⟩ <;> rw [same]
    exact h
  | wait now =>
    refine ⟨[], quiet_outcome (by simp) (by simp) ?_ rfl rfl (Nat.le_refl _) (.inr rfl)⟩
    exact ⟨h.holds, h.up, h.listening, h.direction, h.settled, h.sharp, h.timed, h.anchored⟩
  | pause =>
    obtain ⟨hb, hc, hs⟩ := s.replay.pause_fields
    have hd : s.replay.pause.direction = s.replay.direction := congrArg Direction.ofSpeed hs
    have stopped := Replay.not_running_pause s.replay
    have upcoming : s.replay.pause.upcoming log = s.replay.upcoming log :=
      Replay.upcoming_congr hb hc hd
    refine ⟨[], quiet_outcome (by simp) (by simp) ?_ rfl upcoming ?_ (.inl rfl)⟩
    · exact ⟨h.holds, h.up, h.listening, hd.trans h.direction, by rw [step, hc]; exact h.settled,
        by rw [step, hc]; exact h.sharp, Replay.pause_timed _,
        fun hr => absurd hr (by simp [step, stopped])⟩
    · simp [budget, step, upcoming, stopped]
  | speed x =>
    rcases step_setSpeed h steady with same | ⟨same, hx⟩
    · refine ⟨[], quiet_outcome (by simp) (by simp) ?_ ?_ ?_ ?_ (.inr ?_)⟩ <;> rw [same]
      exact h
    · have upcoming : ({ s.replay with speed := x } : Replay).upcoming log =
          s.replay.upcoming log := Replay.upcoming_congr rfl rfl (hx.trans h.direction.symm)
      refine ⟨[], quiet_outcome (by simp) (by simp) ?_ ?_ ?_ ?_ (.inr ?_)⟩ <;> rw [same]
      · exact ⟨h.holds, h.up, h.listening, hx, h.settled, h.sharp, h.timed, h.anchored⟩
      · exact upcoming
      · rw [budget, budget, upcoming]

end Step

/-! ## A whole pass -/

section Pass

variable {d : Direction} {log : List Message}

theorem over_iff {s : Solo} : s.Over log ↔ s.budget log = 0 := by
  unfold Over budget
  constructor
  · rintro ⟨hu, hr⟩
    simp [hu, hr]
  · intro h
    have hu : s.replay.upcoming log = [] := List.length_eq_zero_iff.1 (by omega)
    refine ⟨hu, ?_⟩
    rw [Replay.upcoming, List.append_eq_nil_iff] at hu
    by_contra hr
    rw [if_pos ⟨by simpa using hr, hu.1⟩] at h
    omega

/-- Past the end nothing more is heard, and each request to run is told of the end. -/
theorem steps_over : ∀ {acts : List Act} {s : Solo}, s.Playing d log →
    s.Over log → (∀ act ∈ acts, act.Steady d) → s.Allowed acts →
      (s.steps acts).heard = s.heard ∧ s.ends acts = acts.count .run
  | [], s, _, _, _, _ => ⟨rfl, rfl⟩
  | act :: acts, s, h, hover, steady, allowed => by
    obtain ⟨told, o⟩ := step_outcome h (steady act (by simp)) allowed.1
    have none := over_iff.1 hover
    have spent := o.budget
    have htick : act ≠ .tick := by
      rintro rfl
      simp only [if_true] at spent
      omega
    have ended' : (s.step act).Over log := over_iff.2 (by omega)
    obtain ⟨heard, ends_eq⟩ := steps_over o.playing ended'
      (fun a ha => steady a (by simp [ha])) allowed.2
    have told_nil := o.quiet htick
    refine ⟨by rw [steps_cons, heard, o.heard, told_nil, List.nil_append], ?_⟩
    rw [ends, ends_eq, List.count_cons, Nat.add_comm]
    congr 1
    by_cases hrun : act = .run
    · subst hrun
      have := (o.running (by simp) (.inr rfl)).resolve_left (by simp [ended'.2])
      have := Solo.reports_run_le s
      simp
      omega
    · rw [reports_of_heard hrun o.heard, told_nil]
      simp [hrun]

/-- The progress of a pass with a run of acts: what the listener has been told, what remains to be
told, how many timers are left, and that the end is only reported when it is reached, and told
last. -/
structure Progress (d : Direction) (log : List Message) (s : Solo) (acts : List Act)
    (told : List Notice) : Prop where
  playing : (s.steps acts).Playing d log
  heard : (s.steps acts).heard = told ++ s.heard
  whole : delivered told.reverse ++ (s.steps acts).replay.upcoming log = s.replay.upcoming log
  budget : (s.steps acts).budget log + acts.count .tick ≤ s.budget log
  ended : 0 < s.ends acts → (s.steps acts).Over log
  counted : told.countP Notice.isEnd ≤ s.ends acts
  last : ∀ n ∈ told.tail, n.isEnd = false

theorem steps_progress : ∀ {acts : List Act} {s : Solo}, s.Playing d log →
    (∀ act ∈ acts, act.Steady d) → s.Allowed acts → ∃ told, Progress d log s acts told
  | [], s, h, _, _ =>
    ⟨[], h, rfl, rfl, Nat.le_refl _, fun h => absurd h (Nat.lt_irrefl 0), Nat.le_refl _, nofun⟩
  | act :: acts, s, h, steady, allowed => by
    obtain ⟨told, o⟩ := step_outcome h (steady act (by simp)) allowed.1
    have steady' : ∀ a ∈ acts, a.Steady d := fun a ha => steady a (by simp [ha])
    obtain ⟨more, rest⟩ := steps_progress o.playing steady' allowed.2
    have budget := rest.budget
    refine ⟨more ++ told, rest.playing, ?_, ?_, ?_, fun ended => ?_, ?_, ?_⟩
    · rw [steps_cons, rest.heard, o.heard, List.append_assoc]
    · rw [← o.whole, ← rest.whole, delivered, List.reverse_append, List.flatMap_append,
        List.append_assoc]
      rfl
    · have := o.budget
      rw [steps_cons, List.count_cons]
      simp only [beq_iff_eq]
      omega
    · rw [steps_cons]
      rcases Nat.eq_zero_or_pos (s.reports act) with none | reported
      · exact rest.ended (by simpa [ends, none] using ended)
      · have := over_iff.1 (o.ended reported)
        exact over_iff.2 (by omega)
    · have := o.counted
      have := rest.counted
      rw [List.countP_append, ends]
      omega
    · rcases more with _ | ⟨latest, more⟩
      · exact o.last
      · intro n hn
        rcases List.mem_append.1 hn with hn | hn
        · exact rest.last n hn
        · -- behind the end nothing would have been told
          by_contra isEnd
          have told_end : 0 < told.countP Notice.isEnd :=
            List.countP_pos_iff.2 ⟨n, hn, Bool.eq_true_of_not_eq_false isEnd⟩
          obtain ⟨silent, -⟩ := steps_over o.playing (o.ended (told_end.trans_le o.counted))
            steady' allowed.2
          have longer := congrArg List.length (silent.symm.trans rest.heard)
          rw [List.length_append, List.length_cons] at longer
          omega

/-- The end is reported by one act, and once. From then on each request to run is told of it
again. -/
theorem steps_reported {acts : List Act} {s : Solo} (h : s.Playing d log)
    (steady : ∀ act ∈ acts, act.Steady d) (allowed : s.Allowed acts) (reported : 0 < s.ends acts) :
    ∃ before act after, acts = before ++ act :: after ∧ s.ends before = 0 ∧
      s.ends (before ++ [act]) = 1 ∧ s.ends acts = 1 + after.count .run := by
  obtain ⟨before, act, after, rfl, unreported, reports⟩ := exists_first_report reported
  have within {a : Act} (ha : a ∈ before ∨ a = act ∨ a ∈ after) : a.Steady d :=
    steady a (by simpa using ha)
  rw [allowed_append] at allowed
  obtain ⟨_, first⟩ := steps_progress h (fun a ha => within (.inl ha)) allowed.1
  obtain ⟨_, o⟩ := step_outcome first.playing (within (.inr (.inl rfl))) allowed.2.1
  obtain ⟨-, again⟩ := steps_over o.playing (o.ended reports)
    (fun a ha => within (.inr (.inr ha))) allowed.2.2
  have once : (s.steps before).reports act = 1 := Nat.le_antisymm o.once reports
  refine ⟨before, act, after, rfl, unreported, ?_, ?_⟩
  · rw [ends_append, unreported, ends, ends, once]
  · rw [ends_append, unreported, ends, once, again, Nat.zero_add]

/-- Without pauses a replay that has been started runs until the end has been reported. -/
theorem steps_running : ∀ {acts : List Act} {s : Solo}, s.Playing d log →
    (∀ act ∈ acts, act.Steady d) → s.Allowed acts → .pause ∉ acts →
      s.replay.running = true ∨ .run ∈ acts → s.ends acts = 0 →
        (s.steps acts).replay.running = true
  | [], s, _, _, _, _, hr, _ => hr.resolve_right List.not_mem_nil
  | act :: acts, s, h, steady, allowed, hp, hr, hends => by
    obtain ⟨told, o⟩ := step_outcome h (steady act (by simp)) allowed.1
    rw [ends, Nat.add_eq_zero_iff] at hends
    have quiet : ¬0 < s.reports act := by omega
    have hr' : (s.step act).replay.running = true ∨ .run ∈ acts := by
      rcases hr with hr | hr
      · exact .inl ((o.running (fun h => hp (by simp [h])) (.inl hr)).resolve_right quiet)
      · rcases List.mem_cons.1 hr with rfl | hr
        · exact .inl ((o.running (by simp) (.inr rfl)).resolve_right quiet)
        · exact .inr hr
    rw [steps_cons]
    exact steps_running o.playing (fun a ha => steady a (by simp [ha])) allowed.2
      (fun h => hp (by simp [h])) hr' hends.2

theorem since_eq {s earlier : Solo} {told : List Notice} (h : s.heard = told ++ earlier.heard) :
    s.since earlier = told.reverse := by
  rw [since, h, List.reverse_append, List.drop_left' List.length_reverse]

theorem since_eq_nil {s earlier : Solo} (h : s.heard = earlier.heard) : s.since earlier = [] := by
  rw [since, h, ← List.length_reverse, List.drop_length]

theorem Reachable.timed {s : Solo} (h : s.Reachable) : s.replay.Timed := by
  obtain ⟨config, archive, acts, -, rfl⟩ := h
  exact timed_steps Replay.start_timed acts

theorem playing_seek {s : Solo} (timed : s.replay.Timed) (holds : s.archive.store.Holds log)
    (up : s.archive.failing .fetch = false) (listening : s.listening = true) (p : Position) :
    (s.step (.seek p)).Playing s.replay.direction log where
  holds := holds
  up := up
  listening := listening
  direction := Replay.direction_seek
  settled := by
    rw [step, Replay.cursor_seek]
    exact p.settled_cursor log
  sharp := by
    rw [step, Replay.cursor_seek]
    exact p.sharp_cursor
  timed := Replay.seek_timed timed s.now p
  anchored _ m rest hb := by
    rw [step, Replay.buffer_seek] at hb
    cases hb

/-- What becomes of a course while a replay plays it. Its events are delivered in turn, and as soon
as the end is reported all of them have been. Timers go off at most once more than there are events.
Unless the replay is paused, one is pending until the end is reported, and after so many timers it
has been. The end is reported by one act, and once, and then again only to those who ask to run. A
listener who is told of it has been told all of the events before, and is told nothing more. -/
structure Pass (s : Solo) (d : Direction) (course : List Message) (acts : List Act) : Prop where
  inTurn : delivered ((s.steps acts).since s) <+: course
  whole : 0 < s.ends acts → delivered ((s.steps acts).since s) = course
  timers : acts.count .tick ≤ course.length + 1
  pending : .pause ∉ acts → s.replay.running = true ∨ .run ∈ acts → s.ends acts = 0 →
    (s.steps acts).replay.timer.isSome = true
  reached : .pause ∉ acts → s.replay.running = true ∨ .run ∈ acts →
    acts.count .tick = course.length + 1 → 0 < s.ends acts
  once : 0 < s.ends acts → ∃ before act after, acts = before ++ act :: after ∧
    s.ends before = 0 ∧ s.ends (before ++ [act]) = 1 ∧ s.ends acts = 1 + after.count .run
  closes : ∀ told n more, (s.steps acts).since s = told ++ n :: more → n.isEnd = true →
    delivered told = course ∧ more = []
  silent : 0 < s.ends acts → ∀ more, (∀ act ∈ more, act.Steady d) → (s.steps acts).Allowed more →
    ((s.steps acts).steps more).heard = (s.steps acts).heard ∧
      (s.steps acts).ends more = more.count .run

/-- A replay delivers a course, however it is paused and paced. -/
def Delivers (s : Solo) (d : Direction) (course : List Message) : Prop :=
  ∀ acts, (∀ act ∈ acts, act.Steady d) → s.Allowed acts → s.Pass d course acts

/-- What a replay delivers is what is upcoming. -/
theorem Playing.delivers {s : Solo} (h : s.Playing d log) :
    s.Delivers d (s.replay.upcoming log) := by
  intro acts steady allowed
  obtain ⟨told, progress⟩ := steps_progress h steady allowed
  have since : (s.steps acts).since s = told.reverse := since_eq progress.heard
  have whole (reported : 0 < s.ends acts) : delivered told.reverse = s.replay.upcoming log := by
    rw [← progress.whole, (progress.ended reported).1, List.append_nil]
  have slack : s.budget log ≤ (s.replay.upcoming log).length + 1 := by
    rw [Solo.budget]
    split_ifs <;> omega
  have spent := progress.budget
  have pending (unpaused : .pause ∉ acts) (started : s.replay.running = true ∨ .run ∈ acts)
      (unended : s.ends acts = 0) : (s.steps acts).replay.running = true :=
    steps_running h steady allowed unpaused started unended
  refine ⟨?_, fun reported => ?_, by omega, fun unpaused started unended => ?_,
    fun unpaused started ticks => ?_, steps_reported h steady allowed,
    fun first n more split isEnd => ?_, fun exhausted more steady' allowed' =>
      steps_over progress.playing (progress.ended exhausted) steady' allowed'⟩
  · rw [since]
    exact ⟨_, progress.whole⟩
  · rw [since, whole reported]
  · obtain ⟨timer, ht, -⟩ := progress.playing.timed.exists_timer (pending unpaused started unended)
    exact Option.isSome_iff_exists.2 ⟨timer, ht⟩
  · by_contra unended
    have running := pending unpaused started (Nat.eq_zero_of_not_pos unended)
    have none : (s.steps acts).budget log = 0 := by omega
    rw [(over_iff.2 none).2] at running
    cases running
  · rw [since] at split
    have parts : told = more.reverse ++ n :: first.reverse := by
      simpa using congrArg List.reverse split
    have told_end : 0 < told.countP Notice.isEnd :=
      List.countP_pos_iff.2 ⟨n, by simp [parts], isEnd⟩
    have nothing : more = [] := by
      rcases hm : more.reverse with _ | ⟨latest, later⟩
      · exact List.reverse_eq_nil_iff.1 hm
      · have := progress.last n (by simp [parts, hm])
        rw [isEnd] at this
        cases this
    have course := whole (told_end.trans_le progress.counted)
    rw [split, nothing, delivered, List.flatMap_append, List.flatMap_singleton,
      Notice.events_of_isEnd isEnd, List.append_nil] at course
    exact ⟨course, nothing⟩

/-- From a seek on a replay delivers the events of the course, however it is paused and paced. -/
theorem delivers_course {s : Solo} (reachable : s.Reachable) (holds : s.archive.store.Holds log)
    (bounded : Bounded log) (up : s.archive.failing .fetch = false) (listening : s.listening = true)
    (p : Position) :
    (s.step (.seek p)).Delivers s.replay.direction (p.course s.replay.direction log) := by
  have start := playing_seek reachable.timed holds up listening p
  have course : (s.step (.seek p)).replay.upcoming log = p.course s.replay.direction log :=
    Replay.upcoming_seek bounded
  exact course ▸ start.delivers

/-- Two events of one time, fetched one by one. -/
theorem delivers_course_twins :
    let twins : List Message := [.current 7 (.test ⟨"a", []⟩), .current 7 (.test ⟨"b", []⟩)]
    let s := start ⟨1, 250, by decide, by decide⟩
      ⟨(Store.memory.appendBatch twins).1, fun _ => false⟩
    let sought := s.step (.seek (.time 7))
    let acts : List Act := [.run, .tick, .pause, .run, .tick]
    sought.Pass .forward twins acts ∧ 0 < sought.ends acts ∧
      (sought.steps acts).heard.countP Notice.isEnd = 1 := by
  intro twins s sought acts
  have empty : Store.memory.Holds [] := .memory
  have holds : s.archive.store.Holds twins := empty.append twins (by decide)
  have steady : ∀ act ∈ acts, act.Steady s.replay.direction := by decide
  have reachable : s.Reachable := ⟨_, _, [], trivial, rfl⟩
  have forwards : s.replay.direction = .forward := by decide
  have course : (Position.time 7).course .forward twins = twins := by
    rw [Position.course, history, inOrder_of_ordered (by decide)]
    decide
  have pass := delivers_course reachable holds (by decide) rfl rfl (.time 7) acts steady
    (by decide)
  rw [forwards, course] at pass
  exact ⟨pass, by decide, by decide⟩

end Pass

end Solo

end EventRelay
