import EventRelay.Proofs.Ahead
import EventRelay.Replay

/-!
# What a replay has yet to deliver

A replay has yet to deliver the events at hand and then those ahead of its cursor. Neither a fetch
nor an arming of the timer changes that, and a timer that goes off takes from the front of it. While
a replay runs its timer is pending under the current epoch, and its clock is at the next event at
hand: so a timer that goes off with events at hand delivers one at least.
-/

namespace EventRelay

open Direction

/-- The events from a position on, in the order of play. Forwards there is nothing after the end. -/
def Position.course (p : Position) (d : Direction) (log : List Message) : List Message :=
  match p, d with
  | .time t, d => (history d log).filter fun m => d.place t ≤ d.place m.timestamp
  | .eof, .forward => []
  | .eof, .reverse => history .reverse log

/-- The place in history that a seek moves to. -/
def Position.cursor : Position → Cursor
  | .time t => ⟨t, true, 0⟩
  | .eof => ⟨Int64.maxValue, false, 0⟩

theorem Position.settled_cursor (p : Position) (log : List Message) : p.cursor.Settled log := by
  cases p <;> exact Nat.zero_le _

theorem Position.sharp_cursor (p : Position) {d : Direction} : p.cursor.Sharp d := by
  cases p <;> exact nofun

theorem Position.ahead_cursor (p : Position) {d : Direction} {log : List Message}
    (bounded : Bounded log) : p.cursor.ahead d (history d log) = p.course d log := by
  rcases p with t | _
  · rw [Cursor.ahead, Cursor.reach_eq bounded]
    rfl
  · have noneAtEnd {m : Message} (hm : m ∈ history d log) :
        m.timestamp.toInt < Int64.maxValue.toInt :=
      Int64.lt_iff_toInt_lt.1 (bounded m (mem_history.1 hm)).2
    have past : ¬(Position.cursor .eof).refetches = true := Bool.false_ne_true
    rw [Cursor.ahead, Cursor.reach_eq bounded, if_neg past]
    rcases d with _ | _
    · refine List.filter_eq_nil_iff.2 fun m hm => ?_
      have := noneAtEnd hm
      simp only [decide_eq_true_eq]
      simp only [cursor, place]
      omega
    · refine List.filter_eq_self.2 fun m hm => ?_
      have := noneAtEnd hm
      simp only [decide_eq_true_eq]
      simp only [cursor, place]
      omega

namespace Replay

/-- The events yet to be delivered. -/
def upcoming (r : Replay) (log : List Message) : List Message :=
  r.buffer ++ r.cursor.ahead r.direction (history r.direction log)

theorem upcoming_congr {r r' : Replay} {log : List Message} (hb : r'.buffer = r.buffer)
    (hc : r'.cursor = r.cursor) (hd : r'.direction = r.direction) :
    r'.upcoming log = r.upcoming log := by
  rw [upcoming, upcoming, hb, hc, hd]

/-- A timer is pending just while the replay runs, under the current epoch. -/
def Timed (r : Replay) : Prop :=
  r.timer.map (·.epoch) = if r.running then some r.epoch else none

/-- While the replay runs the clock is at the next event at hand. -/
def Anchored (r : Replay) : Prop :=
  r.running = true → ∀ m rest, r.buffer = m :: rest → r.clock = some m.timestamp

theorem Timed.epoch_eq {r : Replay} (h : r.Timed) {t : Timer} (ht : r.timer = some t) :
    r.running = true ∧ t.epoch = r.epoch := by
  rw [Timed, ht, Option.map_some] at h
  split_ifs at h with hr
  exact ⟨hr, Option.some.inj h⟩

theorem Timed.exists_timer {r : Replay} (h : r.Timed) (hr : r.running = true) :
    ∃ t, r.timer = some t ∧ t.epoch = r.epoch := by
  rw [Timed, if_pos hr] at h
  exact Option.map_eq_some_iff.1 h

theorem Timed.timer_eq_none {r : Replay} (h : r.Timed) (hr : r.running = false) :
    r.timer = none := by
  rw [Timed, hr] at h
  exact Option.map_eq_none_iff.1 h

/-! ## Timers -/

theorem start_timed : start.Timed := rfl

theorem arm_timed {r : Replay} (hr : r.running = true) (now : Instant) (delay : Nat) :
    (r.arm now delay).Timed := by
  simp [Timed, arm, hr]

theorem rearm_timed {r : Replay} (h : r.Timed) (now : Instant) : (r.rearm now).Timed := by
  unfold rearm
  split_ifs with hr
  · exact arm_timed hr now 0
  · exact h

theorem seek_timed {r : Replay} (h : r.Timed) (now : Instant) (p : Position) :
    (r.seek now p).Timed := by
  rcases p with t | _
  · refine rearm_timed ?_ now
    exact h
  · refine rearm_timed ?_ now
    exact h

theorem setSpeed_timed {r : Replay} (h : r.Timed) (now : Instant) (speed : Binary32) :
    (r.setSpeed now speed).Timed := by
  unfold setSpeed
  split_ifs
  · refine rearm_timed ?_ now
    exact h
  · exact h

theorem pause_timed (r : Replay) : r.pause.Timed := by
  unfold pause
  split_ifs with h
  · rfl
  · simp only [Bool.or_eq_true, not_or, Bool.not_eq_true, Option.isSome_eq_false_iff,
      Option.isNone_iff_eq_none] at h
    simp [Timed, h.1, h.2]

theorem schedule_timed (r : Replay) (now : Instant) : (r.schedule now).1.Timed := by
  unfold schedule scheduleBy
  split
  · rfl
  · exact arm_timed rfl now _

theorem run_timed {r : Replay} (h : r.Timed) (config : ReplayConfig) (archive : Archive)
    (now : Instant) : (r.run config archive now).1.Timed := by
  unfold run
  split_ifs
  · exact h
  · exact schedule_timed _ now

theorem pause_fields (r : Replay) : r.pause.buffer = r.buffer ∧ r.pause.cursor = r.cursor ∧
    r.pause.speed = r.speed := by
  unfold pause
  split_ifs <;> exact ⟨rfl, rfl, rfl⟩

theorem not_running_pause (r : Replay) : r.pause.running = false := by
  unfold pause
  split_ifs with hr
  · rfl
  · simp only [Bool.or_eq_true, not_or] at hr
    simpa using hr.1

theorem timer_pause (r : Replay) : r.pause.timer = none :=
  (pause_timed r).timer_eq_none r.not_running_pause

/-! ## Positions -/

section Position

variable {r : Replay} {now : Instant} {p : Position} {log : List Message}

theorem rearm_fields (r : Replay) (now : Instant) : (r.rearm now).buffer = r.buffer ∧
    (r.rearm now).cursor = r.cursor ∧ (r.rearm now).speed = r.speed ∧
    (r.rearm now).running = r.running ∧ (r.rearm now).clock = r.clock := by
  unfold rearm
  split_ifs <;> exact ⟨rfl, rfl, rfl, rfl, rfl⟩

theorem buffer_seek : (r.seek now p).buffer = [] := by
  rcases p with t | _ <;> exact (rearm_fields _ now).1

theorem speed_seek : (r.seek now p).speed = r.speed := by
  rcases p with t | _ <;> exact (rearm_fields _ now).2.2.1

theorem direction_seek : (r.seek now p).direction = r.direction :=
  congrArg Direction.ofSpeed speed_seek

theorem speed_setSpeed {x : Binary32} : (r.setSpeed now x).speed = x := by
  unfold setSpeed
  split_ifs
  · exact (rearm_fields _ now).2.2.1
  · rfl

/-- A change of pace in the direction of play is no more than that. -/
theorem setSpeed_same {x : Binary32} (same : Direction.ofSpeed x = r.direction) :
    r.setSpeed now x = { r with speed := x } := by
  refine if_neg ?_
  rw [direction, Direction.ofSpeed, Direction.ofSpeed] at same
  rw [bne_iff_ne, not_not]
  split_ifs at same <;> simp_all

/-- A speed to the other side turns the replay around. -/
theorem setSpeed_turned (now : Instant) {x : Binary32}
    (turned : Direction.ofSpeed x ≠ r.direction) :
    (r.setSpeed now x).buffer = [] ∧
    (r.setSpeed now x).cursor =
      ⟨if r.cursor.inclusive then r.cursor.last else r.clock.getD r.cursor.last,
        r.cursor.inclusive, 0⟩ ∧
    (r.setSpeed now x).running = r.running ∧ (r.setSpeed now x).clock = r.clock := by
  have sign : (x.isNegative != r.speed.isNegative) = true := by
    refine bne_iff_ne.2 fun same => turned ?_
    rw [direction, Direction.ofSpeed, Direction.ofSpeed, same]
  rw [setSpeed, if_pos sign]
  obtain ⟨hb, hc, -, hr, ht⟩ := rearm_fields { r with
    speed := x, buffer := []
    cursor := ⟨if r.cursor.inclusive then r.cursor.last else r.clock.getD r.cursor.last,
      r.cursor.inclusive, 0⟩ } now
  exact ⟨hb, hc, hr, ht⟩

theorem running_seek : (r.seek now p).running = r.running := by
  rcases p with t | _ <;> exact (rearm_fields _ now).2.2.2.1

theorem cursor_seek : (r.seek now p).cursor = p.cursor := by
  rcases p with t | _ <;> exact (rearm_fields _ now).2.1

/-- After a seek the events from the position on are yet to be delivered. -/
theorem upcoming_seek (bounded : Bounded log) :
    (r.seek now p).upcoming log = p.course r.direction log := by
  rw [upcoming, buffer_seek, direction_seek, cursor_seek, List.nil_append, p.ahead_cursor bounded]

end Position

/-! ## Play -/

section Play

variable {r : Replay} {log : List Message} {archive : Archive} (config : ReplayConfig)
  (now : Instant)

variable {config} in
theorem fill_of_ne_nil (some : r.buffer ≠ []) : r.fill config archive = r := if_neg some

variable {config} in
theorem fill_of_failing (failing : archive.failing .fetch = true) : r.fill config archive = r := by
  unfold fill
  split_ifs
  · rw [Cursor.fetch, Archive.fetch, if_pos failing]
  · rfl

/-- A fetch puts events at hand if any are ahead. -/
theorem fill_spec (holds : archive.store.Holds log) (up : archive.failing .fetch = false)
    (sharp : r.cursor.Sharp r.direction) (settled : r.cursor.Settled log) : ∃ buffer cursor,
      r.fill config archive = { r with buffer, cursor } ∧
      cursor.Settled log ∧ cursor.Sharp r.direction ∧
      { r with buffer, cursor }.upcoming log = r.upcoming log ∧
      (buffer = [] → r.upcoming log = []) := by
  unfold fill
  split_ifs with hb
  · obtain ⟨taken, cursor, hf, split, settled', sharp', none⟩ :=
      Cursor.fetch_spec holds up sharp settled config.bufferSize_pos
    refine ⟨taken, cursor, by rw [hf], settled', sharp', ?_, fun h => ?_⟩
    · simp only [upcoming, hb, split, List.nil_append]
      rfl
    · rw [upcoming, hb, none h, List.nil_append]
  · exact ⟨r.buffer, r.cursor, rfl, settled, sharp, rfl, fun h => absurd h hb⟩

theorem schedule_spec (r : Replay) : (r.schedule now).1.buffer = r.buffer ∧
    (r.schedule now).1.cursor = r.cursor ∧ (r.schedule now).1.speed = r.speed ∧
    (r.schedule now).1.Anchored ∧ ((r.schedule now).1.running = true ↔ r.buffer ≠ []) ∧
    ((r.schedule now).2 = .exhausted ↔ r.buffer = []) := by
  unfold schedule scheduleBy
  split
  · next hb =>
    exact ⟨rfl, rfl, rfl, fun h => absurd h Bool.false_ne_true, by simp [hb], by simp [hb]⟩
  · next next rest hb =>
    refine ⟨rfl, rfl, rfl, fun _ m rest' h => ?_, by simp [arm, hb], by simp [hb]⟩
    simp only [arm, hb, List.cons.injEq] at h
    simp only [arm, h.1]

omit now in
theorem speed_fill (r : Replay) : (r.fill config archive).speed = r.speed := by
  unfold fill
  split_ifs
  · split <;> rfl
  · rfl

theorem speed_proceed (r : Replay) : (r.proceed config archive now).1.speed = r.speed :=
  (schedule_spec now _).2.2.1.trans (speed_fill config r)

theorem speed_run (r : Replay) : (r.run config archive now).1.speed = r.speed := by
  unfold run
  split_ifs
  · rfl
  · exact speed_proceed config now r

/-- What it comes to that a replay plays on: it runs just if there is something left to deliver. -/
theorem proceed_spec (holds : archive.store.Holds log) (up : archive.failing .fetch = false)
    (sharp : r.cursor.Sharp r.direction) (settled : r.cursor.Settled log) {r' : Replay}
    {outcome : RunOutcome} (hr : r.proceed config archive now = (r', outcome)) :
    r'.cursor.Settled log ∧ r'.cursor.Sharp r.direction ∧ r'.direction = r.direction ∧
      r'.upcoming log = r.upcoming log ∧
      r'.Anchored ∧ r'.Timed ∧ (r'.running = true → r'.buffer ≠ []) ∧
      (outcome = .exhausted ↔ r'.running = false) ∧
      (r'.running = false → r.upcoming log = []) := by
  obtain ⟨buffer, cursor, hfill, settled', sharp', whole, none⟩ :=
    fill_spec config holds up sharp settled
  obtain ⟨hb, hc, hs, anchored, running, exhausted⟩ :=
    schedule_spec now { r with buffer, cursor }
  have timed := schedule_timed { r with buffer, cursor } now
  rw [proceed, hfill] at hr
  rw [hr] at hb hc hs anchored running exhausted timed
  have hd : r'.direction = r.direction := congrArg Direction.ofSpeed hs
  have stopped : r'.running = false ↔ buffer = [] := by
    rw [← Bool.not_eq_true, running, not_ne_iff]
  refine ⟨hc ▸ settled', hc ▸ sharp', hd, ?_, anchored, timed, fun h => hb ▸ running.1 h, ?_, ?_⟩
  · rw [upcoming, hb, hc, hd, ← whole]
    rfl
  · rw [exhausted, stopped]
  · rw [stopped]
    exact none

theorem takeDue_eq (r : Replay) : ∃ due rest, r.buffer = due ++ rest ∧
    r.takeDue config = ({ r with timer := none, buffer := rest }, due) ∧
    (r.Anchored → r.running = true → r.buffer ≠ [] → due ≠ []) := by
  unfold takeDue
  rcases hc : r.clock with _ | clock
  · refine ⟨[], r.buffer, rfl, rfl, fun anchored hr hb => ?_⟩
    obtain ⟨m, rest, hb⟩ := List.exists_cons_of_ne_nil hb
    rw [anchored hr m rest hb] at hc
    cases hc
  · refine ⟨_, _, (List.takeWhile_append_dropWhile (p := isDue config clock)).symm, rfl,
      fun anchored hr hb => ?_⟩
    obtain ⟨m, rest, hb⟩ := List.exists_cons_of_ne_nil hb
    rw [anchored hr m rest hb, Option.some.injEq] at hc
    have due : isDue config clock m = true := by
      simpa [isDue, hc] using config.timeStep_pos
    simp [hb, due]

/-- The timer that goes off is gone; taking what is due neither stops the replay nor supersedes
anything. -/
theorem takeDue_fields (r : Replay) : (r.takeDue config).1.timer = none ∧
    (r.takeDue config).1.epoch = r.epoch ∧ (r.takeDue config).1.running = r.running := by
  obtain ⟨due, rest, -, hdue, -⟩ := takeDue_eq config r
  rw [hdue]
  exact ⟨rfl, rfl, rfl⟩

end Play

end Replay

end EventRelay
