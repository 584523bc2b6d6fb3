import EventRelay.Proofs.Passes

/-!
# One timer counts

A timer that has been superseded or stopped may be on its way all the same, and go off at any later
moment. All timers that have been armed and have not gone off are outstanding here, and any of them
may be the next. Each was armed under an epoch of its own, and the epoch only grows: it is a new one
whenever a timer is armed, and whenever one is stopped. So of the outstanding timers the pending one
alone has the current epoch, and the others do nothing. A replay without a pending timer is paused
until it is run.
-/

namespace EventRelay

namespace Replay

/-- What a transition of a replay does to its timer, given the epoch of the timer that goes off in
it. The pending timer stays; or it is gone, under a new epoch unless it has gone off itself; or
another one is armed under a new epoch. -/
inductive Rearms (off : Option Nat) (r r' : Replay) : Prop
  | keep (timer : r'.timer = r.timer) (epoch : r'.epoch = r.epoch)
    (waits : ∀ t, r.timer = some t → off ≠ some t.epoch)
  | drop (timer : r'.timer = none) (epoch : r.epoch ≤ r'.epoch)
    (gone : ∀ t, r.timer = some t → r.epoch < r'.epoch ∨ off = some t.epoch)
  | arm (t : Timer) (timer : r'.timer = some t) (epoch : t.epoch = r'.epoch)
    (new : r.epoch < r'.epoch)

variable {off : Option Nat} {r r' : Replay}

theorem Rearms.epoch_le (h : r.Rearms off r') : r.epoch ≤ r'.epoch := by
  cases h with
  | keep _ epoch _ => exact epoch.ge
  | drop _ epoch _ => exact epoch
  | arm _ _ _ new => exact new.le

/-- Only the timer and the epoch matter. -/
theorem Rearms.congr {r₀ : Replay} (h : r.Rearms off r') (timer : r.timer = r₀.timer)
    (epoch : r.epoch = r₀.epoch) : r₀.Rearms off r' := by
  cases h with
  | keep timer' epoch' waits =>
    exact .keep (timer'.trans timer) (epoch'.trans epoch) (timer ▸ waits)
  | drop timer' epoch' gone => exact .drop timer' (epoch ▸ epoch') (timer ▸ epoch ▸ gone)
  | arm t timer' epoch' new => exact .arm t timer' epoch' (epoch ▸ new)

theorem rearms_refl (r : Replay) : r.Rearms none r := .keep rfl rfl nofun

theorem rearms_arm (r : Replay) (now : Instant) (delay : Nat) : r.Rearms off (r.arm now delay) :=
  .arm _ rfl rfl (Nat.lt_succ_self _)

theorem rearms_rearm (r : Replay) (now : Instant) : r.Rearms none (r.rearm now) := by
  unfold rearm
  split_ifs
  · exact rearms_arm r now 0
  · exact rearms_refl r

theorem rearms_seek (r : Replay) (now : Instant) (p : Position) : r.Rearms none (r.seek now p) := by
  rcases p with t | _ <;> exact (rearms_rearm _ now).congr rfl rfl

theorem rearms_setSpeed (r : Replay) (now : Instant) (speed : Binary32) :
    r.Rearms none (r.setSpeed now speed) := by
  unfold setSpeed
  split_ifs
  · exact (rearms_rearm _ now).congr rfl rfl
  · exact .keep rfl rfl nofun

theorem running_setSpeed (r : Replay) (now : Instant) (speed : Binary32) :
    (r.setSpeed now speed).running = r.running := by
  unfold setSpeed
  split_ifs
  · exact (rearm_fields _ now).2.2.2.1
  · rfl

theorem rearms_pause (r : Replay) : r.Rearms off r.pause := by
  unfold pause
  split_ifs with busy
  · exact .drop rfl (Nat.le_succ _) fun _ _ => .inl (Nat.lt_succ_self _)
  · exact .keep rfl rfl fun t ht => absurd (by simp [ht]) busy

/-- A replay that plays on has no use for the timer that it had. -/
theorem rearms_proceed (config : ReplayConfig) (archive : Archive) (now : Instant)
    (gone : ∀ t, r.timer = some t → off = some t.epoch) :
    r.Rearms off (r.proceed config archive now).1 := by
  have filled : (r.fill config archive).timer = r.timer ∧
      (r.fill config archive).epoch = r.epoch := by
    unfold fill
    split_ifs
    · split <;> exact ⟨rfl, rfl⟩
    · exact ⟨rfl, rfl⟩
  refine Rearms.congr ?_ filled.1 filled.2
  rw [proceed, schedule, scheduleBy]
  split
  · exact .drop rfl (Nat.le_refl _) fun t ht => .inr (gone t (filled.1 ▸ ht))
  · exact (rearms_arm _ now _).congr rfl rfl

theorem rearms_run (timed : r.Timed) (config : ReplayConfig) (archive : Archive) (now : Instant) :
    r.Rearms none (r.run config archive now).1 := by
  unfold run
  split_ifs with busy
  · exact rearms_refl r
  · refine rearms_proceed config archive now fun t ht => absurd ?_ busy
    simp [(timed.epoch_eq ht).1, ht]

/-- A timer that goes off is taken off the replay before anything else. -/
theorem Rearms.taken (config : ReplayConfig) (gone : ∀ t, r.timer = some t → off = some t.epoch)
    (h : (r.takeDue config).1.Rearms off r') : r.Rearms off r' := by
  obtain ⟨unarmed, same, -⟩ := takeDue_fields config r
  cases h with
  | keep timer epoch _ =>
    exact .drop (timer.trans unarmed) (epoch.trans same).ge fun t ht => .inr (gone t ht)
  | drop timer epoch _ => exact .drop timer (same ▸ epoch) fun t ht => .inr (gone t ht)
  | arm t timer epoch new => exact .arm t timer epoch (same ▸ new)

end Replay

namespace Solo

variable {s : Solo}

theorem rearms_fire (timed : s.replay.Timed) (epoch : Nat) :
    s.replay.Rearms (some epoch) (s.fire epoch).replay := by
  have unarmed : ∀ t, (s.replay.takeDue s.config).1.timer ≠ some t := by
    simp [(Replay.takeDue_fields s.config s.replay).1]
  rcases fire_cases s epoch with ⟨he, hs⟩ | ⟨he, hs⟩
  · rw [hs]
    refine .keep rfl rfl fun t ht same => he ?_
    rw [← (timed.epoch_eq ht).2, Option.some.inj same]
  · refine Replay.Rearms.taken s.config
      (fun t ht => congrArg some (he.trans (timed.epoch_eq ht).2.symm)) ?_
    rcases hs with hs | hs | ⟨-, hs⟩ <;> rw [hs]
    · exact Replay.rearms_pause _
    · exact Replay.rearms_proceed s.config s.archive s.now fun t ht => absurd ht (unarmed t)
    · exact .keep rfl rfl fun t ht => absurd ht (unarmed t)

/-- The epoch of the timer that goes off in an act. -/
def goesOff (s : Solo) : Act → Option Nat
  | .tick => s.replay.timer.map (·.epoch)
  | .late epoch => some epoch
  | _ => none

theorem rearms_step (timed : s.replay.Timed) (act : Act) :
    s.replay.Rearms (s.goesOff act) (s.step act).replay := by
  cases act with
  | seek p => exact Replay.rearms_seek s.replay s.now p
  | speed x =>
    rw [step]
    split_ifs
    · exact Replay.rearms_setSpeed s.replay s.now x
    · exact Replay.rearms_refl s.replay
  | run => exact Replay.rearms_run timed s.config s.archive s.now
  | pause => exact Replay.rearms_pause s.replay
  | tick =>
    rw [step, goesOff]
    rcases ht : s.replay.timer with _ | t
    · exact Replay.rearms_refl s.replay
    · exact rearms_fire timed t.epoch
  | late epoch => exact rearms_fire timed epoch
  | wait | append | fail | leave => exact Replay.rearms_refl s.replay

/-! ## Outstanding timers -/

/-- A replay on its own, with the epochs of all timers that have been armed and have not gone off,
whatever has become of them since. -/
structure Ticking where
  solo : Solo
  outstanding : List Nat

namespace Ticking

def start (config : ReplayConfig) (archive : Archive) : Ticking := ⟨.start config archive, []⟩

/-- Any outstanding timer may go off. -/
def Allows (k : Ticking) : Act → Prop
  | .tick => k.solo.replay.timer.isSome = true
  | .late epoch => epoch ∈ k.outstanding
  | _ => True

instance (k : Ticking) : DecidablePred k.Allows
  | .tick => inferInstanceAs (Decidable (_ = true))
  | .late epoch => inferInstanceAs (Decidable (epoch ∈ k.outstanding))
  | .seek _ | .speed _ | .run | .pause | .wait _ | .append _ | .fail .. | .leave =>
    inferInstanceAs (Decidable True)

/-- The epoch of the timer that an act arms. -/
def armed (s : Solo) (act : Act) : Option Nat :=
  let left := s.replay.timer.filter fun t => s.goesOff act ≠ some t.epoch
  let pending := (s.step act).replay.timer
  if pending = left then none else pending.map (·.epoch)

/-- The timers that have not gone off with an act. -/
def remaining (k : Ticking) (act : Act) : List Nat :=
  (k.solo.goesOff act).elim k.outstanding k.outstanding.erase

def step (k : Ticking) (act : Act) : Ticking where
  solo := k.solo.step act
  outstanding := (armed k.solo act).toList ++ k.remaining act

def steps (k : Ticking) (acts : List Act) : Ticking := acts.foldl step k

/-- Every act is possible when its turn comes. -/
def Allowed : Ticking → List Act → Prop
  | _, [] => True
  | k, act :: acts => k.Allows act ∧ (k.step act).Allowed acts

instance : ∀ (k : Ticking) (acts : List Act), Decidable (k.Allowed acts)
  | _, [] => inferInstanceAs (Decidable True)
  | k, act :: acts =>
    have : Decidable ((k.step act).Allowed acts) := instDecidableAllowed _ acts
    inferInstanceAs (Decidable (k.Allows act ∧ (k.step act).Allowed acts))

/-- The pending timer is outstanding, once like any other, and the others are of earlier epochs. -/
structure Sound (k : Ticking) : Prop where
  timed : k.solo.replay.Timed
  nodup : k.outstanding.Nodup
  pending : ∀ t, k.solo.replay.timer = some t → t.epoch ∈ k.outstanding
  stale : ∀ e ∈ k.outstanding,
    (∃ t, k.solo.replay.timer = some t ∧ t.epoch = e) ∨ e < k.solo.replay.epoch

variable {k : Ticking}

theorem sound_start (config : ReplayConfig) (archive : Archive) : (start config archive).Sound where
  timed := Replay.start_timed
  nodup := .nil
  pending := nofun
  stale := nofun

theorem Sound.le_epoch (h : k.Sound) {e : Nat} (he : e ∈ k.outstanding) :
    e ≤ k.solo.replay.epoch := by
  rcases h.stale e he with ⟨t, ht, rfl⟩ | lt
  · exact (h.timed.epoch_eq ht).2.le
  · exact lt.le

theorem Sound.nodup_remaining (h : k.Sound) (act : Act) : (k.remaining act).Nodup := by
  unfold remaining
  rcases k.solo.goesOff act with _ | e
  · exact h.nodup
  · exact h.nodup.erase e

theorem Sound.mem_remaining (h : k.Sound) {act : Act} {e : Nat} :
    e ∈ k.remaining act ↔ e ∈ k.outstanding ∧ k.solo.goesOff act ≠ some e := by
  unfold remaining
  rcases k.solo.goesOff act with _ | e'
  · simp
  · simp [h.nodup.mem_erase_iff, and_comm, eq_comm]

theorem sound_step (h : k.Sound) (act : Act) : (k.step act).Sound := by
  have timed := timed_step h.timed act
  have nodup := h.nodup_remaining act
  cases rearms_step h.timed act with
  | keep timer epoch waits =>
    have unarmed : armed k.solo act = none := by
      rw [armed, timer, if_pos]
      rcases ht : k.solo.replay.timer with _ | t
      · rfl
      · rw [Option.filter_some, if_pos (decide_eq_true (waits t ht))]
    refine { timed, nodup := by simpa [step, unarmed], pending := fun t ht => ?_,
             stale := fun e he => ?_ }
    · rw [step, timer] at ht
      simpa [step, unarmed, h.mem_remaining] using ⟨h.pending t ht, waits t ht⟩
    · have he : e ∈ k.outstanding := by
        simp only [step, unarmed, Option.toList_none, List.nil_append, h.mem_remaining] at he
        exact he.1
      rw [step, timer, epoch]
      exact h.stale e he
  | drop timer epoch gone =>
    have unarmed : armed k.solo act = none := by simp [armed, timer]
    refine { timed, nodup := by simpa [step, unarmed], pending := fun t ht => ?_,
             stale := fun e he => .inr ?_ }
    · rw [step, timer] at ht
      cases ht
    · simp only [step, unarmed, Option.toList_none, List.nil_append, h.mem_remaining] at he
      obtain ⟨he, waits⟩ := he
      rcases h.stale e he with ⟨t, ht, rfl⟩ | lt
      · rw [(h.timed.epoch_eq ht).2]
        exact (gone t ht).resolve_right waits
      · exact lt.trans_le epoch
  | arm t timer epoch new =>
    -- no timer has had the new epoch before
    have fresh {e : Nat} (he : e ∈ k.remaining act) : e < t.epoch :=
      (h.le_epoch (h.mem_remaining.1 he).1).trans_lt (epoch ▸ new)
    have armed : armed k.solo act = some t.epoch := by
      rw [armed, timer, if_neg fun left => ?_, Option.map_some]
      have := (h.timed.epoch_eq (Option.filter_eq_some_iff.1 left.symm).1).2
      omega
    refine { timed, nodup := ?_, pending := fun t' ht => ?_, stale := fun e he => ?_ }
    · simp only [step, armed, Option.toList_some, List.singleton_append, List.nodup_cons]
      exact ⟨fun he => absurd (fresh he) (Nat.lt_irrefl _), nodup⟩
    · rw [step, timer] at ht
      obtain rfl := Option.some.inj ht
      simp [step, armed]
    · simp only [step, armed, Option.toList_some, List.singleton_append, List.mem_cons] at he
      rcases he with rfl | he
      · exact .inl ⟨t, timer, rfl⟩
      · exact .inr ((fresh he).trans_eq epoch)

theorem sound_steps (h : k.Sound) (acts : List Act) : (k.steps acts).Sound := by
  induction acts generalizing k with
  | nil => exact h
  | cons act acts ih => exact ih (sound_step h act)

theorem epoch_le_steps (h : k.Sound) (acts : List Act) :
    k.solo.replay.epoch ≤ (k.steps acts).solo.replay.epoch := by
  induction acts generalizing k with
  | nil => exact Nat.le_refl _
  | cons act acts ih =>
    exact (rearms_step h.timed act).epoch_le.trans (ih (sound_step h act))

theorem Sound.lt_epoch (h : k.Sound) {e : Nat} (he : e ∈ k.outstanding)
    (other : k.solo.replay.timer.map (·.epoch) ≠ some e) : e < k.solo.replay.epoch := by
  rcases h.stale e he with ⟨t, ht, rfl⟩ | lt
  · exact absurd (congrArg (Option.map _) ht) other
  · exact lt

theorem step_late_of_lt {s : Solo} {e : Nat} (lt : e < s.replay.epoch) : s.step (.late e) = s :=
  fire_of_ne lt.ne

/-- What is possible on a paused replay, a request to run apart, leaves it paused, and the listener
is told nothing. -/
theorem Sound.step_paused (h : k.Sound) (paused : k.solo.replay.running = false) {act : Act}
    (allowed : k.Allows act) (waits : act ≠ .run) :
    (k.step act).solo.replay.running = false ∧ (k.step act).solo.heard = k.solo.heard := by
  have none := h.timed.timer_eq_none paused
  cases act with
  | run => exact absurd rfl waits
  | tick =>
    rw [Allows, none] at allowed
    cases allowed
  | late e =>
    have same : k.solo.step (.late e) = k.solo :=
      step_late_of_lt (h.lt_epoch allowed (by simp [none]))
    rw [step, same]
    exact ⟨paused, rfl⟩
  | seek p => exact ⟨Replay.running_seek.trans paused, rfl⟩
  | speed x =>
    simp only [step, Solo.step]
    split_ifs
    · exact ⟨(Replay.running_setSpeed _ _ x).trans paused, rfl⟩
    · exact ⟨paused, rfl⟩
  | pause => exact ⟨Replay.not_running_pause _, rfl⟩
  | wait | append | fail | leave => exact ⟨paused, rfl⟩

theorem Sound.steps_paused : ∀ {acts : List Act} {k : Ticking}, k.Sound →
    k.solo.replay.running = false → k.Allowed acts → .run ∉ acts →
      (k.steps acts).solo.replay.running = false ∧ (k.steps acts).solo.heard = k.solo.heard
  | [], _, _, paused, _, _ => ⟨paused, rfl⟩
  | act :: acts, k, h, paused, allowed, waits => by
    obtain ⟨paused', heard⟩ := h.step_paused paused allowed.1 fun he => waits (by simp [he])
    obtain ⟨final, rest⟩ := Sound.steps_paused (sound_step h act) paused' allowed.2
      fun he => waits (by simp [he])
    exact ⟨final, rest.trans heard⟩

theorem step_pause_of_paused (paused : k.solo.replay.running = false)
    (none : k.solo.replay.timer = none) : k.step .pause = k := by
  simp [step, Solo.step, Replay.pause, remaining, goesOff, armed, paused, none]

/-- Whatever a replay is told, and whichever outstanding timers go off in whatever order: it runs
just while a timer of the current epoch is pending. That timer is outstanding once, and every other
one is of an earlier epoch and does nothing. The epoch never decreases. A pause leaves no timer that
does anything, and a second pause does nothing. A paused replay tells its listener nothing until it
is run. -/
theorem one_counts (config : ReplayConfig) (archive : Archive) (acts : List Act) :
    let k := (start config archive).steps acts
    let r := k.solo.replay
    let p := k.step .pause
    (r.running = true ↔ ∃ t, r.timer = some t ∧ t.epoch = r.epoch) ∧
    (∀ t, r.timer = some t → t.epoch = r.epoch ∧ k.outstanding.count t.epoch = 1) ∧
    (∀ e ∈ k.outstanding, r.timer.map (·.epoch) ≠ some e →
      e < r.epoch ∧ k.solo.step (.late e) = k.solo) ∧
    (∀ more, r.epoch ≤ (k.steps more).solo.replay.epoch) ∧
    (p.solo.replay.running = false ∧ p.solo.replay.timer = none ∧
      (∀ e ∈ p.outstanding, e < p.solo.replay.epoch) ∧ p.step .pause = p) ∧
    (r.running = false → ∀ more, k.Allowed more → .run ∉ more →
      (k.steps more).solo.replay.running = false ∧ (k.steps more).solo.heard = k.solo.heard) := by
  intro k r p
  have h : k.Sound := sound_steps (sound_start config archive) acts
  have hp : p.Sound := sound_step h .pause
  have paused : p.solo.replay.running = false := Replay.not_running_pause _
  have none := hp.timed.timer_eq_none paused
  refine ⟨⟨h.timed.exists_timer, fun ⟨t, ht, _⟩ => (h.timed.epoch_eq ht).1⟩,
    fun t ht => ⟨(h.timed.epoch_eq ht).2, ?_⟩, fun e he other => ?_, epoch_le_steps h,
    ⟨paused, none, fun e he => hp.lt_epoch he (by simp [none]), step_pause_of_paused paused none⟩,
    fun paused more allowed waits => h.steps_paused paused allowed waits⟩
  · exact List.count_eq_one_of_mem h.nodup (h.pending t ht)
  · have lt := h.lt_epoch he other
    exact ⟨lt, step_late_of_lt lt⟩

/-- Two events. Each act that moves a running replay leaves a timer behind; two of those go off, the
older one last, then the pending one, and the replay is paused with three timers left. -/
theorem one_counts_three_stale :
    let event (t : Int64) : Message := .current t (.test ⟨"a", []⟩)
    let k := (start ⟨10, 1, by decide, by decide⟩
      ⟨(Store.memory.appendBatch [event 100, event 200]).1, fun _ => false⟩).steps
      [.run, .seek (.time 50), .seek (.time 100), .speed ⟨0xbf800000⟩, .speed .one, .late 4,
       .late 2, .tick, .pause]
    k.outstanding = [6, 3, 1] ∧ k.solo.replay.epoch = 7 ∧
      k.solo.step (.late 3) = k.solo ∧
      (k.steps [.late 6, .seek .eof, .late 1, .speed .one]).solo.heard = k.solo.heard := by
  intro event k
  obtain ⟨-, -, stale, -, -, paused⟩ := one_counts ⟨10, 1, by decide, by decide⟩
    ⟨(Store.memory.appendBatch [event 100, event 200]).1, fun _ => false⟩
    [.run, .seek (.time 50), .seek (.time 100), .speed ⟨0xbf800000⟩, .speed .one, .late 4,
     .late 2, .tick, .pause]
  exact ⟨by decide, by decide, (stale 3 (by decide) (by decide)).2,
    (paused (by decide) _ (by decide) (by decide)).2⟩

end Ticking

end Solo

end EventRelay
