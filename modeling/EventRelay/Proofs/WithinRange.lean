import EventRelay.Proofs.Punctual
import EventRelay.Replay.Overflow

/-!
# Gaps within 64 bits

A gap that has the direction of play and is too large for 64 bits goes from one side of zero to the
other: forwards from a clock below zero, or backwards to an event below it. No replay gets below
zero by playing forwards from where it can be sent. So it takes a pass backwards, and an event far
below zero; after that a gap of either direction may overflow.

Up to then nothing tells checked arithmetic from exact arithmetic. What overflows comes out against
the direction of play, so that unchecked arithmetic would have the longest waits left out.
-/

namespace EventRelay

open Direction

namespace Replay

variable {r : Replay} {log : List Message} {config : ReplayConfig} {archive : Archive}

/-- A gap wraps around at most once. -/
theorem wrappedGap_cases (r : Replay) (next : Message) :
    (r.wrappedGap next).toInt = r.gap next ∧ -2 ^ 63 ≤ r.gap next ∧ r.gap next < 2 ^ 63 ∨
    (r.wrappedGap next).toInt = r.gap next + 2 ^ 64 ∧ r.gap next < -2 ^ 63 ∨
    (r.wrappedGap next).toInt = r.gap next - 2 ^ 64 ∧ 2 ^ 63 ≤ r.gap next := by
  have wrapped : (r.wrappedGap next).toInt = (r.gap next).bmod (2 ^ 64) := Int64.toInt_sub ..
  have upper := next.timestamp.toInt_lt
  have lower := next.timestamp.le_toInt
  have clockUpper := (r.clock.getD next.timestamp).toInt_lt
  have clockLower := (r.clock.getD next.timestamp).le_toInt
  rw [wrapped, Int.bmod_def]
  unfold gap
  omega

/-- A gap overflows just if it is no 64-bit number. -/
theorem overflows_iff : r.Overflows config archive ↔
    ∃ next ∈ r.upNext config archive, r.gap next < -2 ^ 63 ∨ 2 ^ 63 ≤ r.gap next := by
  refine exists_congr fun next => and_congr_right fun _ => ?_
  have := r.wrappedGap_cases next
  omega

/-- The gap to an event is no 64-bit number. It goes from one side of zero to the other, in the
direction of play, and wrapped around it would not be waited for. -/
structure Distant (r : Replay) (c : Int64) (next : Message) : Prop where
  clock : r.clock = some c
  sides : r.direction = .forward ∧ c.toInt < 0 ∧ 0 ≤ next.timestamp.toInt ∧ 2 ^ 63 ≤ r.gap next ∨
    r.direction = .reverse ∧ next.timestamp.toInt < 0 ∧ 0 ≤ c.toInt ∧ r.gap next < -2 ^ 63
  unwaited : Pace.delayMillis (r.wrappedGap next).toInt r.speed = 0

theorem Poised.distant (h : r.Poised log) (holds : archive.store.Holds log) (abreast : r.Abreast)
    (accepted : acceptsSpeed r.speed = true) {next : Message}
    (upNext : next ∈ r.upNext config archive)
    (overflow : r.gap next < -2 ^ 63 ∨ 2 ^ 63 ≤ r.gap next) :
    next ∈ log ∧ ∃ c, r.Distant c next := by
  have front : next ∈ (r.fill config archive).buffer := List.mem_of_mem_head? upNext
  refine ⟨(h.toStocked.fill config holds).1.stored next front, ?_⟩
  rcases clock : r.clock with _ | c
  · -- the clock will be set to the event
    have none : r.gap next = 0 := by rw [gap, clock, Option.getD_none, Int.sub_self]
    omega
  · have ahead := h.front_fill holds abreast front clock
    have gap : r.gap next = next.timestamp.toInt - c.toInt := by rw [gap, clock, Option.getD_some]
    have upper := next.timestamp.toInt_lt
    have lower := next.timestamp.le_toInt
    have clockUpper := c.toInt_lt
    have clockLower := c.le_toInt
    have wrapped := r.wrappedGap_cases next
    rcases hd : r.direction with _ | _ <;> simp only [hd, place] at ahead
    · refine ⟨c, clock, .inl ⟨hd, by omega, by omega, by omega⟩,
        Pace.delayMillis_eq_zero accepted ?_⟩
      simp only [isNegative_of_forward hd, iff_true]
      omega
    · refine ⟨c, clock, .inr ⟨hd, by omega, by omega, by omega⟩,
        Pace.delayMillis_eq_zero accepted ?_⟩
      simp only [isNegative_of_reverse hd, Bool.true_eq_false, iff_false]
      omega

/-- A replay that plays forwards and is nowhere below zero. -/
structure Onward (r : Replay) : Prop where
  direction : r.direction = .forward
  cursor : 0 ≤ r.cursor.last.toInt
  clock : ∀ c, r.clock = some c → 0 ≤ c.toInt

theorem Onward.congr {r' : Replay} (h : r.Onward) (hd : r'.direction = r.direction)
    (hc : r'.cursor = r.cursor) (ht : r'.clock = r.clock) : r'.Onward :=
  ⟨hd.trans h.direction, hc ▸ h.cursor, ht ▸ h.clock⟩

/-- A replay is above zero that has just been sent there. -/
theorem Fresh.onward {p : Position} (fresh : r.Fresh p) (forward : r.direction = .forward)
    (position : ∀ t, p = .time t → 0 ≤ t.toInt) : r.Onward := by
  refine ⟨forward, ?_, fun c clock => ?_⟩
  · rw [fresh.cursor]
    rcases p with t | _
    · exact position t rfl
    · exact (by decide : 0 ≤ Int64.maxValue.toInt)
  · obtain ⟨rfl, pos⟩ := Position.clock_eq_some.1 (fresh.clock.symm.trans clock)
    exact Int.le_of_lt (Int64.lt_iff_toInt_lt.1 pos)

/-- Whatever it finds is not below zero either. -/
theorem Onward.fill (onward : r.Onward) (h : r.Poised log) (holds : archive.store.Holds log)
    {m : Message} (hm : m ∈ (r.fill config archive).buffer) : 0 ≤ m.timestamp.toInt := by
  by_cases empty : r.buffer = []
  · have beyond := h.fetched holds empty hm
    rw [onward.direction] at beyond
    exact onward.cursor.trans beyond
  · rw [fill_of_ne_nil empty] at hm
    obtain ⟨c, clock, le⟩ := h.front m hm
    rw [onward.direction] at le
    exact (onward.clock c clock).trans le

theorem Onward.proceed (onward : r.Onward) (h : r.Poised log) (holds : archive.store.Holds log)
    (now : Instant) : (r.proceed config archive now).1.Onward := by
  have found {m : Message} (hm : m ∈ (r.fill config archive).buffer) := onward.fill h holds hm
  obtain ⟨-, -, kept⟩ := h.toStocked.fill config holds
  refine ⟨?_, ?_, fun c clock => ?_⟩
  · exact (congrArg Direction.ofSpeed (speed_proceed config now r)).trans onward.direction
  · rw [Replay.proceed, (schedule_spec now _).2.1]
    rcases fill_cases r config archive with same | ⟨taken, m, last, filled⟩
    · rw [same]
      exact onward.cursor
    · rw [filled, Cursor.last_advance last]
      refine found ?_
      rw [filled]
      exact List.mem_of_getLast? last
  · rw [Replay.proceed, clock_schedule, kept] at clock
    rcases hb : (r.fill config archive).buffer with _ | ⟨m, rest⟩ <;> rw [hb] at clock
    · exact onward.clock c clock
    · cases clock
      exact found (by simp [hb])

theorem clock_setSpeed (r : Replay) (now : Instant) (x : Binary32) :
    (r.setSpeed now x).clock = r.clock := by
  by_cases same : Direction.ofSpeed x = r.direction
  · rw [setSpeed_same same]
  · exact (setSpeed_turned now same).2.2.2

/-- A clock that is set is at a stored event, or still where the replay was sent. -/
def Dated (r : Replay) (log : List Message) (p : Position) : Prop :=
  ∀ c, r.clock = some c → p.clock = some c ∨ ∃ m ∈ log, m.timestamp = c

theorem Dated.congr {r' : Replay} {p : Position} (h : r.Dated log p) (ht : r'.clock = r.clock) :
    r'.Dated log p := fun c clock => h c (ht ▸ clock)

theorem leading_dated (config : ReplayConfig) (holds : archive.store.Holds log) (p : Position) :
    Leading config archive (fun r => r.Poised log ∧ r.Dated log p)
      fun r => r.Poised log ∧ r.Dated log p where
  weaken _ := id
  setSpeed r h now x accepted :=
    ⟨(permanent_poised config holds).setSpeed r h.1 now x accepted,
      h.2.congr (r.clock_setSpeed now x)⟩
  pause r h := ⟨(permanent_poised config holds).pause r h.1, h.2.congr r.clock_pause⟩
  takeDue r h := by
    refine ⟨(permanent_poised config holds).takeDue r h.1, h.2.congr ?_⟩
    obtain ⟨due, rest, -, hdue, -⟩ := takeDue_eq config r
    rw [hdue]
  proceed r h now := by
    refine ⟨(permanent_poised config holds).proceed r h.1 now, fun c clock => ?_⟩
    obtain ⟨stocked, -, kept⟩ := h.1.toStocked.fill config holds
    rw [proceed, clock_schedule, kept] at clock
    rcases hb : (r.fill config archive).buffer with _ | ⟨m, rest⟩ <;> rw [hb] at clock
    · exact h.2 c clock
    · exact .inr ⟨m, stocked.stored m (by simp [hb]), Option.some.inj clock⟩

end Replay

namespace Solo

/-! ## Acts in 64 bits -/

section Checked

variable {s : Solo} {act : Act} {r : Replay}

/-- The replay that plays on with an act, if it does. -/
def goesOn (s : Solo) : Act → Option Replay
  | .run => s.resumed
  | .tick => s.replay.timer.bind fun timer => s.continued timer.epoch
  | .late epoch => s.continued epoch
  | _ => none

/-- It plays on over a gap that overflows. -/
def Overflows (s : Solo) (act : Act) : Prop :=
  ∃ r ∈ s.goesOn act, r.Overflows s.config s.archive

instance (s : Solo) (act : Act) : Decidable (s.Overflows act) :=
  inferInstanceAs (Decidable (∃ r ∈ s.goesOn act, _))

/-- No gap overflows in a run. -/
def Within : Solo → List Act → Prop
  | _, [] => True
  | s, act :: acts => ¬s.Overflows act ∧ (s.step act).Within acts

/-- A step in which a replay is asked to run, and its timers go off, like this. -/
def stepBy (run : Solo → Solo) (fire : Solo → Nat → Solo) (s : Solo) : Act → Solo
  | .run => run s
  | .tick =>
    match s.replay.timer with
    | none => s
    | some timer => fire s timer.epoch
  | .late epoch => fire s epoch
  | act => s.step act

def stepChecked : Solo → Act → Solo := stepBy (·.runChecked.1) fireChecked

def stepsChecked (s : Solo) (acts : List Act) : Solo := acts.foldl stepChecked s

theorem continued_eq_some {epoch : Nat} (h : s.continued epoch = some r) :
    r = (s.replay.takeDue s.config).1 := by
  unfold continued at h
  dsimp only at h
  split_ifs at h
  exact (Option.some.inj h).symm

theorem resumed_eq_some (h : s.resumed = some r) : r = s.replay ∧
    (s.replay.running && s.replay.timer.isSome) = false := by
  unfold resumed at h
  split_ifs at h with pending
  exact ⟨(Option.some.inj h).symm, Bool.eq_false_of_not_eq_true pending⟩

/-- What plays on has no timer armed. -/
theorem goesOn_origin (timed : s.replay.Timed) (h : s.goesOn act = some r) :
    (r = s.replay ∨ r = (s.replay.takeDue s.config).1) ∧ r.timer = none := by
  have taken {epoch : Nat} (h : s.continued epoch = some r) :
      (r = s.replay ∨ r = (s.replay.takeDue s.config).1) ∧ r.timer = none := by
    obtain rfl := continued_eq_some h
    exact ⟨.inr rfl, (Replay.takeDue_fields s.config s.replay).1⟩
  cases act with
  | run =>
    obtain ⟨rfl, idle⟩ := resumed_eq_some h
    refine ⟨.inl rfl, ?_⟩
    rcases ht : s.replay.timer with _ | timer
    · rfl
    · simp [ht, (timed.epoch_eq ht).1] at idle
  | tick =>
    obtain ⟨timer, -, h⟩ := Option.bind_eq_some_iff.1 h
    exact taken h
  | late epoch => exact taken h
  | seek | speed | pause | wait | append | fail | leave => cases h

theorem stepChecked_eq (within : ¬s.Overflows act) : s.stepChecked act = s.step act := by
  cases act with
  | run =>
    have ran : s.runChecked = s.run.map id some := if_neg within
    rw [stepChecked, stepBy, ran]
    rfl
  | tick =>
    rcases ht : s.replay.timer with _ | timer
    · simp only [stepChecked, stepBy, step, ht]
    · rw [Overflows, goesOn, ht] at within
      have fired : s.fireChecked timer.epoch = s.fire timer.epoch := if_neg within
      simp only [stepChecked, stepBy, step, ht, fired]
  | late epoch => exact if_neg within
  | seek | speed | pause | wait | append | fail | leave => rfl

/-- Where a gap overflows, the replay is left as its fetch has left it. -/
theorem replay_stepChecked (plays : s.goesOn act = some r)
    (overflows : r.Overflows s.config s.archive) :
    (s.stepChecked act).replay = r.fill s.config s.archive := by
  have fired {epoch : Nat} (h : s.continued epoch = some r) :
      (s.fireChecked epoch).replay = r.fill s.config s.archive := by
    rw [fireChecked, if_pos ⟨r, h, overflows⟩, continued_eq_some h]
    dsimp only
    split_ifs <;> rfl
  cases act with
  | run =>
    rw [stepChecked, stepBy, runChecked, if_pos ⟨r, plays, overflows⟩, (resumed_eq_some plays).1]
  | tick =>
    obtain ⟨timer, ht, h⟩ := Option.bind_eq_some_iff.1 plays
    rw [stepChecked, stepBy, ht]
    exact fired h
  | late epoch => exact fired plays
  | seek | speed | pause | wait | append | fail | leave => cases plays

theorem stepsChecked_eq : ∀ (acts : List Act) {s : Solo}, s.Within acts →
    s.stepsChecked acts = s.steps acts
  | [], _, _ => rfl
  | act :: acts, s, within => by
    have first : s.stepChecked act = s.step act := stepChecked_eq within.1
    rw [stepsChecked, List.foldl_cons, first]
    exact stepsChecked_eq acts within.2

/-- Of the gaps that overflow in a run one is the first. -/
theorem within_or_first : ∀ (acts : List Act) (s : Solo), s.Within acts ∨
    ∃ done act rest, acts = done ++ act :: rest ∧ s.Within done ∧ (s.steps done).Overflows act
  | [], _ => .inl trivial
  | act :: acts, s => by
    by_cases overflows : s.Overflows act
    · exact .inr ⟨[], act, acts, rfl, trivial, overflows⟩
    · rcases within_or_first acts (s.step act) with within | ⟨done, last, rest, rfl, within, h⟩
      · exact .inl ⟨overflows, within⟩
      · exact .inr ⟨act :: done, last, rest, rfl, ⟨overflows, within⟩, h⟩

end Checked

/-! ## Where the clock can be -/

section Runs

variable {s : Solo}

/-- The replay has faced backwards at some time since the last seek. -/
def HasReversed (s : Solo) (acts : List Act) : Prop :=
  ∃ done rest, acts = done ++ rest ∧ (∀ p, .seek p ∉ rest) ∧
    (s.steps done).replay.direction = .reverse

theorem forward_of_not_hasReversed {acts : List Act} (ahead : ¬s.HasReversed acts) :
    (s.steps acts).replay.direction = .forward := by
  rcases hd : (s.steps acts).replay.direction with _ | _
  · rfl
  · exact absurd ⟨acts, [], (List.append_nil _).symm, nofun, hd⟩ ahead

theorem HasReversed.concat {acts : List Act} {act : Act} (h : s.HasReversed acts)
    (stays : ∀ p, act ≠ .seek p) : s.HasReversed (acts ++ [act]) := by
  obtain ⟨done, rest, rfl, unsought, reverse⟩ := h
  exact ⟨done, rest ++ [act], List.append_assoc .., unsought_concat unsought stays, reverse⟩

/-- A replay that goes on forwards stays above zero. -/
theorem onward_step (logged : s.Logged) (onward : s.replay.Onward) {act : Act}
    (stays : ∀ p, act ≠ .seek p) (forward : (s.step act).replay.direction = .forward) :
    (s.step act).replay.Onward := by
  rcases step_cases s act with ⟨p, rfl⟩ | ⟨x, rfl⟩ | ⟨r, origin, hs⟩
  · exact absurd rfl (stays p)
  · rw [step] at forward ⊢
    split_ifs at forward ⊢
    · have same : Direction.ofSpeed x = s.replay.direction := by
        rw [Replay.direction, Replay.speed_setSpeed] at forward
        exact forward.trans onward.direction.symm
      rw [Replay.setSpeed_same same]
      exact onward.congr same rfl rfl
    · exact onward
  · have kept : r.Poised s.archive.store.events ∧ r.Onward := by
      rcases origin with rfl | rfl
      · exact ⟨logged.poised, onward⟩
      · refine ⟨(Replay.permanent_poised s.config logged.holds).takeDue _ logged.poised, ?_⟩
        obtain ⟨due, rest, -, hdue, -⟩ := Replay.takeDue_eq s.config s.replay
        rw [hdue]
        exact onward.congr rfl rfl rfl
    rcases hs with hs | hs | hs <;> rw [hs]
    · exact kept.2
    · obtain ⟨-, hc, hx⟩ := r.pause_fields
      exact kept.2.congr (congrArg Direction.ofSpeed hx) hc r.clock_pause
    · exact kept.2.proceed kept.1 logged.holds s.now

end Runs

section Start

variable {store : Store} {log : List Message} (holds : store.Holds log)
  (failing : Request → Bool) (config : ReplayConfig) (acts : List Act)

include holds

/-- Sent to no position below zero, a replay that has not faced backwards since is above it. -/
theorem onward_steps (positions : ∀ t, .seek (.time t) ∈ acts → 0 ≤ t.toInt)
    (room : ((start config ⟨store, failing⟩).steps acts).archive.store.count ≤
      TableStore.maxLimit)
    (ahead : ¬(start config ⟨store, failing⟩).HasReversed acts) :
    ((start config ⟨store, failing⟩).steps acts).replay.Onward := by
  induction acts using List.reverseRecOn with
  | nil =>
    refine Replay.fresh_start.onward (by decide) fun t ht => ?_
    cases ht
    decide
  | append_singleton acts act ih =>
    have forward := forward_of_not_hasReversed ahead
    have room' := room_of_append (s := start config ⟨store, failing⟩) holds.events_eq.1 acts room
    rw [steps_append] at forward ⊢
    by_cases seeks : ∃ p, act = .seek p
    · obtain ⟨p, rfl⟩ := seeks
      refine Replay.Fresh.onward Replay.fresh_seek forward fun t ht => positions t ?_
      simp [ht]
    · have stays : ∀ p, act ≠ .seek p := fun p he => seeks ⟨p, he⟩
      have onward := ih (fun t ht => positions t (List.mem_append_left _ ht)) room'
        fun reversed => ahead (reversed.concat stays)
      exact onward_step ((logged_start holds config failing).steps acts room') onward stays forward

theorem dated_steps
    (room : ((start config ⟨store, failing⟩).steps acts).archive.store.count ≤
      TableStore.maxLimit) :
    ((start config ⟨store, failing⟩).steps acts).replay.Dated
      ((start config ⟨store, failing⟩).steps acts).archive.store.events (sought acts) := by
  induction acts using List.reverseRecOn with
  | nil => exact fun c unset => absurd unset (Option.some_ne_none c).symm
  | append_singleton acts act ih =>
    have room' := room_of_append (s := start config ⟨store, failing⟩) holds.events_eq.1 acts room
    rw [steps_append]
    by_cases seeks : ∃ p, act = .seek p
    · obtain ⟨p, rfl⟩ := seeks
      have fresh : (((start config ⟨store, failing⟩).steps acts).step (.seek p)).replay.Fresh p :=
        Replay.fresh_seek
      rw [sought_seek]
      exact fun c clock => .inl (fresh.clock.symm.trans clock)
    · have stays : ∀ p, act ≠ .seek p := fun p he => seeks ⟨p, he⟩
      have logged := (logged_start holds config failing).steps acts room'
      have dated := (leading_step (Replay.leading_dated _ logged.holds _)
        ⟨logged.poised, ih room'⟩ stays).2
      obtain ⟨-, more, events⟩ := (grows_step _ act).events logged.holds.events_eq.1
      rw [sought_of_stays stays]
      intro c clock
      refine (dated c clock).imp id fun ⟨m, hm, time⟩ => ⟨m, ?_, time⟩
      rw [steps, List.foldl_cons, List.foldl_nil, events]
      exact List.mem_append_left more hm

end Start

/-! ## The first overflow -/

/-- With this act the replay plays on from its clock to an event too far away, both of them known
from the log or from the position sought. With checked arithmetic it has fetched then, and nothing
is armed. -/
structure Overruns (s : Solo) (act : Act) (p : Position) (r : Replay) (c : Int64)
    (next : Message) : Prop extends r.Distant c next where
  plays : s.goesOn act = some r
  upNext : r.upNext s.config s.archive = some next
  kept : s.replay.clock = r.clock ∧ s.replay.direction = r.direction
  stored : next ∈ s.archive.store.events
  dated : p.clock = some c ∨ ∃ m ∈ s.archive.store.events, m.timestamp = c
  stalls : (s.stepChecked act).replay = r.fill s.config s.archive
  unarmed : (s.stepChecked act).replay.timer = none

theorem timer_fill (r : Replay) (config : ReplayConfig) (archive : Archive) :
    (r.fill config archive).timer = r.timer := by
  rcases Replay.fill_cases r config archive with same | ⟨taken, m, -, filled⟩
  · rw [same]
  · rw [filled]

theorem Clocked.overruns {s : Solo} (h : s.Clocked) {p : Position}
    (dated : s.replay.Dated s.archive.store.events p) {act : Act} (overflows : s.Overflows act) :
    ∃ r c next, s.Overruns act p r c next := by
  obtain ⟨r, plays, overflows⟩ := overflows
  obtain ⟨next, upNext, far⟩ := Replay.overflows_iff.1 overflows
  obtain ⟨origin, unarmed⟩ := goesOn_origin h.timed plays
  obtain ⟨poised, abreast, clock, speed⟩ := h.origin origin
  obtain ⟨stored, c, distant⟩ :=
    poised.distant h.holds abreast (speed ▸ h.accepted) upNext far
  have stalls := replay_stepChecked plays overflows
  exact ⟨r, c, next, { distant with
    plays, upNext, stored, stalls
    kept := ⟨clock.symm, (congrArg Direction.ofSpeed speed).symm⟩
    dated := dated c (clock.symm.trans distant.clock)
    unarmed := by rw [stalls, timer_fill, unarmed] }⟩

section Start

variable {store : Store} {log : List Message} (holds : store.Holds log)
  (failing : Request → Bool) (config : ReplayConfig) (acts : List Act)

include holds

theorem within_or_overruns
    (room : ((start config ⟨store, failing⟩).steps acts).archive.store.count ≤
      TableStore.maxLimit) :
    let s := start config ⟨store, failing⟩
    s.Within acts ∨ ∃ done act rest, acts = done ++ act :: rest ∧ s.Within done ∧
      (s.steps done).archive.store.count ≤ TableStore.maxLimit ∧
      ∃ r c next, (s.steps done).Overruns act (sought done) r c next := by
  intro s
  rcases within_or_first acts s with within | ⟨done, act, rest, rfl, within, overflows⟩
  · exact .inl within
  · have room : (s.steps done).archive.store.count ≤ TableStore.maxLimit :=
      room_of_append (s := s) holds.events_eq.1 done room
    have clocked : (s.steps done).Clocked := clocked_steps holds failing config done room
    exact .inr ⟨done, act, rest, rfl, within, room,
      clocked.overruns (dated_steps holds failing config done room) overflows⟩

end Start

/-- Whatever is stored and whatever a replay is told, sent to no position below zero: the gaps of a
run are 64-bit numbers, and then checked arithmetic changes nothing. Or else it has changed nothing
up to the first gap that is not. By then the replay has faced backwards since it was last sent
anywhere, the gap goes from one side of zero to the other, and the wait for it is lost. -/
theorem overflows_across_zero {store : Store} {log : List Message} (holds : store.Holds log)
    (failing : Request → Bool) (config : ReplayConfig) (acts : List Act)
    (positions : ∀ t, .seek (.time t) ∈ acts → 0 ≤ t.toInt) :
    let s := start config ⟨store, failing⟩
    (s.steps acts).archive.store.count ≤ TableStore.maxLimit →
    s.Within acts ∧ s.stepsChecked acts = s.steps acts ∨
    ∃ done act rest, acts = done ++ act :: rest ∧
      s.Within done ∧ s.stepsChecked done = s.steps done ∧ s.HasReversed done ∧
      ∃ r c next, (s.steps done).Overruns act (sought done) r c next := by
  intro s room
  rcases within_or_overruns holds failing config acts room with
    within | ⟨done, act, rest, rfl, within, room, r, c, next, overruns⟩
  · exact .inl ⟨within, stepsChecked_eq acts within⟩
  · refine .inr ⟨done, act, rest, rfl, within, stepsChecked_eq done within, ?_, r, c, next,
      overruns⟩
    by_contra ahead
    have onward := onward_steps holds failing config done
      (fun t ht => positions t (List.mem_append_left _ ht)) room ahead
    rcases overruns.sides with ⟨-, below, -⟩ | ⟨reverse, -⟩
    · have above := onward.clock c (overruns.kept.1.trans overruns.clock)
      omega
    · rw [← overruns.kept.2, onward.direction] at reverse
      cases reverse

/-- Backwards from the end, past an event to one that is too far below zero. -/
theorem overflows_across_zero_backwards :
    let event (t : Int64) : Message := .current t (.test ⟨"a", []⟩)
    let s := start ⟨1, 1, by decide, by decide⟩
      ⟨(Store.memory.appendBatch [event Int64.minValue, event 5]).1, fun _ => false⟩
    let acts : List Act := [.speed ⟨0xbf800000⟩, .seek .eof, .run, .tick]
    (s.steps acts).replay.timer.isSome = true ∧ (s.stepsChecked acts).replay.timer = none ∧
    ∃ done act rest, acts = done ++ act :: rest ∧ s.stepsChecked done = s.steps done ∧
      ∃ r c next, (s.steps done).Overruns act (sought done) r c next := by
  intro event s acts
  have holds : (Store.memory.appendBatch [event Int64.minValue, event 5]).1.Holds _ :=
    (Store.Holds.memory : Store.memory.Holds []).append _ (by decide)
  have armed : (s.steps acts).replay.timer.isSome = true := by decide
  have unarmed : (s.stepsChecked acts).replay.timer = none := by decide
  refine ⟨armed, unarmed, ?_⟩
  rcases overflows_across_zero holds (fun _ => false) ⟨1, 1, by decide, by decide⟩ acts
      (by simp [acts]) (by decide) with
    ⟨-, same⟩ | ⟨done, act, rest, split, -, same, -, overruns⟩
  · change s.stepsChecked acts = s.steps acts at same
    rw [← same, unarmed] at armed
    cases armed
  · exact ⟨done, act, rest, split, same, overruns⟩

/-- Sent to one millisecond, a replay finds the event of the least time behind it, and cannot be run
backwards. -/
theorem overflows_when_run :
    let event : Message := .current Int64.minValue (.test ⟨"a", []⟩)
    let s := (start ⟨1, 1, by decide, by decide⟩
      ⟨(Store.memory.appendBatch [event]).1, fun _ => false⟩).steps
      [.seek (.time 1), .speed ⟨0xbf800000⟩]
    s.replay.clock = some 1 ∧ s.replay.upNext s.config s.archive = some event ∧
      s.replay.gap event = Int64.minValue.toInt - 1 ∧
      s.replay.wrappedGap event = Int64.maxValue ∧ s.runChecked.2 = none := by
  decide

end Solo

end EventRelay
