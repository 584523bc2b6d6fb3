import EventRelay.Proofs.Turning
import EventRelay.Proofs.Waits

/-!
# In time

While a replay runs its clock is at the event to be delivered next. So a timer that goes off
delivers that event, and with it what follows within the time step. What is at hand behind a batch
is further from the clock, and so the wait for the next batch is for a gap in the direction of play:
the gap has the sign of the speed, and the quotient of the two is not negative.

The store may grow meanwhile at any time, also between the clock and what is at hand. What comes in
behind the clock, or behind what has been fetched, is not delivered; so the gap has its sign all the
same.
-/

namespace EventRelay

open Direction

namespace Replay

variable {r : Replay} {log : List Message} {config : ReplayConfig} {archive : Archive}

/-- The clock has not passed the cursor. -/
def Abreast (r : Replay) : Prop :=
  ∀ c, r.clock = some c → r.direction.place c ≤ r.direction.place r.cursor.last

/-- Fresh or underway, a replay has its clock on the near side of the cursor. -/
theorem Poised.abreast (h : r.Poised log) (phase : (∃ p, r.Fresh p) ∨ r.Underway) : r.Abreast := by
  intro c clock
  rcases phase with ⟨p, fresh⟩ | underway
  · obtain ⟨rfl, -⟩ := Position.clock_eq_some.1 (fresh.clock.symm.trans clock)
    rw [fresh.cursor]
    exact Int.le_refl _
  · exact h.back underway.left c clock

theorem Stocked.fetched (h : r.Stocked log) (holds : archive.store.Holds log)
    (empty : r.buffer = []) {m : Message} (hm : m ∈ (r.fill config archive).buffer) :
    r.direction.place r.cursor.last ≤ r.direction.place m.timestamp := by
  rcases up : archive.failing .fetch with _ | _
  · rw [Replay.fill, if_pos empty, Cursor.fetch_eq holds up h.sharp h.settled] at hm
    exact Cursor.place_le_of_mem_ahead (List.mem_of_mem_take hm)
  · rw [fill_of_failing up, empty] at hm
    cases hm

/-- What is at hand after a fetch is not behind the clock, whether it was at hand before or not. -/
theorem Poised.front_fill (h : r.Poised log) (holds : archive.store.Holds log)
    (abreast : r.Abreast) {m : Message} (hm : m ∈ (r.fill config archive).buffer) {c : Int64}
    (clock : r.clock = some c) : r.direction.place c ≤ r.direction.place m.timestamp := by
  by_cases empty : r.buffer = []
  · exact Int.le_trans (abreast c clock) (h.fetched holds empty hm)
  · rw [fill_of_ne_nil empty] at hm
    obtain ⟨c', clock', le⟩ := h.front m hm
    obtain rfl : c = c' := Option.some.inj (clock.symm.trans clock')
    exact le

/-- The gap to an event is zero, or it is in the direction of play. -/
def Toward (r : Replay) (next : Message) : Prop :=
  r.gap next = 0 ∨ 0 < r.gap next ∧ r.speed.isPositive = true ∨
    r.gap next < 0 ∧ r.speed.isNegative = true

theorem toward_of_ahead {next : Message} (accepted : acceptsSpeed r.speed = true)
    (ahead : ∀ c, r.clock = some c → r.direction.place c ≤ r.direction.place next.timestamp) :
    r.Toward next := by
  unfold Toward gap
  rcases clock : r.clock with _ | c
  · exact .inl (by simp)
  · have ahead := ahead c clock
    rw [Option.getD_some]
    rcases hd : r.direction with _ | _
    · have positive := isPositive_of_forward accepted hd
      simp only [hd, place] at ahead
      simp only [positive, and_true]
      omega
    · have negative := isNegative_of_reverse hd
      simp only [hd, place] at ahead
      simp only [negative, and_true]
      omega

/-- So the wait for it is not a negative one that is cut short. -/
theorem Toward.quotient_nonneg {next : Message} (toward : r.Toward next)
    (accepted : acceptsSpeed r.speed = true) : 0 ≤ Pace.quotient (r.gap next) r.speed := by
  refine Pace.quotient_nonneg accepted ?_
  rcases toward with none | ⟨later, positive⟩ | ⟨earlier, negative⟩
  · exact .inl none
  · have negative := isNegative_of_forward (forward_of_isPositive positive)
    exact .inr (by simp only [negative, Bool.false_eq_true, iff_false]; omega)
  · exact .inr (by simp only [negative, iff_true]; omega)

/-- A replay that plays on waits for the first event at hand and moves the clock to it. -/
theorem Poised.armed (h : r.Poised log) (holds : archive.store.Holds log) (abreast : r.Abreast)
    (accepted : acceptsSpeed r.speed = true) {now : Instant} {next : Message} {rest : List Message}
    (atHand : (r.proceed config archive now).1.buffer = next :: rest) :
    (r.proceed config archive now).1.clock = some next.timestamp ∧
    (r.proceed config archive now).1.timer = some ⟨(r.proceed config archive now).1.epoch,
      ⟨now.ms + Pace.delayMillis (r.gap next) r.speed, now.turn⟩⟩ ∧ r.Toward next := by
  obtain ⟨-, -, clock⟩ := h.toStocked.fill config holds
  have speed : (r.fill config archive).speed = r.speed := speed_fill config r
  have same : (r.fill config archive).gap next = r.gap next := by rw [gap, gap, clock]
  have filled : (r.fill config archive).buffer = next :: rest := by
    rwa [proceed, (schedule_spec now _).1] at atHand
  have front : next ∈ (r.fill config archive).buffer := by
    rw [filled]
    exact List.mem_cons_self
  refine ⟨?_, ?_, toward_of_ahead accepted fun c => h.front_fill holds abreast front⟩
  · rw [proceed, clock_schedule, filled]
    rfl
  · simp only [proceed, schedule, scheduleBy, filled, arm, same, speed]

/-- The distance of two times, from the nearer one on. -/
theorem natAbs_eq_place {d : Direction} {s t : Int64} (ahead : d.place s ≤ d.place t) :
    ((t.toInt - s.toInt).natAbs : Int) = d.place t - d.place s := by
  rcases d with _ | _
  · simp only [place] at ahead ⊢
    omega
  · simp only [place] at ahead ⊢
    omega

/-- A batch is in time: it begins at the clock and goes on from there, and it is all that is at hand
within the time step. -/
structure InTime (r : Replay) (timeStep : Nat) (c : Int64) (batch rest : List Message) :
    Prop where
  clock : r.clock = some c
  first : batch.head?.map (·.timestamp) = some c
  split : r.buffer = batch ++ rest
  near : ∀ e ∈ batch, r.direction.place c ≤ r.direction.place e.timestamp ∧
    (e.timestamp.toInt - c.toInt).natAbs < timeStep
  far : ∀ e ∈ rest, r.direction.place c ≤ r.direction.place e.timestamp ∧
    timeStep ≤ (e.timestamp.toInt - c.toInt).natAbs

theorem takeDue_snd (r : Replay) (config : ReplayConfig) : (r.takeDue config).2 =
    r.clock.elim [] fun c => r.buffer.takeWhile (isDue config c) := by
  unfold Replay.takeDue
  cases r.clock <;> rfl

/-- While a replay runs what it takes is in time. -/
theorem Poised.inTime_takeDue (h : r.Poised log) (anchored : r.Anchored)
    (running : r.running = true) (config : ReplayConfig) (some : (r.takeDue config).2 ≠ []) :
    ∃ c rest, r.InTime config.timeStep c (r.takeDue config).2 rest := by
  rcases clock : r.clock with _ | c <;> rw [takeDue_snd, clock] at some ⊢
  · exact absurd rfl some
  have ahead {e : Message} (he : e ∈ r.buffer) :
      r.direction.place c ≤ r.direction.place e.timestamp := by
    obtain ⟨c', clock', le⟩ := h.front e he
    obtain rfl : c = c' := Option.some.inj (clock.symm.trans clock')
    exact le
  -- what is due is so before anything that is not
  have monotone : r.buffer.Pairwise fun a b =>
      isDue config c b = true → isDue config c a = true := by
    refine List.Pairwise.imp_of_mem (fun {a b} ha hb le due => ?_) h.ordered
    have distA := natAbs_eq_place (ahead ha)
    have distB := natAbs_eq_place (ahead hb)
    rw [isDue, decide_eq_true_eq] at due ⊢
    omega
  have split := (List.takeWhile_append_dropWhile (p := isDue config c) (l := r.buffer)).symm
  refine ⟨c, r.buffer.dropWhile (isDue config c), clock, ?_, split, fun e he => ?_, fun e he => ?_⟩
  · obtain ⟨m, more, hm⟩ := List.exists_cons_of_ne_nil some
    rw [Option.elim_some] at hm ⊢
    rw [hm, List.cons_append] at split
    rw [hm, List.head?_cons, Option.map_some, ← clock, anchored running m _ split]
  · rw [Option.elim_some, takeWhile_eq_filter monotone, List.mem_filter] at he
    exact ⟨ahead he.1, of_decide_eq_true he.2⟩
  · rw [dropWhile_eq_filter monotone, List.mem_filter, Bool.not_eq_true'] at he
    exact ⟨ahead he.1, Nat.le_of_not_lt (of_decide_eq_false he.2)⟩

end Replay

namespace Solo

variable {s : Solo} {act : Act}

/-- A pending timer that goes off before nobody. -/
theorem step_tick_unheard (timed : s.replay.Timed) (away : s.listening = false)
    (pending : s.replay.timer.isSome = true) :
    s.step .tick = { s with replay := (s.replay.takeDue s.config).1.pause } := by
  obtain ⟨timer, ht⟩ := Option.isSome_iff_exists.1 pending
  obtain ⟨due, rest, -, hdue, -⟩ := Replay.takeDue_eq s.config s.replay
  rw [step, ht]
  dsimp only
  rw [fire, fireBy, if_neg (not_not_intro (timed.epoch_eq ht).2.symm), hdue]
  simp only [away, Bool.not_false, if_true]

/-- The listener is told something only by a timer that goes off while the replay runs. -/
theorem heard_step (timed : s.replay.Timed) (allowed : s.Allows act) :
    (s.step act).heard = s.heard ∨ act = .tick ∧ s.replay.running = true ∧ ∃ outcome,
      (s.step act).heard =
        tickNotices s.now.ms s.replay.epoch (s.replay.takeDue s.config).2 outcome ++ s.heard := by
  cases act with
  | tick =>
    rcases listening : s.listening with _ | _
    · rw [step_tick_unheard timed listening allowed]
      exact .inl rfl
    · obtain ⟨timer, ht⟩ := Option.isSome_iff_exists.1 allowed
      exact .inr ⟨rfl, (timed.epoch_eq ht).1, _,
        congrArg heard (step_tick_eq timed listening allowed)⟩
  | late epoch =>
    have same : s.step (.late epoch) = s := fire_of_ne (Nat.ne_of_lt allowed)
    exact .inl (by rw [same])
  | speed x =>
    refine .inl ?_
    rw [step]
    split_ifs <;> rfl
  | seek | run | pause | wait | append | fail | leave => exact .inl rfl

/-- With something at hand a timer is armed only by a replay that is run or that plays on. -/
theorem proceeds_of_armed (timed : s.replay.Timed) (allowed : s.Allows act)
    (atHand : (s.step act).replay.buffer ≠ [])
    (pending : (s.step act).replay.timer.isSome = true)
    (new : s.replay.epoch < (s.step act).replay.epoch) :
    ∃ r, (r = s.replay ∨ r = (s.replay.takeDue s.config).1) ∧
      (s.step act).replay = (r.proceed s.config s.archive s.now).1 := by
  cases act with
  | tick =>
    rcases listening : s.listening with _ | _
    · rw [step_tick_unheard timed listening allowed, Replay.timer_pause] at pending
      cases pending
    · exact ⟨_, .inr rfl, congrArg replay (step_tick_eq timed listening allowed)⟩
  | late epoch =>
    have same : s.step (.late epoch) = s := fire_of_ne (Nat.ne_of_lt allowed)
    rw [same] at new
    exact absurd new (Nat.lt_irrefl _)
  | speed x =>
    simp only [step] at atHand new
    split_ifs at atHand new
    · by_cases same : Direction.ofSpeed x = s.replay.direction
      · rw [Replay.setSpeed_same same] at new
        exact absurd new (Nat.lt_irrefl _)
      · exact absurd (Replay.setSpeed_turned _ same).1 atHand
    · exact absurd new (Nat.lt_irrefl _)
  | seek p => exact absurd Replay.buffer_seek atHand
  | run =>
    simp only [step, Solo.run, Replay.run] at new ⊢
    split_ifs at new ⊢
    · exact absurd new (Nat.lt_irrefl _)
    · exact ⟨_, .inl rfl, rfl⟩
  | pause =>
    rw [step, Replay.timer_pause] at pending
    cases pending
  | wait | append | fail | leave => exact absurd new (Nat.lt_irrefl _)

theorem delivered_mem_tickNotices {ms now epoch : Nat} {batch due : List Message}
    {outcome : RunOutcome} (told : .delivered ms batch ∈ tickNotices now epoch due outcome) :
    batch = due ∧ due ≠ [] := by
  unfold tickNotices at told
  split_ifs at told <;> simp_all

theorem config_step (s : Solo) (act : Act) : (s.step act).config = s.config := by
  cases act with
  | tick =>
    rw [step]
    split
    · rfl
    · exact (fire_context s _).1
  | late epoch => exact (fire_context s epoch).1
  | speed x =>
    rw [step]
    split_ifs <;> rfl
  | seek | run | pause | wait | append | fail | leave => rfl

theorem config_steps (acts : List Act) : (s.steps acts).config = s.config := by
  induction acts generalizing s with
  | nil => rfl
  | cons act acts ih => exact ih.trans (config_step s act)

theorem accepted_steps (accepted : Replay.acceptsSpeed s.replay.speed = true) (acts : List Act) :
    Replay.acceptsSpeed (s.steps acts).replay.speed = true := by
  induction acts generalizing s with
  | nil => exact accepted
  | cons act acts ih => exact ih (permanent_step (Replay.permanent_speed _ _) accepted act)

/-- A replay in a store, at an accepted speed, and with its clock in place. -/
structure Clocked (s : Solo) : Prop extends s.Logged where
  timed : s.replay.Timed
  anchored : s.replay.Anchored
  accepted : Replay.acceptsSpeed s.replay.speed = true
  abreast : s.replay.Abreast

theorem clocked_steps {store : Store} {log : List Message} (holds : store.Holds log)
    (failing : Request → Bool) (config : ReplayConfig) (acts : List Act)
    (room : ((start config ⟨store, failing⟩).steps acts).archive.store.count ≤
      TableStore.maxLimit) : ((start config ⟨store, failing⟩).steps acts).Clocked := by
  have logged := (logged_start holds config failing).steps acts room
  have normal : Replay.acceptsSpeed Replay.start.speed = true := by decide
  have paused : Replay.start.Anchored := fun running => absurd running Bool.false_ne_true
  refine { logged with
    timed := timed_steps Replay.start_timed acts
    anchored := anchored_steps acts paused
    accepted := accepted_steps (s := start config ⟨store, failing⟩) normal acts
    abreast := logged.poised.abreast ?_ }
  obtain ⟨underway, fresh⟩ := phase (s := start config ⟨store, failing⟩) Replay.fresh_start acts
  by_cases fetched : (start config ⟨store, failing⟩).HasFetched acts
  · exact .inr (underway fetched)
  · exact .inl ⟨_, fresh fetched⟩

theorem Clocked.inTime (h : s.Clocked) (allowed : s.Allows act) {ms : Nat} {batch : List Message}
    (told : .delivered ms batch ∈ (s.step act).since s) :
    ∃ c rest, s.replay.InTime s.config.timeStep c batch rest := by
  rcases heard_step h.timed allowed with same | ⟨-, running, outcome, heard⟩
  · rw [since_eq_nil same] at told
    cases told
  · rw [since_eq heard, List.mem_reverse] at told
    obtain ⟨rfl, some⟩ := delivered_mem_tickNotices told
    exact h.poised.inTime_takeDue h.anchored running s.config some

/-- What is due being taken moves neither the clock nor the cursor. -/
theorem Clocked.origin (h : s.Clocked) {r : Replay}
    (origin : r = s.replay ∨ r = (s.replay.takeDue s.config).1) :
    r.Poised s.archive.store.events ∧ r.Abreast ∧ r.clock = s.replay.clock ∧
      r.speed = s.replay.speed := by
  rcases origin with rfl | rfl
  · exact ⟨h.poised, h.abreast, rfl, rfl⟩
  · obtain ⟨due, left, hb, hdue, -⟩ := Replay.takeDue_eq s.config s.replay
    rw [hdue]
    exact ⟨h.poised.shrink ⟨due, hb.symm⟩ rfl rfl rfl, h.abreast, rfl, rfl⟩

theorem Clocked.waits (h : s.Clocked) (allowed : s.Allows act) {next : Message}
    {rest : List Message} (atHand : (s.step act).replay.buffer = next :: rest)
    (pending : (s.step act).replay.timer.isSome = true)
    (new : s.replay.epoch < (s.step act).replay.epoch) :
    (s.step act).replay.clock = some next.timestamp ∧
    (s.step act).replay.timer = some ⟨(s.step act).replay.epoch,
      ⟨s.now.ms + Pace.delayMillis (s.replay.gap next) s.replay.speed, s.now.turn⟩⟩ ∧
    s.replay.Toward next := by
  have some : (s.step act).replay.buffer ≠ [] := by simp [atHand]
  obtain ⟨r, origin, played⟩ := proceeds_of_armed h.timed allowed some pending new
  obtain ⟨poised, abreast, clock, speed⟩ := h.origin origin
  have gap : r.gap next = s.replay.gap next := by rw [Replay.gap, Replay.gap, clock]
  rw [played] at atHand ⊢
  have armed := poised.armed h.holds abreast (speed ▸ h.accepted) atHand
  rwa [Replay.Toward, gap, speed] at armed

/-- However a replay has come to its state: whatever is delivered is in time, and whenever another
delivery is waited for, the clock moves to its first event, over a gap that is zero or has the sign
of the speed. So the wait is never cut short for being negative. -/
theorem plays_in_time {store : Store} {log : List Message} (holds : store.Holds log)
    (failing : Request → Bool) (config : ReplayConfig) (acts : List Act) :
    let s := (start config ⟨store, failing⟩).steps acts
    let r := s.replay
    s.archive.store.count ≤ TableStore.maxLimit → ∀ act, s.Allows act →
      let after := s.step act
      (∀ ms batch, .delivered ms batch ∈ after.since s →
        ∃ c rest, r.InTime config.timeStep c batch rest) ∧
      (∀ next rest, after.replay.buffer = next :: rest → after.replay.timer.isSome = true →
        r.epoch < after.replay.epoch →
          after.replay.clock = some next.timestamp ∧
          after.replay.timer = some ⟨after.replay.epoch,
            ⟨s.now.ms + Pace.delayMillis (r.gap next) r.speed, s.now.turn⟩⟩ ∧
          r.Toward next ∧ 0 ≤ Pace.quotient (r.gap next) r.speed) := by
  intro s r room act allowed after
  have clocked : s.Clocked := clocked_steps holds failing config acts room
  have same : s.config = config := config_steps acts
  refine ⟨fun ms batch told => ?_, fun next rest atHand pending new => ?_⟩
  · rw [← same]
    exact clocked.inTime allowed told
  · obtain ⟨moved, timer, toward⟩ := clocked.waits allowed atHand pending new
    exact ⟨moved, timer, toward, toward.quotient_nonneg clocked.accepted⟩

/-- Backwards from the end, fetched two at a time. An event comes in while the first two are at
hand, and is the first of the next batch, a little before the clock. -/
theorem plays_in_time_backwards :
    let event (t : Int64) : Message := .current t (.test ⟨"a", []⟩)
    let s := (start ⟨2, 100, by decide, by decide⟩
      ⟨(Store.memory.appendBatch [event 100, event 880, event 900]).1, fun _ => false⟩).steps
      [.speed ⟨0xbf800000⟩, .seek .eof, .run, .append [event 870]]
    let after := s.step .tick
    (∃ c rest, s.replay.InTime 100 c [event 900, event 880] rest) ∧
      after.replay.buffer = [event 870, event 100] ∧ after.replay.clock = some 870 ∧
      s.replay.gap (event 870) = -30 ∧ 0 ≤ Pace.quotient (-30) ⟨0xbf800000⟩ := by
  intro event s after
  have holds : (Store.memory.appendBatch [event 100, event 880, event 900]).1.Holds _ :=
    (Store.Holds.memory : Store.memory.Holds []).append _ (by decide)
  obtain ⟨batches, waits⟩ := plays_in_time holds (fun _ => false) ⟨2, 100, by decide, by decide⟩
    [.speed ⟨0xbf800000⟩, .seek .eof, .run, .append [event 870]] (by decide) .tick (by decide)
  have atHand : after.replay.buffer = [event 870, event 100] := by decide
  obtain ⟨clock, -, -, nonneg⟩ := waits _ _ atHand (by decide) (by decide)
  have gap : s.replay.gap (event 870) = -30 := by decide
  have speed : s.replay.speed = ⟨0xbf800000⟩ := by decide
  rw [gap, speed] at nonneg
  exact ⟨batches 0 _ (by decide), atHand, clock, gap, nonneg⟩

end Solo

end EventRelay
