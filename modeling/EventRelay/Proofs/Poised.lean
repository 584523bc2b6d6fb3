import EventRelay.Proofs.Passes
import EventRelay.Proofs.Unread

/-!
# Where a replay stands

What a replay has at hand is stored, in the order of play, and lies between its clock and its
cursor. That holds however the replay has come to its state, over a log that grows and a store that
fails at times. So whatever a replay has yet to deliver is at its clock or beyond.
-/

namespace EventRelay

open Direction

namespace Cursor

variable {c after : Cursor} {d : Direction} {log taken : List Message} {archive : Archive}
  {size : Nat}

theorem advance_of_fetch (fetched : c.fetch archive d size = .ok (taken, after)) :
    after = c.advance taken := by
  unfold fetch at fetched
  split at fetched
  · cases fetched
  · cases fetched
    rfl

/-- What a fetch brings is stored, and in the order of play. -/
theorem fetch_ok (holds : archive.store.Holds log)
    (fetched : c.fetch archive d size = .ok (taken, after)) :
    d.Ordered taken ∧ ∀ m ∈ taken, m ∈ log := by
  rcases up : archive.failing .fetch with _ | _
  · simp only [Cursor.fetch, Archive.fetch, up, Bool.false_eq_true, if_false, holds.fetch,
      Except.ok.injEq, Prod.mk.injEq] at fetched
    obtain ⟨rfl, -⟩ := fetched
    refine ⟨?_, fun m hm => ?_⟩
    · exact List.Pairwise.sublist ((List.drop_sublist _ _).trans (List.take_sublist _ _))
        ((history_ordered d log).filter _)
    · exact mem_history.1 (List.mem_of_mem_filter (List.mem_of_mem_take (List.mem_of_mem_drop hm)))
  · rw [Cursor.fetch, Archive.fetch, if_pos up] at fetched
    cases fetched

/-- Nothing that is taken is beyond the cursor that has moved past it. -/
theorem place_le_last_advance (ordered : d.Ordered taken) {m : Message} (hm : m ∈ taken) :
    d.place m.timestamp ≤ d.place (c.advance taken).last := by
  obtain ⟨xs, x, rfl⟩ := (List.eq_nil_or_concat' taken).resolve_left (List.ne_nil_of_mem hm)
  rw [last_advance List.getLast?_concat]
  rcases List.mem_append.1 hm with hm | hm
  · exact (List.pairwise_append.1 ordered).2.2 m hm x (by simp)
  · rw [List.mem_singleton.1 hm]

end Cursor

namespace Replay

/-- What is at hand has been fetched: it is stored, in the order of play, and not beyond the cursor.
-/
structure Stocked (r : Replay) (log : List Message) : Prop extends r.Placed log where
  stored : ∀ m ∈ r.buffer, m ∈ log
  ordered : r.direction.Ordered r.buffer
  behind : ∀ m ∈ r.buffer, r.direction.place m.timestamp ≤ r.direction.place r.cursor.last

/-- And nothing is behind the clock, neither what is at hand nor, once it has left the position
sought, the cursor. -/
structure Poised (r : Replay) (log : List Message) : Prop extends r.Stocked log where
  front : ∀ m ∈ r.buffer, ∃ c, r.clock = some c ∧
    r.direction.place c ≤ r.direction.place m.timestamp
  back : r.cursor.inclusive = false → ∀ c, r.clock = some c →
    r.direction.place c ≤ r.direction.place r.cursor.last

variable {r r' : Replay} {log : List Message} {config : ReplayConfig} {archive : Archive}
  {now : Instant}

theorem clock_pause (r : Replay) : r.pause.clock = r.clock := by
  unfold pause
  split_ifs <;> rfl

theorem clock_schedule (r : Replay) (now : Instant) :
    (r.schedule now).1.clock = (r.buffer.head?.map (·.timestamp)).or r.clock := by
  unfold schedule scheduleBy
  split
  · next hb => simp [hb]
  · next next rest hb => simp [arm, hb]

/-- Less at hand, and all else that matters as it was. -/
theorem Poised.shrink (h : r.Poised log) (hb : r'.buffer <:+ r.buffer)
    (hc : r'.cursor = r.cursor) (hs : r'.speed = r.speed) (ht : r'.clock = r.clock) :
    r'.Poised log := by
  have hd : r'.direction = r.direction := congrArg Direction.ofSpeed hs
  have mem {m : Message} (hm : m ∈ r'.buffer) : m ∈ r.buffer := hb.subset hm
  refine { h.toPlaced.congr hc hs with
    stored := fun m hm => h.stored m (mem hm)
    ordered := ?_
    behind := ?_
    front := ?_
    back := ?_ }
    <;> rw [hd]
  · exact h.ordered.sublist hb.sublist
  · rw [hc]
    exact fun m hm => h.behind m (mem hm)
  · rw [ht]
    exact fun m hm => h.front m (mem hm)
  · rw [hc, ht]
    exact h.back

theorem Poised.append (h : r.Poised log) (ms : List Message) : r.Poised (log ++ ms) :=
  { h with
    toPlaced := h.toPlaced.append ms
    stored := fun m hm => List.mem_append_left ms (h.stored m hm) }

/-- With nothing at hand the clock and the cursor alone matter. -/
theorem poised_of_empty (placed : r.Placed log) (empty : r.buffer = [])
    (back : r.cursor.inclusive = false → ∀ c, r.clock = some c →
      r.direction.place c ≤ r.direction.place r.cursor.last) : r.Poised log :=
  { placed with
    stored := by simp [empty]
    ordered := empty ▸ List.Pairwise.nil
    behind := by simp [empty]
    front := by simp [empty]
    back }

theorem Stocked.fill (config : ReplayConfig) (holds : archive.store.Holds log)
    (h : r.Stocked log) :
    (r.fill config archive).Stocked log ∧ ((r.fill config archive).buffer = [] →
      (r.fill config archive).cursor = r.cursor) ∧ (r.fill config archive).clock = r.clock := by
  have placed : (r.fill config archive).Placed log := h.toPlaced.fill holds
  unfold Replay.fill at placed ⊢
  split_ifs at placed ⊢ with hb
  · rcases hf : r.cursor.fetch archive r.direction config.bufferSize with e | ⟨taken, after⟩
    · exact ⟨h, fun _ => rfl, rfl⟩
    · rw [hf] at placed
      obtain ⟨ordered, stored⟩ := Cursor.fetch_ok holds hf
      obtain rfl := Cursor.advance_of_fetch hf
      refine ⟨{ placed with stored, ordered, behind := ?_ }, ?_, rfl⟩
      · exact fun m hm => Cursor.place_le_last_advance ordered hm
      · rintro (rfl : taken = [])
        rfl
  · exact ⟨h, fun _ => rfl, rfl⟩

theorem Stocked.schedule (h : r.Stocked log) (now : Instant)
    (back : r.buffer = [] → r.cursor.inclusive = false → ∀ c, r.clock = some c →
      r.direction.place c ≤ r.direction.place r.cursor.last) : (r.schedule now).1.Poised log := by
  obtain ⟨hb, hc, hs, -⟩ := schedule_spec now r
  have ht := clock_schedule r now
  have hd : (r.schedule now).1.direction = r.direction := congrArg Direction.ofSpeed hs
  have placed := h.toPlaced.congr hc hs
  rcases hr : r.buffer with _ | ⟨m, rest⟩
  · refine poised_of_empty placed (hb.trans hr) ?_
    rw [hd, hc, ht, hr]
    exact back hr
  · -- the clock is at the first event at hand
    rw [hr] at ht
    have first : ∀ x ∈ r.buffer, r.direction.place m.timestamp ≤ r.direction.place x.timestamp := by
      have ordered := h.ordered
      rw [hr] at ordered ⊢
      exact List.forall_mem_cons.2 ⟨Int.le_refl _, (List.pairwise_cons.1 ordered).1⟩
    refine { placed with
      stored := hb ▸ h.stored, ordered := ?_, behind := ?_, front := ?_, back := ?_ } <;> rw [hd]
    · exact hb ▸ h.ordered
    · rw [hb, hc]
      exact h.behind
    · rw [hb]
      exact fun x hx => ⟨m.timestamp, ht, first x hx⟩
    · rw [ht, hc]
      rintro - c hm
      obtain rfl : m.timestamp = c := Option.some.inj hm
      exact h.behind m (by simp [hr])

theorem poised_start (log : List Message) : Replay.start.Poised log :=
  poised_of_empty (placed_of_skip rfl) rfl fun left => absurd left (by decide)

/-- Whatever a replay is told and however it plays, it stays poised. -/
theorem permanent_poised (config : ReplayConfig) (holds : archive.store.Holds log) :
    Permanent config archive fun r => r.Poised log where
  start := poised_start log
  seek r _ now p := by
    refine poised_of_empty (placed_of_skip (by rw [cursor_seek]; cases p <;> rfl)) buffer_seek ?_
    rw [cursor_seek]
    rcases p with t | _
    · exact fun left => by cases left
    · have unset : (r.seek now .eof).clock = none := (rearm_fields _ now).2.2.2.2
      rw [unset]
      exact fun _ c clock => absurd clock (Option.some_ne_none c).symm
  setSpeed r h now x accepted := by
    have placed := (permanent_placed config holds).setSpeed r h.toPlaced now x accepted
    by_cases same : Direction.ofSpeed x = r.direction
    · rw [setSpeed_same same] at placed ⊢
      have hd : { r with speed := x }.direction = r.direction := same
      exact { placed with
        stored := h.stored
        ordered := hd ▸ h.ordered
        behind := hd ▸ h.behind
        front := hd ▸ h.front
        back := hd ▸ h.back }
    · obtain ⟨hb, hc, -, ht⟩ := setSpeed_turned now same
      refine poised_of_empty placed hb fun left c clock => ?_
      rw [hc] at left ⊢
      rw [ht] at clock
      simp_all
  pause r h := by
    obtain ⟨hb, hc, hs⟩ := r.pause_fields
    exact h.shrink (hb ▸ List.suffix_refl _) hc hs r.clock_pause
  takeDue r h := by
    obtain ⟨due, rest, hb, hdue, -⟩ := takeDue_eq config r
    rw [hdue]
    exact h.shrink ⟨due, hb.symm⟩ rfl rfl rfl
  proceed r h now := by
    obtain ⟨stocked, kept, clock⟩ := h.toStocked.fill config holds
    refine stocked.schedule now fun none => ?_
    rw [kept none, clock, direction, speed_fill]
    exact h.back

/-- What is yet to be delivered is stored, and not behind the clock of a replay that has left the
position sought. -/
theorem Poised.upcoming (h : r.Poised log) {c : Int64} (left : r.cursor.inclusive = false)
    (clock : r.clock = some c) {m : Message} (hm : m ∈ r.upcoming log) :
    m ∈ log ∧ r.direction.place c ≤ r.direction.place m.timestamp := by
  rcases List.mem_append.1 hm with hm | hm
  · obtain ⟨c', clock', le⟩ := h.front m hm
    obtain rfl : c = c' := Option.some.inj (clock.symm.trans clock')
    exact ⟨h.stored m hm, le⟩
  · refine ⟨mem_history.1 (List.mem_of_mem_filter (List.mem_of_mem_drop hm)), ?_⟩
    exact Int.le_trans (h.back left c clock) (Cursor.place_le_of_mem_ahead hm)

end Replay

/-! ## A replay on its own -/

/-- What holds of a replay whatever it is told but a seek, and what holds after it has gone on. -/
structure Replay.Leading (config : ReplayConfig) (archive : Archive) (P Q : Replay → Prop) :
    Prop where
  weaken : ∀ r, P r → Q r
  setSpeed : ∀ r, P r → ∀ now x, acceptsSpeed x = true → P (r.setSpeed now x)
  pause : ∀ r, P r → P r.pause
  takeDue : ∀ r, P r → P (r.takeDue config).1
  proceed : ∀ r, P r → ∀ now, Q (r.proceed config archive now).1

namespace Solo

/-- All that a replay can come to by an act that tells it neither a position nor a speed: once what
is due may have been taken, it is left as it is, paused, or plays on. -/
theorem step_cases (s : Solo) (act : Act) : (∃ p, act = .seek p) ∨ (∃ x, act = .speed x) ∨
    ∃ r, (r = s.replay ∨ r = (s.replay.takeDue s.config).1) ∧
      ((s.step act).replay = r ∨ (s.step act).replay = r.pause ∨
        (s.step act).replay = (r.proceed s.config s.archive s.now).1) := by
  have fired (epoch : Nat) : ∃ r, (r = s.replay ∨ r = (s.replay.takeDue s.config).1) ∧
      ((s.fire epoch).replay = r ∨ (s.fire epoch).replay = r.pause ∨
        (s.fire epoch).replay = (r.proceed s.config s.archive s.now).1) := by
    rcases fire_cases s epoch with ⟨-, hs⟩ | ⟨-, hs | hs | ⟨-, hs⟩⟩
    · exact ⟨_, .inl rfl, .inl hs⟩
    · exact ⟨_, .inr rfl, .inr (.inl hs)⟩
    · exact ⟨_, .inr rfl, .inr (.inr hs)⟩
    · exact ⟨_, .inr rfl, .inl hs⟩
  cases act with
  | seek p => exact .inl ⟨p, rfl⟩
  | speed x => exact .inr (.inl ⟨x, rfl⟩)
  | run =>
    refine .inr (.inr ⟨_, .inl rfl, ?_⟩)
    rw [step, Solo.run, Replay.run]
    split_ifs
    · exact .inl rfl
    · exact .inr (.inr rfl)
  | pause => exact .inr (.inr ⟨_, .inl rfl, .inr (.inl rfl)⟩)
  | tick =>
    rw [step]
    split
    · exact .inr (.inr ⟨_, .inl rfl, .inl rfl⟩)
    · exact .inr (.inr (fired _))
  | late epoch => exact .inr (.inr (fired epoch))
  | wait | append | fail | leave => exact .inr (.inr ⟨_, .inl rfl, .inl rfl⟩)

section Leading

variable {P Q : Replay → Prop} {s : Solo}

theorem leading_step (leading : Replay.Leading s.config s.archive P Q) (hp : P s.replay)
    {act : Act} (stays : ∀ p, act ≠ .seek p) : Q (s.step act).replay := by
  rcases step_cases s act with ⟨p, rfl⟩ | ⟨x, rfl⟩ | ⟨r, origin, hs⟩
  · exact absurd rfl (stays p)
  · rw [step]
    split_ifs with hx
    · exact leading.weaken _ (leading.setSpeed _ hp s.now x hx)
    · exact leading.weaken _ hp
  · have hr : P r := by
      rcases origin with rfl | rfl
      · exact hp
      · exact leading.takeDue _ hp
    rcases hs with hs | hs | hs <;> rw [hs]
    · exact leading.weaken _ hr
    · exact leading.weaken _ (leading.pause _ hr)
    · exact leading.proceed _ hr s.now

theorem permanent_step (permanent : Replay.Permanent s.config s.archive P) (hp : P s.replay)
    (act : Act) : P (s.step act).replay := by
  by_cases seeks : ∃ p, act = .seek p
  · obtain ⟨p, rfl⟩ := seeks
    exact permanent.seek _ hp s.now p
  · exact leading_step { permanent with weaken := fun _ h => h } hp fun p he => seeks ⟨p, he⟩

end Leading

variable {s : Solo}

theorem grows_step (s : Solo) (act : Act) : s.archive.store.Grows (s.step act).archive.store := by
  cases act with
  | seek | run | pause | wait | fail | leave => exact .inl rfl
  | speed x =>
    rw [step]
    split_ifs <;> exact .inl rfl
  | tick =>
    rw [step]
    split
    · exact .inl rfl
    · exact .inl (congrArg Archive.store (fire_context s _).2)
  | late epoch => exact .inl (congrArg Archive.store (fire_context s epoch).2)
  | append ms =>
    rw [step, Archive.appendBatch]
    split_ifs
    · exact .inl rfl
    · exact .inr ⟨ms, rfl⟩

theorem events_steps : ∀ (acts : List Act) {s : Solo}, s.archive.store.Numbered →
    s.archive.store.events <+: (s.steps acts).archive.store.events
  | [], _, _ => List.prefix_refl _
  | act :: acts, s, numbered =>
    have ⟨still, more, events⟩ := (grows_step s act).events numbered
    .trans ⟨more, events.symm⟩ (events_steps acts still)

theorem numbered_steps : ∀ (acts : List Act) {s : Solo}, s.archive.store.Numbered →
    (s.steps acts).archive.store.Numbered
  | [], _, numbered => numbered
  | act :: acts, s, numbered => numbered_steps acts ((grows_step s act).events numbered).1

/-- There was room for what a run had stored on the way. -/
theorem room_of_append (numbered : s.archive.store.Numbered) (done : List Act) {rest : List Act}
    (room : (s.steps (done ++ rest)).archive.store.count ≤ TableStore.maxLimit) :
    (s.steps done).archive.store.count ≤ TableStore.maxLimit := by
  have longer := (events_steps rest (numbered_steps done numbered)).length_le
  rw [steps_append, Store.count_eq_length_events] at room
  rw [Store.count_eq_length_events]
  exact longer.trans room

/-- The store has been filled, and the replay is poised in it. -/
structure Logged (s : Solo) : Prop where
  holds : s.archive.store.Holds s.archive.store.events
  poised : s.replay.Poised s.archive.store.events

theorem Logged.step (logged : s.Logged) (act : Act)
    (room : (s.step act).archive.store.count ≤ TableStore.maxLimit) : (s.step act).Logged := by
  have poised := permanent_step (Replay.permanent_poised s.config logged.holds) logged.poised act
  have grows := grows_step s act
  obtain ⟨-, more, events⟩ := grows.events logged.holds.events_eq.1
  refine ⟨grows.holds logged.holds room, ?_⟩
  rw [events]
  exact poised.append more

theorem Logged.steps : ∀ (acts : List Act) {s : Solo}, s.Logged →
    (s.steps acts).archive.store.count ≤ TableStore.maxLimit → (s.steps acts).Logged
  | [], _, logged, _ => logged
  | act :: acts, s, logged, room => by
    have room' : (s.step act).archive.store.count ≤ TableStore.maxLimit :=
      room_of_append logged.holds.events_eq.1 [act] room
    exact Logged.steps acts (logged.step act room') room

theorem logged_start {store : Store} {log : List Message} (holds : store.Holds log)
    (config : ReplayConfig) (failing : Request → Bool) :
    (start config ⟨store, failing⟩).Logged where
  holds := holds.events_eq.2.symm ▸ holds
  poised := Replay.poised_start _

end Solo

end EventRelay
