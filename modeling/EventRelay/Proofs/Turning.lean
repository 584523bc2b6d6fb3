import EventRelay.Proofs.Poised

/-!
# Turning around

A replay that turns around forgets what it has at hand and goes the other way from its clock: it
delivers the stored events strictly beyond the clock. Until something has been fetched since the
last seek there is nothing to forget, and the replay still stands at the position sought, with the
events of that time on either side of it. Between the two there is no third state, however the
replay was paused, resumed and turned before.

The clock is at the event that is delivered next. So a replay that turns twice stands behind that
event, and does not deliver it.
-/

namespace EventRelay

open Direction

/-- The clock at a position. The ends of history have no time of their own. -/
def Position.clock : Position → Option Int64
  | .time t => if 0 < t then some t else none
  | .eof => none

theorem Position.clock_eq_some {p : Position} {c : Int64} :
    p.clock = some c ↔ p = .time c ∧ 0 < c := by
  rcases p with t | _
  · rw [clock]
    split_ifs with pos
    · simp only [Option.some.injEq, time.injEq]
      exact ⟨fun same => ⟨same, same ▸ pos⟩, And.left⟩
    · simp only [time.injEq, false_iff, not_and]
      exact fun same => same ▸ pos
  · simp [clock]

/-- The events of a log strictly beyond a time, in the order of play. -/
def beyond (d : Direction) (t : Int64) (log : List Message) : List Message :=
  (history d log).filter fun m => d.place t < d.place m.timestamp

theorem mem_beyond {d : Direction} {t : Int64} {log : List Message} {m : Message} :
    m ∈ beyond d t log ↔ m ∈ log ∧ d.place t < d.place m.timestamp := by
  rw [beyond, List.mem_filter, mem_history, decide_eq_true_eq]

/-- What is before a time in one direction is beyond it in the other. -/
theorem Direction.place_lt_of_ne {d e : Direction} (ne : e ≠ d) {s t : Int64} :
    e.place s < e.place t ↔ d.place t < d.place s := by
  rcases d with _ | _ <;> rcases e with _ | _ <;> first | exact absurd rfl ne | skip
  · rw [place_reverse_lt, place_forward_lt]
  · rw [place_reverse_lt, place_forward_lt]

namespace Replay

/-- Nothing has been fetched since the replay was sent to a position. -/
structure Fresh (p : Position) (r : Replay) : Prop where
  empty : r.buffer = []
  cursor : r.cursor = p.cursor
  clock : r.clock = p.clock

/-- The replay has left the position sought, and its clock is set. -/
structure Underway (r : Replay) : Prop where
  left : r.cursor.inclusive = false
  clock : r.clock.isSome = true

section Turned

variable {r : Replay} {now : Instant} {x : Binary32} {log : List Message}
  (turned : Direction.ofSpeed x ≠ r.direction)

include turned

/-- A fresh replay turns around at the position sought. -/
theorem Fresh.cursor_turned {p : Position} (h : r.Fresh p) :
    (r.setSpeed now x).cursor = p.cursor := by
  rw [(setSpeed_turned _ turned).2.1, h.cursor, h.clock]
  rcases p with t | _ <;> rfl

theorem upcoming_turned : (r.setSpeed now x).upcoming log =
    (r.setSpeed now x).cursor.ahead (.ofSpeed x) (history (.ofSpeed x) log) := by
  rw [upcoming, (setSpeed_turned _ turned).1, direction, speed_setSpeed, List.nil_append]

/-- Underway a replay turns around at its clock. -/
theorem Underway.upcoming_turned (h : r.Underway) {c : Int64} (clock : r.clock = some c) :
    (r.setSpeed now x).upcoming log = beyond (.ofSpeed x) c log := by
  rw [Replay.upcoming_turned turned, (setSpeed_turned _ turned).2.1, h.left, clock]
  rfl

end Turned

section Phases

variable {r : Replay} {now : Instant} {p : Position}

theorem fresh_start : start.Fresh (.time 0) := ⟨rfl, rfl, rfl⟩

theorem fresh_seek : (r.seek now p).Fresh p where
  empty := buffer_seek
  cursor := cursor_seek
  clock := by rcases p with t | _ <;> exact (rearm_fields _ now).2.2.2.2

/-- A fetch that brings something moves the cursor to the last of it. -/
theorem fill_cases (r : Replay) (config : ReplayConfig) (archive : Archive) :
    r.fill config archive = r ∨ ∃ taken m, taken.getLast? = some m ∧
      r.fill config archive =
        { r with buffer := taken, cursor := r.cursor.advance taken } := by
  unfold fill
  split_ifs with hb
  · split
    · next taken after fetched =>
      obtain rfl := Cursor.advance_of_fetch fetched
      rcases hm : taken.getLast? with _ | m
      · obtain rfl := List.getLast?_eq_none_iff.1 hm
        refine .inl (?_ : { r with buffer := [] } = r)
        rw [← hb]
      · exact .inr ⟨taken, m, hm, rfl⟩
    · exact .inl rfl
  · exact .inl rfl

theorem leading_underway (config : ReplayConfig) (archive : Archive) :
    Leading config archive Underway Underway where
  weaken _ := id
  setSpeed r h now x _ := by
    by_cases same : Direction.ofSpeed x = r.direction
    · rw [setSpeed_same same]
      exact ⟨h.left, h.clock⟩
    · obtain ⟨-, hc, -, ht⟩ := setSpeed_turned now same
      exact ⟨by rw [hc]; exact h.left, ht ▸ h.clock⟩
  pause r h := ⟨r.pause_fields.2.1 ▸ h.left, r.clock_pause ▸ h.clock⟩
  takeDue r h := by
    obtain ⟨due, rest, -, hdue, -⟩ := takeDue_eq config r
    rw [hdue]
    exact ⟨h.left, h.clock⟩
  proceed r h now := by
    obtain ⟨-, hc, -⟩ := schedule_spec now (r.fill config archive)
    have ht := clock_schedule (r.fill config archive) now
    have filled : (r.fill config archive).Underway := by
      rcases fill_cases r config archive with he | ⟨taken, m, hm, he⟩
      · rw [he]
        exact h
      · rw [he]
        exact ⟨by rw [Cursor.advance_of_getLast? hm], h.clock⟩
    refine ⟨hc ▸ filled.left, ?_⟩
    rw [proceed, ht, Option.isSome_or, filled.clock, Bool.or_true]

/-- A replay goes on from the position sought by fetching something. -/
theorem leading_fresh (config : ReplayConfig) (archive : Archive) (p : Position) :
    Leading config archive (Fresh p) fun r => r.Fresh p ∨ r.Underway ∧ r.buffer ≠ [] where
  weaken _ := .inl
  setSpeed r h now x _ := by
    by_cases same : Direction.ofSpeed x = r.direction
    · rw [setSpeed_same same]
      exact ⟨h.empty, h.cursor, h.clock⟩
    · obtain ⟨hb, -, -, ht⟩ := setSpeed_turned now same
      exact ⟨hb, h.cursor_turned same, ht.trans h.clock⟩
  pause r h :=
    ⟨r.pause_fields.1.trans h.empty, r.pause_fields.2.1.trans h.cursor, r.clock_pause.trans h.clock⟩
  takeDue r h := by
    obtain ⟨due, rest, hb, hdue, -⟩ := takeDue_eq config r
    rw [h.empty, eq_comm, List.append_eq_nil_iff] at hb
    rw [hdue]
    exact ⟨hb.2, h.cursor, h.clock⟩
  proceed r h now := by
    obtain ⟨hb, hc, -⟩ := schedule_spec now (r.fill config archive)
    have ht := clock_schedule (r.fill config archive) now
    rcases fill_cases r config archive with he | ⟨taken, m, hm, he⟩
    · rw [he] at hb hc ht
      rw [h.empty] at ht
      exact .inl ⟨by rw [proceed, he, hb, h.empty], by rw [proceed, he, hc, h.cursor],
        by rw [proceed, he, ht]; exact h.clock⟩
    · have filled : (r.fill config archive).buffer ≠ [] := by
        rw [he]
        exact List.ne_nil_of_mem (List.mem_of_getLast? hm)
      refine .inr ⟨⟨?_, ?_⟩, by rwa [proceed, hb]⟩
      · rw [proceed, hc, he, Cursor.advance_of_getLast? hm]
      · obtain ⟨x, rest, hx⟩ := List.exists_cons_of_ne_nil filled
        rw [proceed, ht, hx]
        rfl

end Phases

end Replay

/-! ## What was fetched since the last seek -/

namespace Solo

/-- The position that was sought last. -/
def sought : List Act → Position :=
  List.foldl (fun p act => match act with | .seek q => q | _ => p) (.time 0)

/-- Events have been fetched since the last seek: at some time since then some were at hand. -/
def HasFetched (s : Solo) (acts : List Act) : Prop :=
  ∃ done rest, acts = done ++ rest ∧ (∀ p, .seek p ∉ rest) ∧ (s.steps done).replay.buffer ≠ []

section Fetched

variable {s : Solo} {acts : List Act} {act : Act}

theorem unsought_concat {rest : List Act} (unsought : ∀ p, .seek p ∉ rest)
    (stays : ∀ p, act ≠ .seek p) (p : Position) : .seek p ∉ rest ++ [act] := fun hp =>
  (List.mem_append.1 hp).elim (unsought p) fun hp => stays p (List.mem_singleton.1 hp).symm

theorem hasFetched_concat : s.HasFetched (acts ++ [act]) ↔
    s.HasFetched acts ∧ (∀ p, act ≠ .seek p) ∨
      (s.steps (acts ++ [act])).replay.buffer ≠ [] := by
  constructor
  · rintro ⟨done, rest, split, unsought, atHand⟩
    rcases List.eq_nil_or_concat' rest with rfl | ⟨rest, last, rfl⟩
    · rw [List.append_nil] at split
      exact .inr (split ▸ atHand)
    · rw [← List.append_assoc, List.append_singleton_inj] at split
      obtain ⟨rfl, rfl⟩ := split
      exact .inl ⟨⟨done, rest, rfl, fun p hp => unsought p (by simp [hp]), atHand⟩,
        fun p hp => unsought p (by simp [hp])⟩
  · rintro (⟨⟨done, rest, rfl, unsought, atHand⟩, stays⟩ | atHand)
    · exact ⟨done, rest ++ [act], List.append_assoc .., unsought_concat unsought stays, atHand⟩
    · exact ⟨acts ++ [act], [], (List.append_nil _).symm, nofun, atHand⟩

theorem sought_seek (acts : List Act) (p : Position) : sought (acts ++ [.seek p]) = p := by
  rw [sought, List.foldl_append]
  rfl

theorem sought_of_stays (stays : ∀ p, act ≠ .seek p) : sought (acts ++ [act]) = sought acts := by
  rw [sought, List.foldl_append]
  cases act <;> first | rfl | exact absurd rfl (stays _)

/-- A replay is fresh or underway, depending on whether events were fetched since the last seek. -/
theorem phase (fresh : s.replay.Fresh (.time 0)) (acts : List Act) :
    (s.HasFetched acts → (s.steps acts).replay.Underway) ∧
      (¬s.HasFetched acts → (s.steps acts).replay.Fresh (sought acts)) := by
  induction acts using List.reverseRecOn with
  | nil =>
    refine ⟨fun ⟨done, rest, split, _, atHand⟩ => absurd fresh.empty ?_, fun _ => fresh⟩
    obtain ⟨rfl, rfl⟩ := List.append_eq_nil_iff.1 split.symm
    exact atHand
  | append_singleton acts act ih =>
    rw [hasFetched_concat, steps_append]
    by_cases seeks : ∃ p, act = .seek p
    · obtain ⟨p, rfl⟩ := seeks
      have fresh' : ((s.steps acts).step (.seek p)).replay.Fresh p := Replay.fresh_seek
      rw [sought_seek]
      refine ⟨fun fetched => ?_, fun _ => fresh'⟩
      rcases fetched with ⟨-, stays⟩ | atHand
      · exact absurd rfl (stays p)
      · exact absurd fresh'.empty atHand
    · have stays : ∀ p, act ≠ .seek p := fun p he => seeks ⟨p, he⟩
      rw [sought_of_stays stays]
      by_cases fetched : s.HasFetched acts
      · have underway := leading_step (Replay.leading_underway _ _) (ih.1 fetched) stays
        exact ⟨fun _ => underway, fun none => absurd (.inl ⟨fetched, stays⟩) none⟩
      · rcases leading_step (Replay.leading_fresh _ _ _) (ih.2 fetched) stays with
          fresh' | ⟨underway, atHand⟩
        · refine ⟨fun h => ?_, fun _ => fresh'⟩
          rcases h with ⟨h, -⟩ | atHand
          · exact absurd h fetched
          · exact absurd fresh'.empty atHand
        · exact ⟨fun _ => underway, fun none => absurd (.inr atHand) none⟩

end Fetched

/-! ## What a replay delivers that has turned around -/

theorem anchored_fire {s : Solo} (h : s.replay.Anchored) (epoch : Nat) :
    (s.fire epoch).replay.Anchored := by
  rcases fire_cases s epoch with ⟨-, hs⟩ | ⟨-, hs | hs | ⟨stopped, hs⟩⟩ <;> rw [hs]
  · exact h
  · exact fun hr => absurd hr (by simp [Replay.not_running_pause])
  · exact (Replay.schedule_spec s.now _).2.2.2.1
  · exact fun running => absurd running (by simp [stopped])

theorem anchored_step {s : Solo} (h : s.replay.Anchored) (act : Act) :
    (s.step act).replay.Anchored := by
  cases act with
  | seek p =>
    intro _ m rest hb
    rw [step, Replay.buffer_seek] at hb
    cases hb
  | speed x =>
    rw [step]
    split_ifs with hx
    · by_cases same : Direction.ofSpeed x = s.replay.direction
      · rw [Replay.setSpeed_same same]
        exact h
      · intro _ m rest hb
        rw [(Replay.setSpeed_turned _ same).1] at hb
        cases hb
    · exact h
  | run =>
    rw [step, Solo.run, Replay.run]
    split_ifs
    · exact h
    · exact (Replay.schedule_spec s.now _).2.2.2.1
  | pause => exact fun hr => absurd hr (by simp [step, Replay.not_running_pause])
  | tick =>
    rw [step]
    split
    · exact h
    · exact anchored_fire h _
  | late epoch => exact anchored_fire h epoch
  | wait | append | fail | leave => exact h

theorem anchored_steps : ∀ (acts : List Act) {s : Solo}, s.replay.Anchored →
    (s.steps acts).replay.Anchored
  | [], _, h => h
  | act :: acts, _, h => anchored_steps acts (anchored_step h act)

/-- All that a replay needs to play on is in place. -/
structure Ready (s : Solo) : Prop extends s.Logged where
  timed : s.replay.Timed
  anchored : s.replay.Anchored
  up : s.archive.failing .fetch = false
  listening : s.listening = true

theorem ready_steps {store : Store} {log : List Message} (holds : store.Holds log)
    (failing : Request → Bool) (config : ReplayConfig) (acts : List Act) :
    let s := (start config ⟨store, failing⟩).steps acts
    s.archive.store.count ≤ TableStore.maxLimit → s.archive.failing .fetch = false →
      s.listening = true → s.Ready := fun room up listening =>
  { (logged_start holds config failing).steps acts room with
    timed := timed_steps Replay.start_timed acts
    anchored := anchored_steps acts fun running => absurd running Bool.false_ne_true
    up, listening }

section Ready

variable {s : Solo} (ready : s.Ready)

include ready

theorem Ready.playing : s.Playing s.replay.direction s.archive.store.events where
  holds := ready.holds
  up := ready.up
  listening := ready.listening
  direction := rfl
  settled := ready.poised.settled
  sharp := ready.poised.sharp
  timed := ready.timed
  anchored := ready.anchored

variable {x : Binary32} (accepted : Replay.acceptsSpeed x = true)

include accepted

theorem Ready.setSpeed : { s with replay := s.replay.setSpeed s.now x }.Ready where
  holds := ready.holds
  poised := (Replay.permanent_poised s.config ready.holds).setSpeed _ ready.poised s.now x accepted
  timed := Replay.setSpeed_timed ready.timed s.now x
  anchored := by
    have := anchored_step ready.anchored (.speed x)
    rwa [step, if_pos accepted] at this
  up := ready.up
  listening := ready.listening

/-- With another speed a replay delivers what is upcoming then. -/
theorem Ready.delivers_setSpeed :
    { s with replay := s.replay.setSpeed s.now x }.Delivers (.ofSpeed x)
    ((s.replay.setSpeed s.now x).upcoming s.archive.store.events) := by
  have playing := (ready.setSpeed accepted).playing
  have hd : (s.replay.setSpeed s.now x).direction = .ofSpeed x :=
    congrArg Direction.ofSpeed Replay.speed_setSpeed
  rw [hd] at playing
  exact playing.delivers

end Ready

/-- However a replay has come to its state: a speed to the other side turns it around at its clock,
if events were fetched since the last seek, and else at the position sought. From there it delivers
what is stored on the new side, and nothing that was at hand. A speed that is none leaves it as it
is. -/
theorem turns_at_clock {store : Store} {log₀ : List Message} (holds : store.Holds log₀)
    (failing : Request → Bool) (config : ReplayConfig) (acts : List Act) :
    let s₀ := start config ⟨store, failing⟩
    let s := s₀.steps acts
    let log := s.archive.store.events
    s.archive.store.count ≤ TableStore.maxLimit → Bounded log →
    s.archive.failing .fetch = false → s.listening = true → ∀ x,
    (Replay.acceptsSpeed x = true → Direction.ofSpeed x ≠ s.replay.direction →
      let d := Direction.ofSpeed x
      let turned := s.step (.speed x)
      turned.replay.running = s.replay.running ∧
      (s₀.HasFetched acts → ∃ c, s.replay.clock = some c ∧ turned.Delivers d (beyond d c log) ∧
        ∀ m ∈ s.replay.buffer, m ∉ beyond d c log) ∧
      (¬s₀.HasFetched acts → turned.Delivers d ((sought acts).course d log))) ∧
    (x.isZero = true ∨ x.isFinite = false → s.step (.speed x) = s) := by
  intro s₀ s log room bounded up listening x
  have ready : s.Ready := ready_steps holds failing config acts room up listening
  obtain ⟨underway, fresh⟩ := phase (s := s₀) Replay.fresh_start acts
  refine ⟨fun accepted turned => ?_, fun refused => if_neg ?_⟩
  · have delivers := ready.delivers_setSpeed accepted
    intro d after
    have hafter : after = { s with replay := s.replay.setSpeed s.now x } := if_pos accepted
    rw [hafter]
    refine ⟨(Replay.setSpeed_turned _ turned).2.2.1, fun fetched => ?_, fun unfetched => ?_⟩
    · obtain ⟨c, clock⟩ := Option.isSome_iff_exists.1 (underway fetched).clock
      rw [(underway fetched).upcoming_turned turned clock] at delivers
      refine ⟨c, clock, delivers, fun m hm behind => ?_⟩
      -- what is at hand is at the clock or on its other side
      obtain ⟨c', clock', le⟩ := ready.poised.front m hm
      obtain rfl : c = c' := Option.some.inj (clock.symm.trans clock')
      have lt := (place_lt_of_ne turned).1 (mem_beyond.1 behind).2
      omega
    · rw [Replay.upcoming_turned turned, (fresh unfetched).cursor_turned turned,
        Position.ahead_cursor _ bounded] at delivers
      exact delivers
  · rcases refused with zero | infinite
    · simp [Replay.acceptsSpeed, zero]
    · simp [Replay.acceptsSpeed, infinite]

/-- Three events, the second of them about to be delivered when the replay turns around: the first
is delivered again. -/
theorem turns_at_clock_second :
    let event (t : Int64) : Message := .current t (.test ⟨"a", []⟩)
    let stored := [event 100, event 200, event 300]
    let s₀ := start ⟨10, 1, by decide, by decide⟩
      ⟨(Store.memory.appendBatch stored).1, fun _ => false⟩
    let acts : List Act := [.seek (.time 100), .run, .tick]
    let turned := (s₀.steps acts).step (.speed ⟨0xbf800000⟩)
    s₀.HasFetched acts ∧ (s₀.steps acts).replay.clock = some 200 ∧
      (s₀.steps acts).replay.buffer = [event 200, event 300] ∧
      delivered ((turned.steps [.tick, .tick]).since turned) = [event 100] := by
  intro event stored s₀ acts turned
  have holds : (Store.memory.appendBatch stored).1.Holds stored :=
    (Store.Holds.memory : Store.memory.Holds []).append stored (by decide)
  have same : (s₀.steps acts).archive.store = (Store.memory.appendBatch stored).1 := by decide
  have log : (s₀.steps acts).archive.store.events = stored := same ▸ holds.events_eq.2
  have fetched : s₀.HasFetched acts := ⟨acts, [], rfl, nofun, by decide⟩
  have clock : (s₀.steps acts).replay.clock = some 200 := by decide
  have bounded : Bounded (s₀.steps acts).archive.store.events := by
    rw [log]
    decide
  obtain ⟨c, clock', delivers, -⟩ := ((turns_at_clock holds (fun _ => false) _ acts (by decide)
    bounded (by decide) (by decide) ⟨0xbf800000⟩).1 (by decide) (by decide)).2.1 fetched
  obtain rfl : (200 : Int64) = c := Option.some.inj (clock.symm.trans clock')
  refine ⟨fetched, clock, by decide, ?_⟩
  have reverse : Direction.ofSpeed ⟨0xbf800000⟩ = .reverse := by decide
  rw [(delivers [.tick, .tick] (by decide) (by decide)).whole (by decide), log, reverse, beyond,
    history, inOrder_of_ordered (by decide)]
  decide

/-- Turned to the other side and back again, a replay plays on as it would have, if nothing was
fetched since the last seek. Else it stands at its clock, and delivers what is stored strictly
beyond: of what it had yet to deliver, all but the events at the clock. -/
theorem turns_twice {store : Store} {log₀ : List Message} (holds : store.Holds log₀)
    (failing : Request → Bool) (config : ReplayConfig) (acts : List Act) :
    let s₀ := start config ⟨store, failing⟩
    let s := s₀.steps acts
    let log := s.archive.store.events
    let d := s.replay.direction
    let course := s.replay.upcoming log
    s.archive.store.count ≤ TableStore.maxLimit → s.archive.failing .fetch = false →
    s.listening = true → ∀ x y, Replay.acceptsSpeed x = true → Replay.acceptsSpeed y = true →
    Direction.ofSpeed x ≠ d → Direction.ofSpeed y = d →
      let back := (s.step (.speed x)).step (.speed y)
      back.replay.running = s.replay.running ∧ s.Delivers d course ∧
      (¬s₀.HasFetched acts → back.Delivers d course) ∧
      (s₀.HasFetched acts → ∃ c, s.replay.clock = some c ∧ back.Delivers d (beyond d c log) ∧
        ∀ m ∈ course, m.timestamp ≠ c → m ∈ beyond d c log) := by
  intro s₀ s log d course room up listening x y acceptedX acceptedY turned same back
  have ready : s.Ready := ready_steps holds failing config acts room up listening
  obtain ⟨underway, fresh⟩ := phase (s := s₀) Replay.fresh_start acts
  have hback : back = { s with
      replay := (s.replay.setSpeed s.now x).setSpeed s.now y } := by
    change (if _ then _ else _) = _
    rw [if_pos acceptedY, step, if_pos acceptedX]
  have turned' : Direction.ofSpeed y ≠ (s.replay.setSpeed s.now x).direction := by
    rw [Replay.direction, Replay.speed_setSpeed, same]
    exact turned.symm
  have delivers := (ready.setSpeed acceptedX).delivers_setSpeed acceptedY
  rw [← hback, same] at delivers
  obtain ⟨-, -, running, clock₁⟩ := Replay.setSpeed_turned s.now turned
  refine ⟨?_, ready.playing.delivers, fun unfetched => ?_, fun fetched => ?_⟩
  · rw [hback]
    exact (Replay.setSpeed_turned _ turned').2.2.1.trans running
  · have fresh' := (Replay.leading_fresh s.config s.archive _).setSpeed _ (fresh unfetched) s.now x
      acceptedX
    rw [Replay.upcoming_turned turned', fresh'.cursor_turned turned', same] at delivers
    have here : course = (sought acts).cursor.ahead d (history d log) := by
      rw [← (fresh unfetched).cursor, ← List.nil_append (Cursor.ahead ..),
        ← (fresh unfetched).empty]
      rfl
    rwa [here]
  · obtain ⟨c, clock⟩ := Option.isSome_iff_exists.1 (underway fetched).clock
    have underway' := (Replay.leading_underway s.config s.archive).setSpeed _ (underway fetched)
      s.now x acceptedX
    rw [underway'.upcoming_turned turned' (clock₁.trans clock), same] at delivers
    refine ⟨c, clock, delivers, fun m hm other => mem_beyond.2 ?_⟩
    obtain ⟨stored, le⟩ := ready.poised.upcoming (underway fetched).left clock hm
    exact ⟨stored, lt_of_le_of_ne le fun e => other (place_inj.1 e).symm⟩

/-- Of three events the second is about to be delivered, and is lost. -/
theorem turns_twice_second :
    let event (t : Int64) : Message := .current t (.test ⟨"a", []⟩)
    let stored := [event 100, event 200, event 300]
    let s₀ := start ⟨10, 1, by decide, by decide⟩
      ⟨(Store.memory.appendBatch stored).1, fun _ => false⟩
    let acts : List Act := [.seek (.time 100), .run, .tick]
    let back := ((s₀.steps acts).step (.speed ⟨0xbf800000⟩)).step (.speed .one)
    s₀.HasFetched acts ∧ (s₀.steps acts).replay.clock = some 200 ∧
      delivered ((back.steps [.tick, .tick]).since back) = [event 300] := by
  intro event stored s₀ acts back
  have holds : (Store.memory.appendBatch stored).1.Holds stored :=
    (Store.Holds.memory : Store.memory.Holds []).append stored (by decide)
  have same : (s₀.steps acts).archive.store = (Store.memory.appendBatch stored).1 := by decide
  have log : (s₀.steps acts).archive.store.events = stored := same ▸ holds.events_eq.2
  have fetched : s₀.HasFetched acts := ⟨acts, [], rfl, nofun, by decide⟩
  have clock : (s₀.steps acts).replay.clock = some 200 := by decide
  have forward : (s₀.steps acts).replay.direction = .forward := by decide
  obtain ⟨c, clock', delivers, -⟩ := (turns_twice holds (fun _ => false) _ acts (by decide)
    (by decide) (by decide) ⟨0xbf800000⟩ .one (by decide) (by decide) (by decide)
    (by decide)).2.2.2 fetched
  obtain rfl : (200 : Int64) = c := Option.some.inj (clock.symm.trans clock')
  refine ⟨fetched, clock, ?_⟩
  rw [(delivers [.tick, .tick] (by decide) (by decide)).whole (by decide), log, forward, beyond,
    history, inOrder_of_ordered (by decide)]
  decide

/-- Two events are about to be delivered. After two turns only the second one is. -/
theorem turns_twice_loses :
    let event (t : Int64) : Message := .current t (.test ⟨"a", []⟩)
    let s := (start ⟨10, 1, by decide, by decide⟩
      ⟨(Store.memory.appendBatch [event 100, event 200]).1, fun _ => false⟩).steps
        [.seek (.time 100), .run]
    let back := s.steps [.speed ⟨0xbf800000⟩, .speed .one]
    let acts : List Act := [.tick, .tick]
    s.replay.direction = .forward ∧ back.replay.direction = .forward ∧
      s.Allowed acts ∧ 0 < s.ends acts ∧
      delivered ((s.steps acts).since s) = [event 100, event 200] ∧
      back.Allowed acts ∧ 0 < back.ends acts ∧
      delivered ((back.steps acts).since back) = [event 200] := by
  decide

/-- Two events were delivered together. After two turns the second one comes again. -/
example :
    let event (t : Int64) : Message := .current t (.test ⟨"a", []⟩)
    let s := (start ⟨10, 250, by decide, by decide⟩
      ⟨(Store.memory.appendBatch [event 100, event 200]).1, fun _ => false⟩).steps
        [.seek (.time 100), .run, .tick]
    let back := s.steps [.speed ⟨0xbf800000⟩, .speed .one]
    s.heard = [.exhausted 0 1, .delivered 0 [event 100, event 200]] ∧
      delivered ((s.steps [.run]).since s) = [] ∧
      delivered ((back.steps [.run, .tick]).since back) = [event 200] := by
  decide

end Solo

end EventRelay
