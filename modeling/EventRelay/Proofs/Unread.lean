import EventRelay.Proofs.Transitions

/-!
# What is left unread where the store fails

A replay is exhausted if nothing is at hand and a fetch brings nothing, and it is all the same
whether the store has nothing to bring or fails. So a stream that replays forwards goes live by
itself at the end of history, and also where the store fails: then the events beyond its cursor stay
unread unless the stream is sent back to them. The replay itself is only paused, with its cursor in
place.
-/

namespace EventRelay

open Direction

namespace Cursor

/-- A log holds nothing beyond a cursor that moves forwards: nothing later, and nothing at the time
of the cursor but what counts as taken. A cursor at the least of all times cannot ask for that time.
-/
structure Spent (c : Cursor) (log : List Message) : Prop where
  later : ∀ m ∈ log, m.timestamp ≤ c.last
  here : c.refetches = true → Int64.minValue < c.last → (eventsAt c.last log).length ≤ c.skip

variable {c : Cursor} {log : List Message}

theorem origin_forward_le (c : Cursor) : (c.origin .forward).toInt ≤ c.last.toInt := by
  have := c.last.minValue_le_toInt
  unfold origin
  split_ifs
  · simp only [toInt_before]
    omega
  · exact Int.le_refl _

/-- Of a spent log a cursor reaches no more than it skips. -/
theorem Spent.length_reach_le (spent : c.Spent log) :
    (c.reach .forward (history .forward log)).length ≤ c.skip := by
  by_cases more : c.refetches = true ∧ Int64.minValue < c.last
  · -- all that is reached is at the time of the cursor
    obtain ⟨refetches, above⟩ := more
    refine Nat.le_trans ?_ (spent.here refetches above)
    rw [← length_eventsAt_history (d := .forward), reach, eventsAt,
      ← List.countP_eq_length_filter, ← List.countP_eq_length_filter]
    refine List.countP_mono_left fun m hm reached => ?_
    have early := Int64.le_iff_toInt_le.1 (spent.later m (mem_history.1 hm))
    rw [Int64.lt_iff_toInt_lt] at above
    simp only [decide_eq_true_eq, place, origin_of_refetches refetches, toInt_before] at reached
    exact beq_iff_eq.2 (Int64.toInt_inj.1 (by omega))
  · -- the cursor asks for what is later, and nothing is
    have at_last : c.last.toInt ≤ (c.origin .forward).toInt := by
      unfold origin
      split_ifs with refetches
      · have : ¬Int64.minValue < c.last := fun above => more ⟨refetches, above⟩
        rw [Int64.lt_iff_toInt_lt] at this
        simp only [toInt_before]
        omega
      · exact Int.le_refl _
    rw [reach, List.filter_eq_nil_iff.2 fun m hm => ?_]
    · exact Nat.zero_le _
    · have early := Int64.le_iff_toInt_le.1 (spent.later m (mem_history.1 hm))
      rw [decide_eq_true_eq, place, place]
      omega

/-- Nothing is ahead of a cursor just if the log is spent. -/
theorem ahead_eq_nil_iff (sharp : c.Sharp .forward) (settled : c.Settled log) :
    c.ahead .forward (history .forward log) = [] ↔ c.Spent log := by
  have le := c.origin_forward_le
  rw [ahead, List.drop_eq_nil_iff]
  refine ⟨fun none => ⟨fun m hm => ?_, fun refetches above => ?_⟩, Spent.length_reach_le⟩
  · -- a later event would be reached behind all that is skipped, and nothing is
    by_contra later
    rw [Int64.not_le, Int64.lt_iff_toInt_lt] at later
    have reached : m ∈ c.reach .forward (history .forward log) := by
      refine List.mem_filter.2 ⟨mem_history.2 hm, decide_eq_true ?_⟩
      simp only [place]
      omega
    rw [← List.take_of_length_le none] at reached
    rw [timestamp_of_mem_skipped sharp settled reached] at later
    exact absurd later (Int.lt_irrefl _)
  · rw [← length_eventsAt_history (d := .forward)]
    refine (List.Sublist.length_le ?_).trans none
    refine List.monotone_filter_right _ fun m ht => decide_eq_true ?_
    rw [Int64.lt_iff_toInt_lt] at above
    rw [beq_iff_eq.1 ht, origin_of_refetches refetches]
    simp only [place, toInt_before]
    omega

/-- A fetch keeps the cursor in place, and what it skips is served. -/
theorem sharp_fetch {archive : Archive} {d : Direction} {size : Nat} {taken : List Message}
    {after : Cursor} (holds : archive.store.Holds log) (up : archive.failing .fetch = false)
    (sharp : c.Sharp d) (settled : c.Settled log)
    (fetched : c.fetch archive d size = .ok (taken, after)) :
    after.Settled log ∧ after.Sharp d := by
  rw [fetch_eq holds up sharp settled, Except.ok.injEq, Prod.mk.injEq] at fetched
  obtain ⟨rfl, rfl⟩ := fetched
  have split := (List.take_append_drop size (c.ahead d (history d log))).symm
  rcases hm : ((c.ahead d (history d log)).take size).getLast? with _ | m
  · rw [List.getLast?_eq_none_iff.1 hm]
    exact ⟨settled, sharp⟩
  · exact ⟨settled_advance split hm sharp settled, sharp_advance split hm⟩

end Cursor

/-! ## Replays in their place -/

namespace Replay

/-- What counts as taken at the time of the cursor is in the log, and a fetch passes it over. -/
structure Placed (r : Replay) (log : List Message) : Prop where
  settled : r.cursor.Settled log
  sharp : r.cursor.Sharp r.direction

variable {r : Replay} {log : List Message} {config : ReplayConfig} {archive : Archive}

theorem Placed.congr {r' : Replay} (placed : r.Placed log) (hc : r'.cursor = r.cursor)
    (hs : r'.speed = r.speed) : r'.Placed log where
  settled := hc ▸ placed.settled
  sharp := by
    rw [direction, hs, hc]
    exact placed.sharp

theorem placed_of_skip (none : r.cursor.skip = 0) : r.Placed log where
  settled := by
    rw [Cursor.Settled, none]
    exact Nat.zero_le _
  sharp pos := absurd none (Nat.ne_of_gt pos)

theorem Placed.append (placed : r.Placed log) (ms : List Message) : r.Placed (log ++ ms) where
  settled := placed.settled.append ms
  sharp := placed.sharp

theorem Placed.fill (holds : archive.store.Holds log) (placed : r.Placed log) :
    (r.fill config archive).Placed log := by
  have fetched {events : List Message} {cursor : Cursor}
      (he : r.cursor.fetch archive r.direction config.bufferSize = .ok (events, cursor)) :
      cursor.Settled log ∧ cursor.Sharp r.direction := by
    rcases up : archive.failing .fetch with _ | _
    · exact Cursor.sharp_fetch holds up placed.sharp placed.settled he
    · rw [Cursor.fetch, Archive.fetch, if_pos up] at he
      cases he
  unfold Replay.fill
  split_ifs
  · split
    · next he => exact ⟨(fetched he).1, (fetched he).2⟩
    · exact placed
  · exact placed

/-- Whatever a replay is told and however it plays, its cursor is in place. -/
theorem permanent_placed (config : ReplayConfig) (holds : archive.store.Holds log) :
    Permanent config archive fun r => r.Placed log where
  start := placed_of_skip rfl
  seek r _ now p := placed_of_skip (by rw [cursor_seek]; cases p <;> rfl)
  setSpeed r placed now x accepted := by
    by_cases same : Direction.ofSpeed x = r.direction
    · rw [setSpeed_same same]
      refine ⟨placed.settled, ?_⟩
      change r.cursor.Sharp (Direction.ofSpeed x)
      rw [same]
      exact placed.sharp
    · refine placed_of_skip ?_
      rw [(setSpeed_turned _ same).2.1, Cursor.skip]
      exact ite_self _
  pause r placed := placed.congr r.pause_fields.2.1 r.pause_fields.2.2
  takeDue r placed := by
    obtain ⟨due, rest, -, hdue, -⟩ := takeDue_eq config r
    rw [hdue]
    exact placed.congr rfl rfl
  proceed r placed now := by
    obtain ⟨-, hc, hs, -⟩ := schedule_spec now (r.fill config archive)
    exact (placed.fill holds).congr hc hs

/-- Nothing is at hand, and the store fails or holds nothing beyond the cursor. -/
def FindsNothing (r : Replay) (archive : Archive) : Prop :=
  r.buffer = [] ∧ (archive.failing .fetch = true ∨ r.cursor.Spent archive.store.events)

/-- A forward replay that finds nothing is before a store that fails, or that holds nothing beyond
its cursor. -/
theorem fetch_nil_iff (holds : archive.store.Holds log) (placed : r.Placed log)
    (forward : r.direction = .forward) :
    (∀ events cursor, r.cursor.fetch archive r.direction config.bufferSize = .ok (events, cursor) →
      events = []) ↔ archive.failing .fetch = true ∨ r.cursor.Spent log := by
  have sharp := placed.sharp
  rw [forward] at sharp ⊢
  rcases up : archive.failing .fetch with _ | _
  · rw [← Cursor.ahead_eq_nil_iff sharp placed.settled,
      Cursor.fetch_eq holds up sharp placed.settled]
    refine ⟨fun unfetched => .inr ?_, fun ended events cursor he => ?_⟩
    · rcases List.take_eq_nil_iff.1 (unfetched _ _ rfl) with zero | none
      · exact absurd zero (Nat.ne_of_gt config.bufferSize_pos)
      · exact none
    · have none := ended.resolve_left Bool.false_ne_true
      rw [none, List.take_nil] at he
      cases he
      rfl
  · rw [Cursor.fetch, Archive.fetch, if_pos up]
    refine ⟨fun _ => .inl rfl, fun _ events cursor fetched => ?_⟩
    cases fetched

theorem proceed_exhausted_iff_findsNothing (holds : archive.store.Holds log)
    (placed : r.Placed log) (forward : r.direction = .forward) (config : ReplayConfig)
    (now : Instant) :
    (r.proceed config archive now).2 = .exhausted ↔ r.FindsNothing archive := by
  rw [proceed_exhausted_iff, fetch_nil_iff holds placed forward, FindsNothing, holds.events_eq.2]

/-- Without a fetch a replay stays where it is, and of what is at hand it loses what is due. -/
theorem lasting_cursor (failing : archive.failing .fetch = true) (told : Replay) :
    Lasting config archive fun r => r.cursor = told.cursor ∧ r.buffer <:+ told.buffer where
  pause r := by
    obtain ⟨hb, hc, -⟩ := r.pause_fields
    rw [hb, hc]
    exact id
  takeDue r kept := by
    obtain ⟨due, rest, hb, hdue, -⟩ := takeDue_eq config r
    rw [hdue]
    exact ⟨kept.1, .trans ⟨due, hb.symm⟩ kept.2⟩
  proceed r kept now := by
    obtain ⟨hb, hc, -⟩ := schedule_spec now r
    rw [proceed, fill_of_failing failing, hb, hc]
    exact kept

/-- A replay with a request carried out on it. -/
def told (r : Replay) (now : Instant) : Control → Replay
  | .start | .stop => r
  | .seek p => r.seek now p
  | .speed x => if acceptsSpeed x then r.setSpeed now x else r

theorem Permanent.told {P : Replay → Prop} (permanent : Permanent config archive P) (hp : P r)
    (now : Instant) (request : Control) : P (r.told now request) := by
  cases request with
  | start | stop => exact hp
  | seek p => exact permanent.seek r hp now p
  | speed x =>
    simp only [Replay.told]
    split_ifs with accepted
    · exact permanent.setSpeed r hp now x accepted
    · exact hp

end Replay

/-! ## Going live alone -/

namespace Hub

/-- What a stream in history does without being sent to the live feed: a timer goes off, somebody
joins or leaves, or a request is for a place or a pace in history. The replay is the one that goes
on. -/
inductive Alone (h : Hub) (i : StreamId) : Replay → Hub → Prop
  | timer (epoch : Nat) : Alone h i (h.stream i).replay (h.fire i epoch)
  | join (c : ConnId) : Alone h i (h.stream i).replay (h.addSubscriber i c)
  | leave (c : ConnId) : Alone h i (h.stream i).replay (h.removeSubscriber i c)
  | request (request : Control)
      (target : Mode.target (h.stream i).replay.speed .replayPlaying request = .replayPlaying) :
      Alone h i ((h.stream i).replay.told h.now request) (h.control i request)

section Alone

variable {h h' : Hub} {i : StreamId} {told : Replay}

theorem Alone.store (alone : h.Alone i told h') :
    h'.config = h.config ∧ h'.archive = h.archive := by
  cases alone with
  | timer epoch =>
    have confined := confined_fire h i epoch
    exact ⟨confined.config, confined.archive⟩
  | join c => exact ⟨config_addSubscriber h i c, archive_addSubscriber h i c⟩
  | leave c =>
    have confined := confined_removeSubscriber h i c
    exact ⟨confined.config, confined.archive⟩
  | request request =>
    have confined := confined_control (h := h) (i := i) request
    exact ⟨confined.config, confined.archive⟩

variable (known : i < h.streams.length) (hm : (h.stream i).mode = .replayPlaying)

include known

theorem live_handleExhausted (forward : (h.stream i).replay.direction = .forward) :
    ((h.handleExhausted i).stream i).live = true := by
  rw [handleExhausted, forward]
  dsimp only
  rw [stream_goLive known]

include hm

/-- A request that leaves a stream in history is carried out on its replay, which is then run. -/
theorem control_replaying {request : Control}
    (target : Mode.target (h.stream i).replay.speed .replayPlaying request = .replayPlaying) :
    h.control i request = h ∧ (h.stream i).replay.told h.now request = (h.stream i).replay ∨
      h.control i request = (h.modifyReplay i fun r => r.told h.now request).runReplay i := by
  obtain ⟨replaying, playing⟩ := Stream.mode_eq_iff.1 hm
  cases request with
  | start => exact .inl ⟨if_pos playing, rfl⟩
  | stop => cases target
  | seek p =>
    refine .inr ?_
    cases p with
    | time t =>
      simp only [control, seekStream, replaying, playing, if_true]
      rfl
    | eof =>
      simp only [Mode.target, Mode.entry] at target
      split_ifs at target with backwards
      simp only [control, seekStream, replaying, playing, backwards, if_true, Bool.not_true,
        Bool.false_eq_true, if_false]
      rfl
  | speed x =>
    simp only [Mode.target, Mode.entry] at target
    split_ifs at target with zero finite
    · have accepted : Replay.acceptsSpeed x = true := by simp [Replay.acceptsSpeed, zero, finite]
      have hs := stream_modifyReplay known (·.setSpeed h.now x)
      refine .inr ?_
      simp only [control, setSpeed, zero, accepted, hs, replaying, playing, Replay.told,
        Bool.not_true, Bool.false_eq_true, if_false, if_true]
    · have infinite : x.isFinite = false := by simpa using finite
      refine .inl ⟨?_, ?_⟩
      · rw [control, setSpeed_of_infinite infinite]
      · simp [Replay.told, Replay.acceptsSpeed, infinite]

/-- What lasts while the replay plays on holds of it afterwards. -/
theorem Alone.lasting {P : Replay → Prop} (lasting : Replay.Lasting h.config h.archive P)
    (hp : P told) (alone : h.Alone i told h') : P (h'.stream i).replay := by
  cases alone with
  | timer epoch => exact lasting_fire lasting epoch hp
  | join c => exact lasting_addSubscriber lasting c hp
  | leave c => exact lasting_removeSubscriber lasting c hp
  | request request target =>
    rcases control_replaying known hm target with ⟨he, same⟩ | he
    · rw [he]
      rwa [same] at hp
    · rw [he]
      refine lasting_runReplay (h := h.modifyReplay i _) lasting ?_
      rwa [stream_modifyReplay known]

theorem Alone.arrives (speed : Replay.acceptsSpeed (h.stream i).replay.speed = true)
    (alone : h.Alone i told h') : h'.Arrives i .replayPlaying := by
  cases alone with
  | timer epoch => exact hm ▸ arrives_fire known speed epoch
  | join c => exact hm ▸ arrives_addSubscriber known speed c
  | leave c => exact .there ((mode_removeSubscriber known c).trans hm)
  | request request target =>
    have arrives := arrives_control known speed request
    rwa [hm, target] at arrives

variable {log : List Message} (holds : h.archive.store.Holds log)
  (placed : (h.stream i).replay.Placed log)

include holds placed

/-- A stream that goes live by itself has found nothing in history, or a store that fails. -/
theorem Alone.findsNothing (speed : Replay.acceptsSpeed (h.stream i).replay.speed = true)
    (alone : h.Alone i told h') (live : (h'.stream i).live = true) :
    (h'.stream i).replay.running = false ∧ (h'.stream i).replay.FindsNothing h.archive := by
  have permanent := Replay.permanent_placed h.config holds
  have kept : (h'.stream i).replay.Placed log := by
    refine alone.lasting known hm permanent.toLasting ?_
    cases alone with
    | timer | join | leave => exact placed
    | request request => exact permanent.told placed h.now request
  obtain ⟨config, archive⟩ := alone.store
  cases alone.arrives known hm speed with
  | there same =>
    rw [(Stream.mode_eq_iff.1 same).1] at live
    cases live
  | live ended forwards =>
    rw [config, archive] at ended
    refine ⟨ended.paused, ended.buffer, ?_⟩
    rw [holds.events_eq.2]
    exact (Replay.fetch_nil_iff holds kept (Replay.forward_of_isPositive forwards)).1 ended.fetch
  | stopped _ _ mode =>
    rw [(Stream.mode_eq_iff.1 mode).1] at live
    cases live

variable (forward : (h.stream i).replay.direction = .forward)

include forward

/-- Where a replay is run for those who watch. -/
theorem live_runReplay_iff : ((h.runReplay i).stream i).live = true ↔ h.audience i ≠ [] ∧
    ((h.stream i).replay.running && (h.stream i).replay.timer.isSome) = false ∧
    (h.stream i).replay.FindsNothing h.archive := by
  obtain ⟨replaying, playing⟩ := Stream.mode_eq_iff.1 hm
  rw [← Replay.proceed_exhausted_iff_findsNothing holds placed forward h.config h.now,
    ← Replay.run_exhausted_iff]
  unfold runReplay
  split_ifs with none
  · have none : h.audience i = [] := List.length_eq_zero_iff.1 none
    rw [pauseReplay, stream_modifyReplay known]
    simp [replaying, none]
  · have watched : h.audience i ≠ [] := fun he => none (List.length_eq_zero_iff.2 he)
    have hs := stream_modifyReplay known fun r => (r.run h.config h.archive h.now).1
    have known' := (confined_modifyReplay h i fun r =>
      (r.run h.config h.archive h.now).1).known known
    dsimp only
    split
    · next scheduled =>
      rw [hs]
      simp [replaying, scheduled]
    · next exhausted =>
      refine iff_of_true (live_handleExhausted known' ?_) ⟨watched, exhausted⟩
      rw [hs, Replay.direction, Replay.speed_run]
      exact forward

/-- And where it goes on after a timer has gone off. -/
theorem live_resume_iff (epoch : Nat) : ((h.resume i epoch).stream i).live = true ↔
    (h.stream i).replay.epoch = epoch ∧ (h.stream i).replay.running = true ∧
    (h.stream i).replay.FindsNothing h.archive := by
  obtain ⟨replaying, playing⟩ := Stream.mode_eq_iff.1 hm
  rw [← Replay.proceed_exhausted_iff_findsNothing holds placed forward h.config h.now]
  unfold resume
  split_ifs with overtaken
  · rw [replaying]
    simp only [Bool.or_eq_true, decide_eq_true_eq, Bool.not_eq_true'] at overtaken
    refine iff_of_false Bool.false_ne_true fun ⟨same, running, _⟩ => ?_
    rcases overtaken with other | stopped
    · exact other same
    · rw [running] at stopped
      cases stopped
  · simp only [Bool.or_eq_true, decide_eq_true_eq, Bool.not_eq_true', not_or, not_not,
      Bool.not_eq_false] at overtaken
    have hs := stream_modifyReplay known fun r => (r.proceed h.config h.archive h.now).1
    have known' := (confined_modifyReplay h i fun r =>
      (r.proceed h.config h.archive h.now).1).known known
    split
    · next scheduled =>
      rw [hs]
      simp [replaying, scheduled]
    · next exhausted =>
      refine iff_of_true ?_ ⟨overtaken.1, overtaken.2, exhausted⟩
      rw [replayExhausted, hs]
      dsimp only
      rw [(Replay.proceed_exhausted exhausted).1,
        if_neg (by simp [replaying, playing, overtaken.1])]
      refine live_handleExhausted known' ?_
      rw [hs, Replay.direction, Replay.speed_proceed]
      exact forward

end Alone

/-- How a stream that plays history comes to leave it. -/
structure Leaves (h : Hub) (i : StreamId) : Prop where
  /-- By itself it goes live only with its replay paused, nothing at hand, and a store that fails or
  holds nothing beyond the cursor. -/
  alone : ∀ told after, h.Alone i told after → (after.stream i).live = true →
    (after.stream i).replay.running = false ∧ (after.stream i).replay.FindsNothing h.archive
  /-- While the store fails the cursor stays in place, and of what is at hand only a first part
  goes. -/
  place : h.archive.failing .fetch = true → ∀ told after, h.Alone i told after →
    (after.stream i).replay.cursor = told.cursor ∧ (after.stream i).replay.buffer <:+ told.buffer
  /-- A forward replay that is run goes live just if it finds nothing. -/
  runs : (h.stream i).replay.direction = .forward → (((h.runReplay i).stream i).live = true ↔
    h.audience i ≠ [] ∧ ((h.stream i).replay.running && (h.stream i).replay.timer.isSome) = false ∧
    (h.stream i).replay.FindsNothing h.archive)
  /-- And so does one that goes on after its timer has gone off. -/
  resumes : (h.stream i).replay.direction = .forward → ∀ epoch,
    (((h.resume i epoch).stream i).live = true ↔ (h.stream i).replay.epoch = epoch ∧
    (h.stream i).replay.running = true ∧ (h.stream i).replay.FindsNothing h.archive)

end Hub

/-! ## Every relay -/

namespace Store

theorem count_eq_length_events (s : Store) : s.count = s.events.length := by
  rcases s with s | s
  · exact ((List.mergeSort_perm ..).length_eq.symm.trans (List.length_map _).symm)
  · exact (List.length_map _).symm

/-- What becomes of a store: it may be given a batch. -/
def Grows (s s' : Store) : Prop := s' = s ∨ ∃ ms, s' = (s.appendBatch ms).1

variable {s s' : Store}

/-- It only ever gets more events. -/
theorem Grows.events (grows : s.Grows s') (numbered : s.Numbered) :
    s'.Numbered ∧ ∃ more, s'.events = s.events ++ more := by
  rcases grows with rfl | ⟨ms, rfl⟩
  · exact ⟨numbered, [], (List.append_nil _).symm⟩
  · obtain ⟨still, events⟩ := numbered.appendBatch ms
    exact ⟨still, _, events⟩

theorem Grows.holds (grows : s.Grows s') (holds : s.Holds s.events)
    (room : s'.count ≤ TableStore.maxLimit) : s'.Holds s'.events := by
  rcases grows with rfl | ⟨ms, rfl⟩
  · exact holds
  · obtain ⟨-, events⟩ := holds.events_eq.1.appendBatch ms
    rw [count_eq_length_events, events] at room
    rw [events]
    exact holds.append ms room

end Store

namespace Relay

variable {r : Relay}

theorem grows_step (r : Relay) (act : Act) :
    r.hub.archive.store.Grows (r.step act).hub.archive.store := by
  by_cases data : ∃ s run, act = .handle s (.data run)
  · obtain ⟨s, run, rfl⟩ := data
    rw [archive_step_data, Archive.appendBatch]
    split_ifs
    · exact .inl rfl
    · exact .inl rfl
    · exact .inr ⟨run, rfl⟩
  · exact .inl (store_step r fun s run he => data ⟨s, run, he⟩)

theorem events_steps : ∀ (acts : List Act) {r : Relay}, r.hub.archive.store.Numbered →
    r.hub.archive.store.events <+: (r.steps acts).hub.archive.store.events
  | [], _, _ => List.prefix_refl _
  | act :: acts, r, numbered =>
    have ⟨still, more, events⟩ := (grows_step r act).events numbered
    .trans ⟨more, events.symm⟩ (events_steps acts still)

/-- The store has been filled, and all replays are in their place in it. -/
structure Logged (r : Relay) : Prop where
  holds : r.hub.archive.store.Holds r.hub.archive.store.events
  placed : r.hub.Replays fun replay => replay.Placed r.hub.archive.store.events

theorem Logged.step (logged : r.Logged) (act : Act)
    (room : (r.step act).hub.archive.store.count ≤ TableStore.maxLimit) : (r.step act).Logged := by
  have placed := replays_step (Replay.permanent_placed r.hub.config logged.holds) logged.placed act
  have grows := grows_step r act
  obtain ⟨-, more, events⟩ := grows.events logged.holds.events_eq.1
  refine ⟨grows.holds logged.holds room, fun i hi => ?_⟩
  rw [events]
  exact (placed i hi).append more

theorem Logged.steps : ∀ (acts : List Act) {r : Relay}, r.Logged →
    (r.steps acts).hub.archive.store.count ≤ TableStore.maxLimit → (r.steps acts).Logged
  | [], _, logged, _ => logged
  | act :: acts, r, logged, room => by
    have numbered := ((grows_step r act).events logged.holds.events_eq.1).1
    have room' : (r.step act).hub.archive.store.count ≤ TableStore.maxLimit := by
      rw [Store.count_eq_length_events] at room ⊢
      exact (events_steps acts numbered).length_le.trans room
    exact Logged.steps acts (logged.step act room') room

/-- However a relay has come to its state, and wherever its store has failed: a stream that plays
history leaves it by itself at the end of what is stored, and where the store fails. -/
theorem leaves_history {store : Store} {log : List Message} (holds : store.Holds log)
    (failing : Request → Bool) (config : ReplayConfig) (epoch : Int64) (readOnly : Bool)
    (acts : List Act) :
    let r := (start ⟨store, failing⟩ config epoch readOnly).steps acts
    r.hub.archive.store.count ≤ TableStore.maxLimit → ∀ i < r.hub.streams.length,
      (r.hub.stream i).mode = .replayPlaying → r.hub.Leaves i := by
  intro r room i known hm
  have started : (start ⟨store, failing⟩ config epoch readOnly).Logged :=
    ⟨holds.events_eq.2.symm ▸ holds, fun _ hi => absurd hi (Nat.not_lt_zero _)⟩
  have logged : r.Logged := started.steps acts room
  have placed := logged.placed i known
  have speed := replays_speed acts (r := start ⟨store, failing⟩ config epoch readOnly)
    (fun _ hi => absurd hi (Nat.not_lt_zero _)) i known
  exact {
    alone := fun told after alone => alone.findsNothing known hm logged.holds placed speed
    place := fun failing told after alone =>
      alone.lasting known hm (Replay.lasting_cursor failing told) ⟨rfl, List.suffix_refl _⟩
    runs := fun forward => Hub.live_runReplay_iff known hm logged.holds placed forward
    resumes := fun forward => Hub.live_resume_iff known hm logged.holds placed forward }

/-- A stream whose store fails when it comes to fetch the second of two events: it goes live, with
its cursor at the first. -/
theorem leaves_history_failing :
    let event (t : Int64) : Message := .current t (.test ⟨"a", []⟩)
    let store := (Store.memory.appendBatch [event 100, event 200]).1
    let r := (start ⟨store, fun _ => false⟩ ⟨1, 1, by decide, by decide⟩ 0 false).steps
      [.accept 4, .handle 0 (.control (.current 0 (.seek (.time 0)))),
        .handle 0 (.control (.current 0 .start)), .fail .fetch true]
    let epoch := (r.hub.stream 0).replay.epoch
    store.Holds [event 100, event 200] ∧
      r.hub.archive.store.count ≤ TableStore.maxLimit ∧ 0 < r.hub.streams.length ∧
      (r.hub.stream 0).mode = .replayPlaying ∧ ((r.hub.fire 0 epoch).stream 0).live = true ∧
      ((r.hub.fire 0 epoch).stream 0).replay.running = false ∧
      ((r.hub.fire 0 epoch).stream 0).replay.FindsNothing r.hub.archive ∧
      ((r.hub.fire 0 epoch).stream 0).replay.cursor = ⟨100, false, 1⟩ := by
  intro event store r epoch
  have empty : Store.memory.Holds [] := .memory
  have holds : store.Holds [event 100, event 200] :=
    empty.append [event 100, event 200] (by decide)
  have room : r.hub.archive.store.count ≤ TableStore.maxLimit := by decide
  have known : 0 < r.hub.streams.length := by decide
  have mode : (r.hub.stream 0).mode = .replayPlaying := by decide
  have live : ((r.hub.fire 0 epoch).stream 0).live = true := by decide
  have leaves : r.hub.Leaves 0 := leaves_history holds _ _ 0 false _ room 0 known mode
  obtain ⟨paused, nothing⟩ := leaves.alone _ _ (.timer epoch) live
  have place := (leaves.place rfl _ _ (.timer epoch)).1
  refine ⟨holds, room, known, mode, live, paused, nothing, place.trans ?_⟩
  decide

/-- The event that such a stream does not come to is stored, beyond its cursor, and is not sent. The
relay is a read-only one, so that its store stays as it is. -/
theorem goes_live_unread :
    let event (t : Int64) : Message := .current t (.test ⟨"a", []⟩)
    let store := (Store.memory.appendBatch [event 100, event 200]).1
    let fresh := start ⟨store, fun _ => false⟩ ⟨1, 1, by decide, by decide⟩ 0 true
    let r := fresh.steps [.accept 4, .handle 0 (.control (.current 0 (.seek (.time 0)))),
      .handle 0 (.control (.current 0 .start)), .fail .fetch true]
    r.Reachable ∧ (r.hub.stream 0).mode = .replayPlaying ∧
      (r.hub.stream 0).replay.direction = .forward ∧ r.Allows (.tick 0) ∧
      ((r.step (.tick 0)).hub.stream 0).mode = .livePlaying ∧
      ((r.step (.tick 0)).hub.connection 0).queue = [[event 100]] ∧
      event 200 ∈ (r.step (.tick 0)).hub.archive.store.events ∧
      ¬((r.step (.tick 0)).hub.stream 0).replay.cursor.Spent
        (r.step (.tick 0)).hub.archive.store.events := by
  intro event store fresh r
  have reachable : r.Reachable := by
    refine ⟨_, _, _, _, _, ?_, rfl⟩
    decide
  have empty : Store.memory.Holds [] := .memory
  have holds : store.Holds [event 100, event 200] :=
    empty.append [event 100, event 200] (by decide)
  have stored : event 200 ∈ store.events := by
    rw [holds.events_eq.2]
    decide
  have readOnly : fresh.readOnly = true := rfl
  have before : r.hub.archive.store = store := store_steps_readOnly _ readOnly
  have after : (r.step (.tick 0)).hub.archive.store = store :=
    (store_step_readOnly r (by decide) (.tick 0)).trans before
  have beyond : ¬(event 200).timestamp ≤
      ((r.step (.tick 0)).hub.stream 0).replay.cursor.last := by decide
  rw [after]
  refine ⟨reachable, by decide, by decide, by decide, by decide, by decide, stored, fun spent => ?_⟩
  exact beyond (spent.later (event 200) stored)

end Relay

end EventRelay
