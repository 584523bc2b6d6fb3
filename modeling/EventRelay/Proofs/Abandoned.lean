import EventRelay.Proofs.Heard
import EventRelay.Proofs.Inert

/-!
# Streams that are kept

A stream that nobody holds any more is kept for its description, or because it has been joined more
than once: whoever leaves a stream takes it out of the catalog unless it is kept for one of the two.
But the count of joins does not tell who has joined. A connection that leaves a stream and comes
back counts twice, so that a stream may be kept that nobody else has ever watched.
-/

namespace EventRelay

/-- What decides whether a stream is kept. -/
def Stream.merits (s : Stream) : String × Nat := (s.description, s.joins)

namespace Hub

/-! ## Descriptions and joins -/

/-- What decides which streams are kept. -/
def merits (h : Hub) : List (String × Nat) := h.streams.map Stream.merits

section Merits

variable {h h' : Hub} (i : StreamId)

theorem description_eq (same : h'.merits = h.merits) :
    (h'.stream i).description = (h.stream i).description :=
  congrArg Prod.fst (part_stream same i)

theorem joins_eq (same : h'.merits = h.merits) : (h'.stream i).joins = (h.stream i).joins :=
  congrArg Prod.snd (part_stream same i)

theorem inert_merits : Inert merits :=
  inert_map (fun _ _ => rfl) (fun _ _ => rfl) (fun _ _ => rfl) fun _ _ => rfl

end Merits

/-! ## What is kept -/

/-- Whatever is in the catalog is held by a session, has a description, or has been joined more than
once. -/
def Kept (h : Hub) (held : List (Option StreamId)) : Prop :=
  ∀ e ∈ h.catalog, some e.2 ∈ held ∨ (h.stream e.2).description ≠ "" ∨ 2 ≤ (h.stream e.2).joins

/-- What has been taken out of the catalog had no description and was joined once at most. -/
def Spares (h h' : Hub) : Prop :=
  ∀ e ∈ h.catalog, e ∉ h'.catalog →
    (h.stream e.2).description = "" ∧ (h.stream e.2).joins ≤ 1

section Kept

variable {h h' : Hub} {held : List (Option StreamId)} {i : StreamId} {c : ConnId}

theorem spares_of_catalog (same : h'.catalog = h.catalog) : h.Spares h' := by
  intro e he gone
  rw [same] at gone
  exact absurd he gone

theorem Kept.congr (hk : h.Kept held) (catalog : h'.catalog = h.catalog)
    (merits : h'.merits = h.merits) : h'.Kept held := by
  intro e he
  rw [catalog] at he
  rw [description_eq e.2 merits, joins_eq e.2 merits]
  exact hk e he

/-- What a step does to a stream that is held is no reason to keep it or not. -/
theorem Kept.confined (hk : h.Kept held) (hi : some i ∈ held) (hc : Confined i h h') :
    h'.Kept held := by
  intro e he
  rw [hc.catalog] at he
  by_cases hei : e.2 = i
  · rw [hei]
    exact .inl hi
  · rw [hc.others e.2 hei]
    exact hk e he

/-- A stream that another session holds is held whatever a session comes to hold. -/
theorem mem_set_of_ne {o o' : Option StreamId} (hc : held[c]? = some o) (hne : o ≠ some i)
    (hi : some i ∈ held) : some i ∈ held.set c o' := by
  obtain ⟨d, hd⟩ := List.mem_iff_getElem?.1 hi
  have other : c ≠ d := by
    rintro rfl
    rw [hc, Option.some_inj] at hd
    exact hne hd
  rw [← List.getElem?_set_ne other (a := o')] at hd
  exact List.mem_of_getElem? hd

theorem Tidy.eq_of_uid (ht : h.Tidy held) (hi : i < h.streams.length) {e : UInt32 × StreamId}
    (he : e ∈ h.catalog) (hu : e.1 = (h.stream i).uid) : e.2 = i := by
  obtain ⟨known, uid⟩ := ht.catalog e he
  by_contra hne
  exact ht.uid_ne hi known hne (uid.symm.trans hu)

/-- After leaving a stream, it is out of the catalog just if it is abandoned. -/
theorem mem_catalog_leave_iff (ht : h.Tidy held) (hi : i < h.streams.length)
    {e : UInt32 × StreamId} (he : e ∈ h.catalog) (c : ConnId) :
    e ∈ ((h.removeSubscriber i c).removeIfAbandoned i).1.catalog ↔
      (e.2 = i → (h.removeSubscriber i c).isAbandoned i = false) := by
  have confined := confined_removeSubscriber h i c
  by_cases hei : e.2 = i
  · have hu : e.1 = ((h.removeSubscriber i c).stream i).uid := by
      rw [confined.uid, (ht.catalog e he).2, hei]
    have found : ((h.removeSubscriber i c).catalog.get?
        ((h.removeSubscriber i c).stream i).uid).isSome = true := by
      rw [confined.catalog, Index.get?, ← hu, List.lookup_isSome_iff]
      exact ⟨e, he, by simp⟩
    unfold removeIfAbandoned
    dsimp only
    rw [found, Bool.and_true]
    split_ifs with abandoned
    · simp [mem_erase, hu, hei, abandoned]
    · simp [confined.catalog, he, abandoned]
  · refine iff_of_true ?_ fun h => absurd h hei
    exact mem_catalog_leave he (fun hu => hei (ht.eq_of_uid hi he hu)) c

theorem catalog_leave_subset (h : Hub) (i : StreamId) (c : ConnId) :
    ((h.removeSubscriber i c).removeIfAbandoned i).1.catalog ⊆ h.catalog := by
  have confined := confined_removeSubscriber h i c
  unfold removeIfAbandoned
  dsimp only
  intro e he
  split_ifs at he
  · rw [← confined.catalog]
    exact (mem_erase.1 he).1
  · rwa [← confined.catalog]

theorem merits_leave (h : Hub) (i : StreamId) (c : ConnId) :
    ((h.removeSubscriber i c).removeIfAbandoned i).1.merits = h.merits := by
  rw [← inert_merits.removeSubscriber h i c, removeIfAbandoned]
  dsimp only
  split_ifs <;> rfl

theorem Tidy.spares_leave (ht : h.Tidy held) (hi : i < h.streams.length) (c : ConnId) :
    h.Spares ((h.removeSubscriber i c).removeIfAbandoned i).1 := by
  intro e he gone
  rw [mem_catalog_leave_iff ht hi he] at gone
  obtain ⟨hei, abandoned⟩ := Classical.not_imp.1 gone
  have merits := inert_merits.removeSubscriber h i c
  simp only [isAbandoned, Bool.not_eq_false, Bool.and_eq_true, decide_eq_true_eq,
    String.isEmpty_iff, description_eq i merits, joins_eq i merits] at abandoned
  rw [hei]
  exact ⟨abandoned.2, abandoned.1.1⟩

theorem Kept.leave (hk : h.Kept held) (ht : h.Tidy held) (hc : held[c]? = some (some i)) :
    ((h.removeSubscriber i c).removeIfAbandoned i).1.Kept (held.set c none) := by
  have hi := ht.known_of_catalog (ht.holding i (List.mem_of_getElem? hc))
  have merits := inert_merits.removeSubscriber h i c
  intro e he
  have old := catalog_leave_subset h i c he
  rw [description_eq _ (merits_leave h i c), joins_eq _ (merits_leave h i c)]
  by_cases hei : e.2 = i
  · have kept := (mem_catalog_leave_iff ht hi old c).1 he hei
    simp only [isAbandoned, Bool.and_eq_false_iff, decide_eq_false_iff_not, description_eq i merits,
      joins_eq i merits, Nat.not_le] at kept
    rw [hei]
    rcases kept with (joined | watched) | described
    · exact .inr (.inr joined)
    · -- somebody else watches, and so holds the stream
      obtain ⟨d, hd⟩ := List.exists_mem_of_ne_nil _ fun h => watched (List.length_eq_zero_iff.2 h)
      have other : c ≠ d := by
        rintro rfl
        exact not_mem_removeSubscriber hi c (Confined.mem_audience.1 hd).1
      have holds := ht.watching i d ((confined_removeSubscriber h i c).audience hd)
      rw [← List.getElem?_set_ne other (a := none)] at holds
      exact .inl (List.mem_of_getElem? holds)
    · exact .inr (.inl (by simpa using described))
  · exact (hk e old).imp_left fun holds =>
      mem_set_of_ne hc (fun h => hei (Option.some.inj h).symm) holds

theorem merits_join (hc : c ∉ h.audience i) :
    (h.addSubscriber i c).merits = (h.enrol i c).merits := by
  rw [addSubscriber_eq hc]
  split_ifs
  · exact inert_merits.play _ i
  · rfl

theorem joins_join (hi : i < h.streams.length) (hc : c ∉ h.audience i) (j : StreamId) :
    ((h.addSubscriber i c).stream j).joins =
      (h.stream j).joins + if j = i then 1 else 0 := by
  rw [joins_eq j (merits_join hc)]
  split_ifs with hj
  · rw [hj, stream_enrol_self hi]
  · rw [stream_enrol_ne c hj, Nat.add_zero]

theorem catalog_addSubscriber (h : Hub) (i : StreamId) (c : ConnId) :
    (h.addSubscriber i c).catalog = h.catalog := by
  obtain ⟨m, rfl | rfl, confined⟩ := confined_addSubscriber h i c
  · exact confined.catalog
  · exact confined.catalog

theorem Kept.join (hk : h.Kept held) (ht : h.Tidy held)
    (hc : held[c]? = some none) : (h.addSubscriber i c).Kept (held.set c (some i)) := by
  obtain ⟨hlt, -⟩ := List.getElem?_eq_some_iff.1 hc
  have merits := merits_join (ht.watches_none hc i)
  intro e he
  rw [catalog_addSubscriber] at he
  by_cases hei : e.2 = i
  · exact .inl (hei ▸ List.mem_of_getElem? (List.getElem?_set_self hlt))
  · rw [description_eq e.2 merits, joins_eq e.2 merits, stream_enrol_ne c hei]
    exact (hk e he).imp_left (mem_set_of_ne hc nofun)

theorem Tidy.ne_nextUid (ht : h.Tidy held) {e : UInt32 × StreamId}
    (he : e ∈ h.catalog) : e.1 ≠ h.nextUid := by
  obtain ⟨known, uid⟩ := ht.catalog e he
  rw [uid, ht.uids e.2 known, ht.nextUid]
  intro same
  exact Nat.ne_of_lt known (uid_inj (Nat.lt_trans known ht.few) ht.few same)

/-- A new stream that is joined at once is held. -/
theorem Kept.create (hk : h.Kept held) (ht : h.Tidy held)
    (few : h.streams.length + 1 < 4294967295) (hc : held[c]? = some none) :
    (h.createStream.1.addSubscriber h.createStream.2 c).Kept
      (held.set c (some h.createStream.2)) := by
  obtain ⟨hlt, -⟩ := List.getElem?_eq_some_iff.1 hc
  have merits := merits_join ((ht.createStream few).watches_none hc h.createStream.2)
  intro e he
  rw [catalog_addSubscriber] at he
  rcases (mem_insert _).1 he with rfl | ⟨he, -⟩
  · exact .inl (List.mem_of_getElem? (List.getElem?_set_self hlt))
  · have old : e.2 ≠ h.createStream.2 := Nat.ne_of_lt (ht.catalog e he).1
    have same : h.createStream.1.stream e.2 = h.stream e.2 :=
      (stream_createStream h e.2).trans (if_neg old)
    rw [description_eq e.2 merits, joins_eq e.2 merits, stream_enrol_ne c old, same]
    exact (hk e he).imp_left (mem_set_of_ne hc nofun)

theorem joins_create (ht : h.Tidy held) (few : h.streams.length + 1 < 4294967295)
    (hc : held[c]? = some none) (j : StreamId) :
    ((h.createStream.1.addSubscriber h.createStream.2 c).stream j).joins =
      (h.stream j).joins + if j = h.createStream.2 then 1 else 0 := by
  have known : h.createStream.2 < h.createStream.1.streams.length := by
    rw [streams_createStream]
    exact Nat.lt_succ_self _
  rw [joins_join known ((ht.createStream few).watches_none hc _), stream_createStream]
  congr 1
  split_ifs with hj
  · rw [Relay.stream_eq_default (Nat.not_lt.2 (Nat.le_of_eq hj.symm))]
    rfl
  · rfl

end Kept

end Hub

/-! ## Sessions -/

namespace Desk

open Hub

/-- What a session has done: it has joined what it holds and did not hold before, and nothing has
left the catalog, or stayed there unheld, without reason. -/
structure Accounts (d d' : Desk) (held : List (Option StreamId)) : Prop where
  joins : ∀ i, (d'.hub.stream i).joins = (d.hub.stream i).joins +
    if d.session.stream ≠ some i ∧ d'.session.stream = some i then 1 else 0
  spares : d.hub.Spares d'.hub
  kept : d.hub.Kept held → d'.hub.Kept (held.set d.session.connection d'.session.stream)

variable {d : Desk} {held : List (Option StreamId)}

theorem Sound.set_self (hd : d.Sound held) :
    held.set d.session.connection d.session.stream = held := by
  obtain ⟨hlt, he⟩ := List.getElem?_eq_some_iff.1 hd.session
  rw [← he, List.set_getElem_self]

theorem Sound.accounts_stay (hd : d.Sound held) {hub : Hub}
    (catalog : hub.catalog = d.hub.catalog) (merits : hub.merits = d.hub.merits) :
    d.Accounts { d with hub } held where
  joins i := by
    rw [if_neg fun h => h.1 h.2]
    exact joins_eq i merits
  spares := spares_of_catalog catalog
  kept hk := by
    rw [hd.set_self]
    exact hk.congr catalog merits

theorem Sound.accounts_streamFor (hd : d.Sound held)
    (few : d.streamFor.1.hub.streams.length < 4294967295) : d.Accounts d.streamFor.1 held := by
  unfold Desk.streamFor at few ⊢
  rcases hs : d.session.stream with _ | i
  · simp only [hs, streams_addSubscriber, streams_createStream] at few ⊢
    have session := hd.session
    rw [hs] at session
    refine ⟨fun j => ?_, fun e he gone => absurd ?_ gone, fun hk => ?_⟩
    · simpa [hs, eq_comm] using joins_create hd.hub.toTidy few session j
    · rw [catalog_addSubscriber]
      exact (mem_insert _).2 (.inr ⟨he, hd.hub.ne_nextUid he⟩)
    · exact hk.create hd.hub.toTidy few session
  · exact hd.accounts_stay rfl rfl

theorem Sound.accounts_onStream (hd : d.Sound held) {f : Hub → StreamId → Hub}
    (confined : ∀ h i, Confined i h (f h i))
    (few : (d.onStream f).hub.streams.length < 4294967295) : d.Accounts (d.onStream f) held := by
  have few' : d.streamFor.1.hub.streams.length < 4294967295 :=
    (confined d.streamFor.1.hub d.streamFor.2).streams ▸ few
  obtain ⟨turn, stream⟩ := hd.streamFor few'
  obtain ⟨joins, spares, kept⟩ := hd.accounts_streamFor few'
  have step := confined d.streamFor.1.hub d.streamFor.2
  have holds := (turn.sound hd).session
  rw [turn.connection] at holds
  refine ⟨fun i => (step.joins_eq i).trans (joins i), fun e he gone => ?_, fun hk => ?_⟩
  · exact spares e he (step.catalog ▸ gone)
  · exact (kept hk).confined (stream ▸ List.mem_of_getElem? holds) step

theorem Sound.accounts_leave (hd : d.Sound held) {i : StreamId}
    (hi : d.session.stream = some i) :
    (∀ j, ((d.leave i).hub.stream j).joins = (d.hub.stream j).joins) ∧
      d.hub.Spares (d.leave i).hub ∧
      (d.hub.Kept held → (d.leave i).hub.Kept (held.set d.session.connection none)) := by
  have session := hd.session
  rw [hi] at session
  exact ⟨fun j => joins_eq j (merits_leave d.hub i _), hd.hub.spares_leave (hd.known hi) _,
    fun hk => hk.leave hd.hub.toTidy session⟩

theorem Sound.accounts_disconnect (hd : d.Sound held) : d.Accounts d.disconnect held := by
  unfold Desk.disconnect
  split
  · exact hd.accounts_stay rfl rfl
  · next i hi =>
    obtain ⟨joins, spares, kept⟩ := hd.accounts_leave hi
    exact ⟨fun j => by simpa [Desk.leave] using joins j, spares, kept⟩

theorem Sound.accounts_subscribe (hd : d.Sound held) (uid : UInt32) :
    d.Accounts (d.subscribe uid).1 held := by
  unfold Desk.subscribe
  rcases ht : d.hub.getStream? uid with _ | target
  · exact hd.accounts_stay rfl rfl
  have listed := mem_catalog ht
  obtain ⟨known, hu⟩ := hd.hub.catalog _ listed
  have session := hd.session
  rcases hs : d.session.stream with _ | current
  · rw [hs] at session
    refine ⟨fun j => ?_, spares_of_catalog (catalog_addSubscriber ..), fun hk => ?_⟩
    · simpa [hs, eq_comm, join] using joins_join known (hd.hub.watches_none session target) j
    · exact hk.join hd.hub.toTidy session
  · dsimp only
    split_ifs with same
    · exact hd.accounts_stay rfl rfl
    · obtain ⟨joins, spares, kept⟩ := hd.accounts_leave hs
      have left := hd.leave hs
      have free : (held.set d.session.connection none)[d.session.connection]? = some none :=
        List.getElem?_set_self (List.getElem?_eq_some_iff.1 session).1
      have other : target ≠ current := by
        rintro rfl
        exact same hu.symm
      refine ⟨fun j => ?_, fun e he gone => spares e he fun h => gone ?_, fun hk => ?_⟩
      · have joined := joins_join (left.catalog _
          (mem_catalog_leave listed (Ne.symm same) d.session.connection)).1
            (left.watches_none free target) j
        rw [joins j] at joined
        refine joined.trans ?_
        by_cases hj : j = target
        · simp [hs, hj, join, other.symm]
        · simp [hj, join, Ne.symm hj]
      · exact (catalog_addSubscriber ..).symm ▸ h
      · have joined := (kept hk).join left.toTidy free (i := target)
        rwa [List.set_set] at joined

theorem Sound.accounts_handleRun (hd : d.Sound held) (run : Run)
    (few : (d.handleRun run).1.hub.streams.length < 4294967295) :
    d.Accounts (d.handleRun run).1 held := by
  cases run with
  | data events =>
    rw [Desk.handleRun, Desk.handleData_eq]
    refine hd.accounts_stay ((inert_catalog.broadcast _ events).trans ?_)
      ((inert_merits.broadcast _ events).trans ?_)
    all_goals split_ifs <;> rfl
  | control m =>
    obtain ⟨timestamp, version, payload⟩ := m
    cases payload with
    | start => exact hd.accounts_onStream confined_startStream few
    | stop => exact hd.accounts_onStream confined_stopStream few
    | seek p => exact hd.accounts_onStream (confined_seekStream · · p) few
    | speed x => exact hd.accounts_onStream (confined_setSpeed · · x) few
    | subscribeStream uid => exact hd.accounts_subscribe uid
    | streamDescription text => exact hd.accounts_onStream (confined_describe · · text) few
    | _ => exact hd.accounts_stay rfl rfl

end Desk

/-! ## The relay -/

namespace Relay

/-- The session that an act makes join a stream. -/
def joiner (i : StreamId) (r : Relay) : Act → List SessionId
  | .handle s run =>
    if (r.session s).stream ≠ some i ∧ ((r.step (.handle s run)).session s).stream = some i then [s]
    else []
  | _ => []

/-- The sessions that join a stream in a run of acts, in order, each as often as it joins. -/
def joined (i : StreamId) : Relay → List Act → List SessionId
  | _, [] => []
  | r, act :: acts => r.joiner i act ++ joined i (r.step act) acts

/-- What an act does to the catalog, and to what keeps streams in it. -/
structure Accounts (r r' : Relay) (joined : StreamId → List SessionId) : Prop where
  joins : ∀ i, (r'.hub.stream i).joins = (r.hub.stream i).joins + (joined i).length
  spares : r.hub.Spares r'.hub
  kept : r.hub.Kept r.held → r'.hub.Kept r'.held

section Accounts

variable {r r' : Relay}

theorem accounts_same (catalog : r'.hub.catalog = r.hub.catalog)
    (merits : r'.hub.merits = r.hub.merits) (held : ∀ i, some i ∈ r.held → some i ∈ r'.held) :
    r.Accounts r' fun _ => [] where
  joins i := Hub.joins_eq i merits
  spares := Hub.spares_of_catalog catalog
  kept hk e he := (hk.congr catalog merits e he).imp_left (held e.2)

theorem Sound.accounts_put (hr : r.Sound) {s : SessionId} (hs : s < r.sessions.length) {d : Desk}
    (accounts : (r.desk s).Accounts d r.held) : r.Accounts (r.put s d) fun i =>
      if (r.session s).stream ≠ some i ∧ d.session.stream = some i then [s] else [] where
  joins i := by
    refine (accounts.joins i).trans (congrArg _ ?_)
    rw [apply_ite List.length]
    rfl
  spares := accounts.spares
  kept hk := by
    have := accounts.kept hk
    rw [Relay.desk, hr.connections s hs] at this
    rwa [Relay.held, Relay.put, List.map_set]

theorem Sound.accounts_step (hr : r.Sound) {act : Act} (ha : r.Allows act) (orderly : act.Orderly) :
    r.Accounts (r.step act) fun i => r.joiner i act := by
  obtain ⟨ha, few⟩ := ha
  cases act with
  | accept capacity =>
    refine accounts_same rfl rfl fun i hi => ?_
    rw [Relay.step, Relay.accept, Relay.held, List.map_append]
    exact List.mem_append_left _ hi
  | handle s run =>
    have accounts := hr.accounts_put ha ((hr.desk ha).accounts_handleRun run few)
    simpa only [joiner, Relay.step, session_put r ha, if_true] using accounts
  | disconnect s =>
    have accounts := hr.accounts_put ha (hr.desk ha).accounts_disconnect
    have none : ∀ i, ¬((r.session s).stream ≠ some i ∧
        (r.desk s).disconnect.session.stream = some i) := by
      rintro i ⟨held, holds⟩
      unfold Desk.disconnect at holds
      split at holds
      · exact held holds
      · cases holds
    simpa only [joiner, none, if_false, Relay.step, Relay.disconnect] using accounts
  | vanish s => exact orderly.elim
  | drop s => exact orderly.elim
  | reply s batch => exact accounts_same rfl rfl fun _ hi => hi
  | drain s => exact accounts_same rfl rfl fun _ hi => hi
  | close s => exact accounts_same rfl rfl fun _ hi => hi
  | dropWriter s => exact accounts_same rfl rfl fun _ hi => hi
  | tick i =>
    rw [Relay.step]
    split
    · exact accounts_same rfl rfl fun _ hi => hi
    · exact accounts_same (Hub.inert_catalog.fire r.hub i _) (Hub.inert_merits.fire r.hub i _)
        fun _ hi => hi
  | late i epoch =>
    exact accounts_same (Hub.inert_catalog.fire r.hub i _) (Hub.inert_merits.fire r.hub i _)
      fun _ hi => hi
  | wait now => exact accounts_same rfl rfl fun _ hi => hi
  | fail request on => exact accounts_same rfl rfl fun _ hi => hi

theorem Sound.accounts_steps : ∀ {acts : List Act} {r : Relay}, r.Sound → r.Allowed acts →
    (∀ act ∈ acts, act.Orderly) →
      (∀ i, ((r.steps acts).hub.stream i).joins =
        (r.hub.stream i).joins + (joined i r acts).length) ∧
      (r.hub.Kept r.held → (r.steps acts).hub.Kept (r.steps acts).held)
  | [], _, _, _, _ => ⟨fun _ => rfl, id⟩
  | act :: acts, r, hr, allowed, orderly => by
    rw [List.forall_mem_cons] at orderly
    have first := hr.accounts_step allowed.1 orderly.1
    obtain ⟨joins, kept⟩ := (hr.step allowed.1).accounts_steps allowed.2 orderly.2
    refine ⟨fun i => (joins i).trans ?_, fun hk => kept (first.kept hk)⟩
    rw [first.joins i, joined, List.length_append, Nat.add_assoc]

theorem allowed_append {before acts : List Act} (h : r.Allowed (before ++ acts)) :
    r.Allowed before ∧ (r.steps before).Allowed acts := by
  induction before generalizing r with
  | nil => exact ⟨trivial, h⟩
  | cons act before ih =>
    obtain ⟨allowed, later⟩ := ih h.2
    exact ⟨⟨h.1, allowed⟩, later⟩

/-- Who joins twice is two sessions, or one that comes back. -/
theorem two_or_back : ∀ {joined : List SessionId}, 2 ≤ joined.length →
    (∃ s ∈ joined, ∃ t ∈ joined, s ≠ t) ∨ ∃ s, 2 ≤ joined.count s
  | s :: t :: joined, _ => by
    by_cases same : s = t
    · exact .inr ⟨s, by simp [same]⟩
    · exact .inl ⟨s, by simp, t, by simp, same⟩

end Accounts

/-- Once no session holds a stream any more, whatever is left in the catalog has a description, or
two sessions have joined it, or one has come back to it. And what is taken out of the catalog has no
description then, and has not been joined by two. -/
theorem keeps_with_reason (archive : Archive) (config : ReplayConfig) (epoch : Int64)
    (readOnly : Bool) (acts : List Act)
    (allowed : (start archive config epoch readOnly).Allowed acts)
    (orderly : ∀ act ∈ acts, act.Orderly) :
    let r := start archive config epoch readOnly
    ((∀ s < (r.steps acts).sessions.length, ((r.steps acts).session s).stream = none) →
      ∀ e ∈ (r.steps acts).hub.catalog,
        ((r.steps acts).hub.stream e.2).description ≠ "" ∨
        (∃ s ∈ joined e.2 r acts, ∃ t ∈ joined e.2 r acts, s ≠ t) ∨
        ∃ s, 2 ≤ (joined e.2 r acts).count s) ∧
    ∀ before act after, acts = before ++ act :: after →
      ∀ e ∈ (r.steps before).hub.catalog, e ∉ ((r.steps before).step act).hub.catalog →
        ((r.steps before).hub.stream e.2).description = "" ∧
        ∀ s ∈ joined e.2 r before, ∀ t ∈ joined e.2 r before, s = t := by
  intro r
  have sound := start_sound archive config epoch readOnly
  refine ⟨fun free e he => ?_, fun before act after split e he gone => ?_⟩
  · obtain ⟨joins, kept⟩ := sound.accounts_steps allowed orderly
    have unheld : some e.2 ∉ (r.steps acts).held := by
      intro holds
      obtain ⟨s, hs⟩ := List.mem_iff_getElem?.1 holds
      obtain ⟨there, stream⟩ := stream_of_held hs
      rw [free s there] at stream
      cases stream
    refine (kept (fun e he => nomatch he) e he).resolve_left unheld |>.imp_right fun many => ?_
    rw [joins e.2, show (r.hub.stream e.2).joins = 0 from rfl, Nat.zero_add] at many
    exact two_or_back many
  · obtain ⟨allowed, allows, -⟩ := allowed_append (split ▸ allowed)
    rw [split, List.forall_mem_append, List.forall_mem_cons] at orderly
    have joins := (sound.accounts_steps allowed orderly.1).1 e.2
    obtain ⟨plain, once⟩ :=
      ((sound.steps allowed).accounts_step allows orderly.2.1).spares e he gone
    rw [joins, show (r.hub.stream e.2).joins = 0 from rfl, Nat.zero_add] at once
    refine ⟨plain, fun s hs t ht => ?_⟩
    obtain ⟨only, hjoined⟩ := List.length_eq_one_iff.1
      (Nat.le_antisymm once (List.length_pos_of_mem hs))
    rw [hjoined, List.mem_singleton] at hs ht
    rw [hs, ht]

/-- A stream that two sessions have watched is left in the catalog, and a private one is not. -/
theorem keeps_with_reason_shared :
    let r := start ⟨.memory, fun _ => false⟩ ⟨10, 250, by decide, by decide⟩ 0 false
    let acts : List Act :=
      [.accept 4, .accept 4, .accept 4, .handle 0 (.control (.current 0 .start)),
        .handle 1 (.control (.current 0 (.subscribeStream 1))),
        .handle 2 (.control (.current 0 .start)), .disconnect 0, .disconnect 1, .disconnect 2]
    (r.steps acts).hub.catalog = [(1, 0)] ∧
      ((∃ s ∈ joined 0 r acts, ∃ t ∈ joined 0 r acts, s ≠ t) ∨
        ∃ s, 2 ≤ (joined 0 r acts).count s) := by
  intro r acts
  have listed : (1, 0) ∈ (r.steps acts).hub.catalog := by decide
  have kept := (keeps_with_reason ⟨.memory, fun _ => false⟩ ⟨10, 250, by decide, by decide⟩ 0 false
    acts (by decide) (by decide)).1 (by decide) _ listed
  exact ⟨by decide, kept.resolve_left (by decide)⟩

/-- A session describes its stream, looks at another one, comes back, takes the description away and
leaves. Its stream is left in the catalog, though nobody else has ever joined it. -/
theorem keeps_returned :
    let r := start ⟨.memory, fun _ => false⟩ ⟨10, 250, by decide, by decide⟩ 0 false
    let acts : List Act :=
      [.accept 4, .accept 4, .handle 0 (.control (.current 0 (.streamDescription "x"))),
        .handle 1 (.control (.current 0 .start)),
        .handle 0 (.control (.current 0 (.subscribeStream 2))),
        .handle 0 (.control (.current 0 (.subscribeStream 1))),
        .handle 0 (.control (.current 0 (.streamDescription ""))),
        .disconnect 0, .disconnect 1]
    r.Allowed acts ∧ (∀ act ∈ acts, act.Orderly) ∧
      (∀ s < (r.steps acts).sessions.length, ((r.steps acts).session s).stream = none) ∧
      (1, 0) ∈ (r.steps acts).hub.catalog ∧
      ((r.steps acts).hub.stream 0).description = "" ∧ joined 0 r acts = [0, 0] := by
  decide

end Relay

end EventRelay
