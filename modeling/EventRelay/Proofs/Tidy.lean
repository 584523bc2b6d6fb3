import EventRelay.Proofs.Steady
import EventRelay.Hub.Catalog

/-!
# Who holds which stream

Each connection has a session, and each session holds at most one stream. A connection that is still
there watches the stream that its session holds and no other, and a stream that is held is in the
catalog. A stream is only taken out of the catalog when nobody holds it: it counts how often it has
been joined, and a stream that nobody watches and that was joined once was held at most by the one
who leaves it. So whoever watches a stream watches one of the catalog, and the live set, which a
stream enters only before somebody, is part of the catalog.
-/

namespace EventRelay.Hub

/-- The streams, the catalog and the live set go together with what each session holds. As long as
there are fewer streams than uids, a stream's place tells its uid. -/
structure Tidy (h : Hub) (held : List (Option StreamId)) : Prop where
  few : h.streams.length < 4294967295
  uids : ∀ i < h.streams.length, (h.stream i).uid = UInt32.ofNat (i + 1)
  nextUid : h.nextUid = UInt32.ofNat (h.streams.length + 1)
  catalog : ∀ e ∈ h.catalog, e.2 < h.streams.length ∧ e.1 = (h.stream e.2).uid
  live : ∀ e ∈ h.live, e ∈ h.catalog
  connections : h.connections.length = held.length
  subscribers : ∀ i, ∀ c ∈ (h.stream i).subscribers, c < held.length
  watching : ∀ i, ∀ c ∈ h.audience i, held[c]? = some (some i)
  holding : ∀ i, some i ∈ held → ((h.stream i).uid, i) ∈ h.catalog
  joins : ∀ i, held.count (some i) ≤ (h.stream i).joins
  live_nodup : h.live.Nodup
  audience_nodup : ∀ i, (h.audience i).Nodup

/-- And every stream is steady. -/
structure Sound (h : Hub) (held : List (Option StreamId)) : Prop extends Tidy h held where
  steady : ∀ i < h.streams.length, h.Steady i

section Tidy

variable {h h' : Hub} {held : List (Option StreamId)} {i j : StreamId}

theorem uid_inj {m n : Nat} (hm : m < 4294967295) (hn : n < 4294967295)
    (e : UInt32.ofNat (m + 1) = UInt32.ofNat (n + 1)) : m = n := by
  have := congrArg UInt32.toNat e
  rw [UInt32.toNat_ofNat', UInt32.toNat_ofNat'] at this
  omega

theorem Tidy.uid_ne (ht : h.Tidy held) (hi : i < h.streams.length) (hj : j < h.streams.length)
    (hij : j ≠ i) : (h.stream j).uid ≠ (h.stream i).uid := by
  rw [ht.uids i hi, ht.uids j hj]
  exact fun e => hij (uid_inj (Nat.lt_trans hj ht.few) (Nat.lt_trans hi ht.few) e)

theorem Tidy.known_of_catalog (ht : h.Tidy held) (hc : ((h.stream i).uid, i) ∈ h.catalog) :
    i < h.streams.length := (ht.catalog _ hc).1

theorem Tidy.catalog_of_watched (ht : h.Tidy held) (ha : h.audience i ≠ []) :
    ((h.stream i).uid, i) ∈ h.catalog := by
  obtain ⟨c, hc⟩ := List.exists_mem_of_ne_nil _ ha
  exact ht.holding i (List.mem_of_getElem? (ht.watching i c hc))

/-- Who holds no stream watches none. -/
theorem Tidy.watches_none (ht : h.Tidy held) {c : ConnId} (hc : held[c]? = some none)
    (i : StreamId) : c ∉ h.audience i := by
  intro hm
  have watching := ht.watching i c hm
  rw [hc] at watching
  cases watching

/-- Who watches one stream does not watch another. -/
theorem Tidy.watches_one (ht : h.Tidy held) {c : ConnId} (hi : c ∈ (h.stream i).subscribers)
    (hj : c ∈ h.audience j) : j = i := by
  have watching := ht.watching i c (Confined.mem_audience.2 ⟨hi, (Confined.mem_audience.1 hj).2⟩)
  rw [ht.watching j c hj, Option.some_inj, Option.some_inj] at watching
  exact watching

theorem Tidy.away (ht : h.Tidy held) {c : ConnId} (hc : c ∈ h.audience i) (hj : j ≠ i) :
    c ∉ h.audience j :=
  fun hm => hj (ht.watches_one (Confined.mem_audience.1 hc).1 hm)

theorem Confined.uid_eq (hc : Confined i h h') (j : StreamId) :
    (h'.stream j).uid = (h.stream j).uid := by
  by_cases hj : j = i
  · rw [hj, hc.uid]
  · rw [hc.others j hj]

theorem Confined.joins_eq (hc : Confined i h h') (j : StreamId) :
    (h'.stream j).joins = (h.stream j).joins := by
  by_cases hj : j = i
  · rw [hj, hc.joins]
  · rw [hc.others j hj]

/-- A step on one stream keeps all in place. -/
theorem Tidy.confined (ht : h.Tidy held) (hi : i < h.streams.length) (hc : Confined i h h') :
    h'.Tidy held where
  few := by
    rw [hc.streams]
    exact ht.few
  uids j hj := by
    rw [hc.streams] at hj
    rw [hc.uid_eq]
    exact ht.uids j hj
  nextUid := by
    rw [hc.nextUid, hc.streams]
    exact ht.nextUid
  catalog e he := by
    rw [hc.catalog] at he
    obtain ⟨hlt, hu⟩ := ht.catalog e he
    exact ⟨hc.known hlt, hu.trans (hc.uid_eq e.2).symm⟩
  live e he := by
    rw [hc.catalog]
    rcases hc.listed e he with he | ⟨rfl, ha⟩
    · exact ht.live e he
    · exact ht.catalog_of_watched ha
  connections := hc.connections.trans ht.connections
  subscribers j c hm := by
    by_cases hj : j = i
    · subst hj
      exact ht.subscribers j c (hc.subscribers.subset hm)
    · rw [hc.others j hj] at hm
      exact ht.subscribers j c hm
  watching j c hm := ht.watching j c (hc.audience hm)
  holding j hj := by
    rw [hc.catalog, hc.uid_eq]
    exact ht.holding j hj
  joins j := by
    rw [hc.joins_eq]
    exact ht.joins j
  live_nodup := hc.once ht.live_nodup
  audience_nodup j := (ht.audience_nodup j).sublist (hc.sublist_audience j)

/-- A stream does not notice a step on another one. -/
theorem Steady.confined (hs : h.Steady j) (hc : Confined i h h') (hj : j ≠ i)
    (hu : (h.stream j).uid ≠ (h.stream i).uid) : h'.Steady j := by
  have stream := hc.others j hj
  refine hs.congr (Nat.le_of_eq hc.streams.symm) stream ?_ fun c _ ha => (hc.alive c).symm.trans ha
  rw [Listed, Listed, stream]
  constructor
  · intro hl
    rcases hc.listed _ hl with hl | ⟨he, -⟩
    · exact hl
    · exact absurd (Prod.mk.inj he).2 hj
  · exact fun hl => hc.unlisted _ hl hu

theorem Sound.confined (hs : h.Sound held) (hi : i < h.streams.length) (hc : Confined i h h')
    (steady : h'.Steady i) : h'.Sound held where
  toTidy := hs.toTidy.confined hi hc
  steady j hj := by
    rw [hc.streams] at hj
    by_cases hji : j = i
    · subst hji
      exact steady
    · exact (hs.steady j hj).confined hc hji (hs.uid_ne hi hj hji)

/-! ## Coming and going -/

theorem mem_set_some {c : ConnId} {o : Option StreamId} (hm : some j ∈ held.set c o) :
    some j ∈ held ∨ o = some j := by
  rcases List.mem_or_eq_of_mem_set hm with hm | hm
  · exact .inl hm
  · exact .inr hm.symm

theorem count_set_le {c : ConnId} (hc : c < held.length) (o : Option StreamId) :
    (held.set c o).count (some j) ≤ held.count (some j) + if o = some j then 1 else 0 := by
  rw [List.count_set hc]
  simp only [beq_iff_eq]
  omega

theorem count_set_of_held {c : ConnId} (hc : held[c]? = some (some i)) :
    (held.set c none).count (some i) = held.count (some i) - 1 := by
  obtain ⟨hlt, he⟩ := List.getElem?_eq_some_iff.1 hc
  rw [List.count_set hlt, he]
  simp

/-- A session lets go of its stream, and its connection does not watch any more. -/
theorem Sound.release (hs : h.Sound held) {c : ConnId} (hc : c < held.length)
    (gone : ∀ j, c ∉ h.audience j) : h.Sound (held.set c none) where
  toTidy := { hs.toTidy with
    connections := by
      rw [List.length_set]
      exact hs.connections
    subscribers := fun j d hd => by
      rw [List.length_set]
      exact hs.subscribers j d hd
    watching := fun j d hd => by
      rw [List.getElem?_set_ne]
      · exact hs.watching j d hd
      · rintro rfl
        exact gone j hd
    holding := fun j hj => hs.holding j ((mem_set_some hj).resolve_right nofun)
    joins := fun j => (count_set_le hc none).trans (hs.joins j) }
  steady := hs.steady

/-- A stream that nobody holds, and that is not in the live set, leaves the catalog. -/
theorem Sound.uncatalog (hs : h.Sound held) (unheld : some i ∉ held)
    (hi : i < h.streams.length) (unlisted : ∀ e ∈ h.live, e.1 ≠ (h.stream i).uid) :
    ({ h with catalog := h.catalog.erase (h.stream i).uid } : Hub).Sound held where
  toTidy := { hs.toTidy with
    catalog := fun e he => hs.catalog e (mem_erase.1 he).1
    live := fun e he => mem_erase.2 ⟨hs.live e he, unlisted e he⟩
    holding := fun j hj => by
      have known := hs.known_of_catalog (hs.holding j hj)
      have hne : j ≠ i := by
        rintro rfl
        exact unheld hj
      exact mem_erase.2 ⟨hs.holding j hj, hs.uid_ne hi known hne⟩ }
  steady j hj := (hs.steady j hj).congr (Nat.le_refl _) rfl Iff.rfl fun _ _ hc => hc

theorem not_mem_removeSubscriber (hi : i < h.streams.length) (c : ConnId) :
    c ∉ ((h.removeSubscriber i c).stream i).subscribers := by
  have left : c ∉ ((h.modifyStream i fun s => { s with
      subscribers := s.subscribers.filter fun d => h.isAlive d && d != c }).stream
        i).subscribers := by
    rw [stream_modifyStream_self hi]
    simp
  unfold removeSubscriber
  dsimp only
  split_ifs
  · exact fun hc => left ((confined_idle _ i).subscribers.subset hc)
  · exact left

theorem Sound.removeIfAbandoned (hs : h.Sound held) (hi : i < h.streams.length)
    (unheld : (h.stream i).joins ≤ 1 → some i ∉ held) :
    (h.removeIfAbandoned i).1.Sound held := by
  unfold Hub.removeIfAbandoned
  dsimp only
  split_ifs with abandoned
  · simp only [isAbandoned, Bool.and_eq_true, decide_eq_true_eq] at abandoned
    obtain ⟨⟨⟨once, none⟩, -⟩, -⟩ := abandoned
    have confined := confined_unsubscribe h i
    have out : (h.unsubscribe (h.stream i).uid).Steady i := by
      refine Apart.steady_of_audience (apart_live (hs.steady i hi).toApart fun hl => ?_) ?_
      · exact absurd rfl (mem_erase.1 hl).2
      · exact confined.audience_eq_nil (List.length_eq_zero_iff.1 none)
    exact (hs.confined hi confined out).uncatalog (unheld once)
      hi fun e he => (mem_erase.1 he).2
  · exact hs

theorem Sound.leave (hs : h.Sound held) {c : ConnId} (hc : held[c]? = some (some i)) :
    ((h.removeSubscriber i c).removeIfAbandoned i).1.Sound (held.set c none) := by
  have hi := hs.known_of_catalog (hs.holding i (List.mem_of_getElem? hc))
  obtain ⟨hlt, -⟩ := List.getElem?_eq_some_iff.1 hc
  have confined := confined_removeSubscriber h i c
  have left := hs.confined hi confined (steady_removeSubscriber (hs.steady i hi) c)
  have gone : ∀ j, c ∉ (h.removeSubscriber i c).audience j := by
    intro j hm
    have := left.watching j c hm
    rw [hc, Option.some_inj, Option.some_inj] at this
    subst this
    exact not_mem_removeSubscriber hi c (Confined.mem_audience.1 hm).1
  refine (left.release hlt gone).removeIfAbandoned (confined.known hi)
    fun once => ?_
  rw [confined.joins] at once
  refine List.count_eq_zero.1 ?_
  rw [count_set_of_held hc]
  have := hs.joins i
  omega

/-- Leaving a stream takes no other stream out of the catalog. -/
theorem mem_catalog_leave {e : UInt32 × StreamId} (he : e ∈ h.catalog)
    (hu : e.1 ≠ (h.stream i).uid) (c : ConnId) :
    e ∈ ((h.removeSubscriber i c).removeIfAbandoned i).1.catalog := by
  have confined := confined_removeSubscriber h i c
  unfold Hub.removeIfAbandoned
  dsimp only
  split_ifs
  · rw [confined.uid, confined.catalog]
    exact mem_erase.2 ⟨he, hu⟩
  · rwa [confined.catalog]

theorem streams_leave (h : Hub) (i : StreamId) (c : ConnId) :
    ((h.removeSubscriber i c).removeIfAbandoned i).1.streams.length = h.streams.length := by
  rw [← (confined_removeSubscriber h i c).streams, removeIfAbandoned]
  dsimp only
  split_ifs <;> rfl

/-! ## Joining -/

/-- The first half of joining a stream: the connection is put down as a subscriber. -/
def enrol (h : Hub) (i : StreamId) (c : ConnId) : Hub :=
  h.modifyStream i fun s => { s with subscribers := s.subscribers ++ [c], joins := s.joins + 1 }

theorem addSubscriber_eq {c : ConnId} (hc : c ∉ h.audience i) : h.addSubscriber i c =
    if ((h.enrol i c).stream i).playing then (h.enrol i c).play i else h.enrol i c := by
  have notYet : ¬(h.audience i).contains c = true := by
    simpa using hc
  rw [addSubscriber]
  simp only [notYet]
  rfl

theorem streams_enrol (h : Hub) (i : StreamId) (c : ConnId) :
    (h.enrol i c).streams.length = h.streams.length := List.length_modify ..

theorem stream_enrol_self (hi : i < h.streams.length) (c : ConnId) : (h.enrol i c).stream i =
    { h.stream i with
      subscribers := (h.stream i).subscribers ++ [c], joins := (h.stream i).joins + 1 } :=
  stream_modifyStream_self hi _

theorem stream_enrol_ne (c : ConnId) (hj : j ≠ i) : (h.enrol i c).stream j = h.stream j := by
  rw [enrol, stream_modifyStream, if_neg fun e => hj e.1.symm]

theorem uid_enrol (hi : i < h.streams.length) (c : ConnId) (j : StreamId) :
    ((h.enrol i c).stream j).uid = (h.stream j).uid := by
  by_cases hj : j = i
  · rw [hj, stream_enrol_self hi]
  · rw [stream_enrol_ne c hj]

theorem mem_audience_enrol (hi : i < h.streams.length) {c d : ConnId}
    (hd : d ∈ (h.enrol i c).audience j) : d ∈ h.audience j ∨ d = c ∧ j = i := by
  obtain ⟨hs, ha⟩ := Confined.mem_audience.1 hd
  by_cases hj : j = i
  · subst hj
    rw [stream_enrol_self hi] at hs
    rcases List.mem_append.1 hs with hs | hs
    · exact .inl (Confined.mem_audience.2 ⟨hs, ha⟩)
    · exact .inr ⟨List.mem_singleton.1 hs, rfl⟩
  · rw [stream_enrol_ne c hj] at hs
    exact .inl (Confined.mem_audience.2 ⟨hs, ha⟩)

theorem sublist_audience_enrol (hi : i < h.streams.length) (c : ConnId) (j : StreamId) :
    ((h.enrol i c).audience j).Sublist (h.audience j ++ [c]) := by
  rw [audience, audience]
  by_cases hj : j = i
  · subst hj
    rw [stream_enrol_self hi, List.filter_append]
    exact (List.Sublist.refl _).append List.filter_sublist
  · rw [stream_enrol_ne c hj]
    exact List.sublist_append_left ..

theorem Tidy.enrol (ht : h.Tidy held) {c : ConnId} (hc : held[c]? = some none)
    (hi : ((h.stream i).uid, i) ∈ h.catalog) : (h.enrol i c).Tidy (held.set c (some i)) := by
  have known := ht.known_of_catalog hi
  obtain ⟨hlt, -⟩ := List.getElem?_eq_some_iff.1 hc
  constructor
  case few =>
    rw [streams_enrol]
    exact ht.few
  case uids =>
    intro j hj
    rw [streams_enrol] at hj
    rw [uid_enrol known]
    exact ht.uids j hj
  case nextUid =>
    rw [streams_enrol]
    exact ht.nextUid
  case catalog =>
    intro e he
    rw [streams_enrol, uid_enrol known]
    exact ht.catalog e he
  case live =>
    exact ht.live
  case connections =>
    rw [List.length_set]
    exact ht.connections
  case subscribers =>
    intro j d hd
    rw [List.length_set]
    by_cases hj : j = i
    · subst hj
      rw [stream_enrol_self known] at hd
      rcases List.mem_append.1 hd with hd | hd
      · exact ht.subscribers j d hd
      · rw [List.mem_singleton.1 hd]
        exact hlt
    · rw [stream_enrol_ne c hj] at hd
      exact ht.subscribers j d hd
  case watching =>
    intro j d hd
    rcases mem_audience_enrol known hd with hd | ⟨rfl, rfl⟩
    · rw [List.getElem?_set_ne]
      · exact ht.watching j d hd
      · rintro rfl
        exact ht.watches_none hc j hd
    · exact List.getElem?_set_self hlt
  case holding =>
    intro j hj
    rw [uid_enrol known]
    rcases mem_set_some hj with hj | hj
    · exact ht.holding j hj
    · rw [← Option.some.inj hj]
      exact hi
  case joins =>
    intro j
    refine (count_set_le hlt (some i)).trans ?_
    have := ht.joins j
    by_cases hj : j = i
    · subst hj
      rw [stream_enrol_self known, if_pos rfl]
      dsimp only
      omega
    · rw [stream_enrol_ne c hj, if_neg fun e => hj (Option.some.inj e).symm]
      omega
  case live_nodup =>
    exact ht.live_nodup
  case audience_nodup =>
    intro j
    have joined := (ht.audience_nodup j).concat (ht.watches_none hc j)
    rw [List.concat_eq_append] at joined
    exact joined.sublist (sublist_audience_enrol known c j)

theorem Sound.join (hs : h.Sound held) {c : ConnId} (hc : held[c]? = some none)
    (hi : ((h.stream i).uid, i) ∈ h.catalog) :
    (h.addSubscriber i c).Sound (held.set c (some i)) := by
  have known := hs.known_of_catalog hi
  have tidy := hs.toTidy.enrol hc hi
  have apart : (h.enrol i c).Apart i :=
    apart_modifyStream (hs.steady i known).toExclusive rfl rfl (hs.steady i known).timed
      (hs.steady i known).running (hs.steady i known).listed
  have known' : i < (h.enrol i c).streams.length := by
    rw [streams_enrol]
    exact known
  have others : ∀ j, j < h.streams.length → j ≠ i → (h.enrol i c).Steady j := by
    intro j hj hji
    refine (hs.steady j hj).congr (Nat.le_of_eq (streams_enrol h i c).symm)
      (stream_enrol_ne c hji) ?_ fun _ _ ha => ha
    rw [Listed, Listed, stream_enrol_ne c hji]
    rfl
  rw [addSubscriber_eq (hs.watches_none hc i)]
  split_ifs with playing
  · have confined := confined_play (h.enrol i c) i
    refine ⟨tidy.confined known' confined, fun j hj => ?_⟩
    rw [confined.streams, streams_enrol] at hj
    by_cases hji : j = i
    · subst hji
      exact steady_play apart playing
    · have hj' : j < (h.enrol i c).streams.length := by
        rw [streams_enrol]
        exact hj
      exact (others j hj hji).confined confined hji (tidy.uid_ne known' hj' hji)
  · refine ⟨tidy, fun j hj => ?_⟩
    rw [streams_enrol] at hj
    by_cases hji : j = i
    · subst hji
      exact apart.steady_of_playing (Bool.eq_false_of_not_eq_true playing)
    · exact others j hj hji

/-- A connection that has not joined yet is put down, and at most the stream resumes for it. -/
theorem confined_addSubscriber (h : Hub) (i : StreamId) (c : ConnId) :
    ∃ m, (m = h ∨ m = h.enrol i c) ∧ Confined i m (h.addSubscriber i c) := by
  have play (m : Hub) : Confined i m (if (m.stream i).playing then m.play i else m) := by
    split_ifs
    · exact confined_play m i
    · exact .refl i m
  by_cases joined : (h.audience i).contains c = true
  · refine ⟨h, .inl rfl, ?_⟩
    rw [addSubscriber, if_pos joined]
    exact play h
  · refine ⟨h.enrol i c, .inr rfl, ?_⟩
    rw [addSubscriber, if_neg joined]
    exact play _

theorem streams_addSubscriber (h : Hub) (i : StreamId) (c : ConnId) :
    (h.addSubscriber i c).streams.length = h.streams.length := by
  obtain ⟨m, rfl | rfl, confined⟩ := confined_addSubscriber h i c
  · exact confined.streams
  · exact confined.streams.trans (streams_enrol h i c)

theorem archive_addSubscriber (h : Hub) (i : StreamId) (c : ConnId) :
    (h.addSubscriber i c).archive = h.archive := by
  obtain ⟨m, rfl | rfl, confined⟩ := confined_addSubscriber h i c
  · exact confined.archive
  · exact confined.archive

/-! ## New streams -/

theorem stream_createStream (h : Hub) (j : Nat) : h.createStream.1.stream j =
    if j = h.streams.length then .new h.nextUid else h.stream j := by
  unfold Hub.stream createStream
  simp only [List.getD_eq_getElem?_getD, List.getElem?_append]
  split_ifs with hlt he he
  · omega
  · rfl
  · simp [he]
  · obtain ⟨n, hn⟩ : ∃ n, j - h.streams.length = n + 1 := ⟨j - h.streams.length - 1, by omega⟩
    rw [hn, List.getElem?_eq_none (Nat.not_lt.1 hlt)]
    rfl

theorem streams_createStream (h : Hub) :
    h.createStream.1.streams.length = h.streams.length + 1 := List.length_append

theorem uidAfter_ofNat {n : Nat} (hn : n + 1 < 4294967295) :
    uidAfter (UInt32.ofNat (n + 1)) = UInt32.ofNat (n + 1 + 1) := by
  have next : UInt32.ofNat (n + 1) + 1 = UInt32.ofNat (n + 1 + 1) := (UInt32.ofNat_add ..).symm
  rw [uidAfter, next, if_neg]
  intro h0
  have := congrArg UInt32.toNat h0
  rw [UInt32.toNat_ofNat', show (0 : UInt32).toNat = 0 from rfl] at this
  omega

theorem Tidy.createStream (ht : h.Tidy held) (few : h.streams.length + 1 < 4294967295) :
    h.createStream.1.Tidy held := by
  have known {j : Nat} (hj : some j ∈ held) : j < h.streams.length :=
    ht.known_of_catalog (ht.holding j hj)
  have old {j : Nat} (hj : j < h.streams.length) : h.createStream.1.stream j = h.stream j := by
    rw [stream_createStream, if_neg (by omega)]
  have fresh {j : Nat} (hj : j < h.streams.length) : (h.stream j).uid ≠ h.nextUid := by
    rw [ht.uids j hj, ht.nextUid]
    intro e
    have := uid_inj (by omega) (by omega) e
    omega
  constructor
  case few =>
    rw [streams_createStream]
    exact few
  case uids =>
    intro j hj
    rw [streams_createStream] at hj
    rw [stream_createStream]
    split_ifs with he
    · rw [he]
      exact ht.nextUid
    · exact ht.uids j (by omega)
  case nextUid =>
    rw [streams_createStream]
    exact (congrArg uidAfter ht.nextUid).trans (uidAfter_ofNat few)
  case catalog =>
    intro e he
    rw [streams_createStream]
    rcases (mem_insert _).1 he with rfl | ⟨he, -⟩
    · rw [stream_createStream, if_pos rfl]
      exact ⟨Nat.lt_succ_self _, rfl⟩
    · obtain ⟨hlt, hu⟩ := ht.catalog e he
      rw [old hlt]
      exact ⟨Nat.lt_succ_of_lt hlt, hu⟩
  case live =>
    intro e he
    have he := ht.live e he
    obtain ⟨hlt, hu⟩ := ht.catalog e he
    exact (mem_insert _).2 (.inr ⟨he, by rw [hu]; exact fresh hlt⟩)
  case connections =>
    exact ht.connections
  case subscribers =>
    intro j d hd
    rw [stream_createStream] at hd
    split_ifs at hd
    · cases hd
    · exact ht.subscribers j d hd
  case watching =>
    intro j d hd
    obtain ⟨hd, ha⟩ := Confined.mem_audience.1 hd
    rw [stream_createStream] at hd
    split_ifs at hd
    · cases hd
    · exact ht.watching j d (Confined.mem_audience.2 ⟨hd, ha⟩)
  case holding =>
    intro j hj
    have hlt := known hj
    rw [old hlt]
    exact (mem_insert _).2 (.inr ⟨ht.holding j hj, fresh hlt⟩)
  case joins =>
    intro j
    rw [stream_createStream]
    split_ifs with he
    · subst he
      rw [List.count_eq_zero.2 fun hj => Nat.lt_irrefl _ (known hj)]
      exact Nat.zero_le _
    · exact ht.joins j
  case live_nodup =>
    exact ht.live_nodup
  case audience_nodup =>
    intro j
    rw [audience, stream_createStream]
    split_ifs
    · exact .nil
    · exact ht.audience_nodup j

theorem Sound.createStream (hs : h.Sound held) (few : h.streams.length + 1 < 4294967295) :
    h.createStream.1.Sound held := by
  have new := stream_createStream h h.streams.length
  rw [if_pos rfl] at new
  refine ⟨hs.toTidy.createStream few, fun j hj => ?_⟩
  rw [streams_createStream] at hj
  by_cases he : j = h.streams.length
  · subst he
    refine Apart.steady_of_playing ⟨⟨?_, ?_, ?_, ?_⟩, ?_⟩ ?_
    · rw [streams_createStream]
      exact hj
    · rw [new]
      rfl
    · rw [new]
      exact fun hr => absurd hr Bool.false_ne_true
    · intro hl
      exact absurd (hs.catalog _ (hs.live _ hl)).1 (Nat.lt_irrefl _)
    · rw [new]
      exact Replay.start_timed
    · rw [new]
      rfl
  · have stream := stream_createStream h j
    rw [if_neg he] at stream
    refine (hs.steady j (by omega)).congr ?_ stream ?_ fun _ _ ha => ha
    · rw [streams_createStream]
      exact Nat.le_succ _
    · rw [Listed, Listed, stream]
      rfl

theorem mem_createStream (h : Hub) : ((h.createStream.1.stream h.createStream.2).uid,
    h.createStream.2) ∈ h.createStream.1.catalog := by
  have : h.createStream.2 = h.streams.length := rfl
  rw [stream_createStream, if_pos this]
  exact (mem_insert _).2 (.inl rfl)

/-! ## New connections -/

theorem connection_connect (h : Hub) (capacity : Nat) {c : ConnId}
    (hc : c < h.connections.length) :
    (h.connect capacity).1.connection c = h.connection c := by
  simp only [connection, connect, List.getD_eq_getElem?_getD, List.getElem?_append_left hc]

theorem isAlive_connect (h : Hub) (capacity : Nat) {c : ConnId} (hc : c < h.connections.length) :
    (h.connect capacity).1.isAlive c = h.isAlive c := by
  rw [isAlive, isAlive, connection_connect h capacity hc]

theorem Sound.connect (hs : h.Sound held) (capacity : Nat) :
    (h.connect capacity).1.Sound (held ++ [none]) := by
  have old {i : StreamId} {c : ConnId} (hc : c ∈ (h.stream i).subscribers) :
      (h.connect capacity).1.isAlive c = h.isAlive c :=
    isAlive_connect h capacity (hs.connections ▸ hs.subscribers i c hc)
  refine ⟨⟨hs.few, hs.uids, hs.nextUid, hs.catalog, hs.live, ?connections, ?subscribers, ?watching,
    ?holding, ?joins, hs.live_nodup, ?audience_nodup⟩, fun i hi => ?steady⟩
  case connections =>
    rw [List.length_append, ← hs.connections]
    exact List.length_append
  case subscribers =>
    intro i c hc
    rw [List.length_append]
    exact Nat.lt_add_right _ (hs.subscribers i c hc)
  case watching =>
    intro i c hc
    obtain ⟨hm, ha⟩ := Confined.mem_audience.1 hc
    rw [List.getElem?_append_left (hs.subscribers i c hm)]
    exact hs.watching i c (Confined.mem_audience.2 ⟨hm, old hm ▸ ha⟩)
  case holding =>
    intro i hi
    rcases List.mem_append.1 hi with hi | hi
    · exact hs.holding i hi
    · exact absurd (List.mem_singleton.1 hi) nofun
  case joins =>
    intro i
    rw [List.count_append]
    exact hs.joins i
  case audience_nodup =>
    intro i
    have same : (h.connect capacity).1.audience i = h.audience i :=
      List.filter_congr fun c hc => old hc
    rw [same]
    exact hs.audience_nodup i
  case steady =>
    exact (hs.steady i hi).congr (Nat.le_refl _) rfl Iff.rfl fun c hc ha => old hc ▸ ha

end Tidy

end EventRelay.Hub
