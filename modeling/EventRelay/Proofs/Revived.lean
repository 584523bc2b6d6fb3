import EventRelay.Proofs.Named

/-!
# Removed streams that play again

Whoever still refers to a removed stream can direct it and join it, and its timers go off. Whether
it is in the catalog is not looked at when it is put into the live set. So the live set is part of
the catalog but for streams that have been played again after their removal; a removed stream that
has not been is sent nothing any more.
-/

namespace EventRelay.Hub

section Live

variable {h : Hub} {i : StreamId} {e : UInt32 × StreamId}

theorem lt_of_watched (watched : h.audience i ≠ []) : i < h.streams.length := by
  by_contra unknown
  refine watched ?_
  rw [audience, Relay.stream_eq_default unknown]
  rfl

/-! ## What takes streams out of the live set only -/

theorem live_unsubscribeIfIdle (h : Hub) (i : StreamId) :
    (h.unsubscribeIfIdle i).live.Sublist h.live := by
  unfold unsubscribeIfIdle
  split_ifs
  · exact List.filter_sublist
  · exact .refl _

theorem live_stopStream (h : Hub) (i : StreamId) : (h.stopStream i).live ⊆ h.live := by
  have out : ((h.setPlaying i false).deregisterLive i).live ⊆ h.live := by
    unfold deregisterLive
    split_ifs
    · exact List.filter_subset_self _
    · exact List.Subset.refl _
  unfold stopStream
  dsimp only
  split_ifs
  · exact List.Subset.refl _
  · exact out
  · exact List.Subset.refl _

theorem live_removeSubscriber (h : Hub) (i : StreamId) (c : ConnId) :
    (h.removeSubscriber i c).live ⊆ h.live := by
  have idle (m : Hub) : (m.idle i).live ⊆ m.live := by
    unfold Hub.idle
    dsimp only
    split_ifs
    · exact (live_unsubscribeIfIdle _ i).subset
    · exact List.Subset.refl _
    · exact (live_unsubscribeIfIdle _ i).subset
    · exact List.Subset.refl _
  unfold removeSubscriber
  dsimp only
  split_ifs
  · exact idle _
  · exact List.Subset.refl _

theorem live_broadcast (h : Hub) (batch : List Message) :
    (h.broadcast batch).live.Sublist h.live := by
  have idles (is : List StreamId) : ∀ m : Hub,
      (is.foldl unsubscribeIfIdle m).live.Sublist m.live := by
    induction is with
    | nil => exact fun _ => .refl _
    | cons i is ih => exact fun m => (ih _).trans (live_unsubscribeIfIdle m i)
  have sent (m : Hub) (i : StreamId) (batch : List Message) : (m.send i batch).1.live = m.live := by
    obtain ⟨connections, kept, hsend, -⟩ := send_eq m i batch
    rw [hsend]
    rfl
  unfold broadcast
  split_ifs
  · exact .refl _
  · refine (idles _ _).trans ?_
    rw [sendStreams_same sent]

/-! ## What puts streams into it -/

/-- The stream that an operation may put into the live set: it is directed, joined, or plays on. -/
def Operation.plays : Operation → Option StreamId
  | .control _ .stop => none
  | .control i _ | .join i _ | .fire i _ => some i
  | _ => none

theorem Confined.live {h' : Hub} (hc : Confined i h h') (he : e ∈ h'.live) :
    e ∈ h.live ∨ i = e.2 ∧ e.2 < h.streams.length ∧ e.1 = (h.stream e.2).uid := by
  refine (hc.listed e he).imp_right ?_
  rintro ⟨rfl, watched⟩
  exact ⟨rfl, lt_of_watched watched, rfl⟩

theorem live_addSubscriber {c : ConnId} (he : e ∈ (h.addSubscriber i c).live) :
    e ∈ h.live ∨ i = e.2 ∧ e.2 < h.streams.length ∧ e.1 = (h.stream e.2).uid := by
  obtain ⟨m, rfl | rfl, confined⟩ := confined_addSubscriber h i c
  · exact confined.live he
  · refine (confined.live he).imp_right fun ⟨same, known, uid⟩ => ?_
    rw [streams_enrol] at known
    rw [uid_enrol (same ▸ known)] at uid
    exact ⟨same, known, uid⟩

/-- The live set only grows by the stream that is played, under its uid. -/
theorem live_apply {op : Operation} (he : e ∈ (h.apply op).live) :
    e ∈ h.live ∨ op.plays = some e.2 ∧ e.2 < h.streams.length ∧ e.1 = (h.stream e.2).uid := by
  have played {i : StreamId}
      (new : e ∈ h.live ∨ i = e.2 ∧ e.2 < h.streams.length ∧ e.1 = (h.stream e.2).uid) :
      e ∈ h.live ∨ some i = some e.2 ∧ e.2 < h.streams.length ∧ e.1 = (h.stream e.2).uid :=
    new.imp_right fun ⟨same, rest⟩ => ⟨congrArg some same, rest⟩
  cases op with
  | create => exact .inl he
  | remove uid => exact .inl (mem_erase.1 he).1
  | removeIfAbandoned i =>
    rcases h.apply_removeIfAbandoned i with removed | same
    · rw [removed] at he
      exact .inl (mem_erase.1 he).1
    · rw [same] at he
      exact .inl he
  | control i request =>
    cases request with
    | stop => exact .inl (live_stopStream h i he)
    | start => exact played ((confined_startStream h i).live he)
    | seek p => exact played ((confined_seekStream h i p).live he)
    | speed x => exact played ((confined_setSpeed h i x).live he)
  | describe i text => exact .inl he
  | join i c => exact played (live_addSubscriber he)
  | leave i c => exact .inl (live_removeSubscriber h i c he)
  | broadcast batch => exact .inl ((live_broadcast h batch).subset he)
  | fire i epoch => exact played ((confined_fire h i epoch).live he)
  | surround archive connections now => exact .inl he

end Live

/-! ## Removed streams -/

/-- The operation plays a stream that has been taken out of the catalog. -/
def Revives (h : Hub) (op : Operation) (i : StreamId) : Prop :=
  op.plays = some i ∧ i < h.streams.length ∧ i ∉ h.catalog.map (·.2)

instance (h : Hub) (op : Operation) : DecidablePred (h.Revives op) :=
  fun _ => inferInstanceAs (Decidable (_ ∧ _))

/-- One of the operations does. -/
def Revived (i : StreamId) : Hub → List Operation → Prop
  | _, [] => False
  | h, op :: ops => h.Revives op i ∨ Revived i (h.apply op) ops

instance (i : StreamId) : ∀ (h : Hub) (ops : List Operation), Decidable (Revived i h ops)
  | _, [] => inferInstanceAs (Decidable False)
  | h, op :: ops =>
    have : Decidable (Revived i (h.apply op) ops) := instDecidableRevived i _ ops
    inferInstanceAs (Decidable (_ ∨ _))

/-- What is in the live set is in the catalog, or has been revived. -/
structure Feeds (h : Hub) (revived : StreamId → Prop) : Prop extends Named h where
  known : ∀ e ∈ h.live, e.2 < h.streams.length ∧ e.1 = uidOf e.2
  listed : ∀ e ∈ h.live, e ∈ h.catalog ∨ revived e.2

section Feeds

variable {h : Hub} {revived : StreamId → Prop} {op : Operation} {e : UInt32 × StreamId}

/-- As long as uids are not given out again, an operation that leaves an entry in the live set
leaves it in the catalog. -/
theorem Named.mem_catalog_apply (hn : h.Named) (few : (h.apply op).streams.length < uidCount)
    (he : e ∈ h.catalog) (stays : e ∈ (h.apply op).live) : e ∈ (h.apply op).catalog := by
  by_cases edits : op.Edits
  · cases op with
    | create =>
      rw [Hub.apply, streams_createStream] at few
      obtain ⟨known, uid⟩ := hn.catalog e he
      refine (mem_insert _).2 (.inr ⟨he, fun same => Nat.ne_of_lt known ?_⟩)
      rw [uid, hn.nextUid] at same
      exact uidOf_inj (known.trans (Nat.lt_of_succ_lt few)) (Nat.lt_of_succ_lt few) same
    | remove uid => exact mem_erase.2 ⟨he, (mem_erase.1 stays).2⟩
    | removeIfAbandoned i =>
      rcases h.apply_removeIfAbandoned i with removed | same
      · rw [removed] at stays ⊢
        exact mem_erase.2 ⟨he, (mem_erase.1 stays).2⟩
      · rw [same]
        exact he
    | describe i text => exact he
    | _ => exact edits.elim
  · rw [static_catalog.apply h edits]
    exact he

theorem Feeds.apply (hf : h.Feeds revived) (few : (h.apply op).streams.length < uidCount) :
    (h.apply op).Feeds fun i => revived i ∨ h.Revives op i where
  toNamed := hf.toNamed.apply op
  known e he := by
    rcases live_apply he with old | ⟨-, known, uid⟩
    · exact ⟨(hf.known e old).1.trans_le (streams_apply h op), (hf.known e old).2⟩
    · exact ⟨known.trans_le (streams_apply h op), uid.trans (hf.uids e.2 known)⟩
  listed e he := by
    rcases live_apply he with old | ⟨plays, known, uid⟩
    · exact (hf.listed e old).imp (hf.mem_catalog_apply few · he) .inl
    · by_cases listed : e.2 ∈ h.catalog.map (·.2)
      · obtain ⟨e', he', same⟩ := List.mem_map.1 listed
        have entry : e' = e := Prod.ext
          ((hf.catalog e' he').2.trans (same ▸ (hf.uids e.2 known).symm.trans uid.symm)) same
        exact .inl (hf.mem_catalog_apply few (entry ▸ he') he)
      · exact .inr (.inr ⟨plays, known, listed⟩)

theorem Feeds.applyAll {ops : List Operation} (hf : h.Feeds revived)
    (few : (h.applyAll ops).streams.length < uidCount) :
    (h.applyAll ops).Feeds fun i => revived i ∨ Revived i h ops := by
  induction ops generalizing h revived with
  | nil => simpa only [Revived, or_false, applyAll_nil] using hf
  | cons op ops ih =>
    have first := hf.apply ((streams_applyAll (h.apply op) ops).trans_lt few)
    simpa only [Revived, or_assoc, applyAll_cons] using ih first few

theorem feeds_start (archive : Archive) (config : ReplayConfig) (epoch : Int64) :
    (start archive config epoch).Feeds fun _ => False :=
  ⟨named_start archive config epoch, nofun, nofun⟩

end Feeds

/-- Whatever is done to a hub, a stream of the live set is in the catalog, unless it has been played
again after its removal. A removed stream that has not been is not in the live set, and what is
broadcast neither changes it nor reaches those who watch no other stream. -/
theorem listed_or_revived (archive : Archive) (config : ReplayConfig) (epoch : Int64)
    (ops : List Operation)
    (few : ((start archive config epoch).applyAll ops).streams.length < uidCount) :
    let h := (start archive config epoch).applyAll ops
    (∀ e ∈ h.live, e ∈ h.catalog ∨ Revived e.2 (start archive config epoch) ops) ∧
    ∀ i, i ∉ h.catalog.map (·.2) → ¬Revived i (start archive config epoch) ops →
      i ∉ h.live.map (·.2) ∧ ∀ batch, (h.broadcast batch).stream i = h.stream i ∧
        ∀ c, (∀ j ≠ i, c ∉ h.audience j) → (h.broadcast batch).connection c = h.connection c := by
  intro h
  have feeds := (feeds_start archive config epoch).applyAll few
  have listed : ∀ e ∈ h.live, e ∈ h.catalog ∨ Revived e.2 (start archive config epoch) ops :=
    fun e he => (feeds.listed e he).imp_right (·.resolve_left id)
  refine ⟨listed, fun i removed gone => ?_⟩
  have out : i ∉ h.live.map (·.2) := by
    intro live
    obtain ⟨e, he, rfl⟩ := List.mem_map.1 live
    exact (listed e he).elim (fun hc => removed (List.mem_map_of_mem hc)) gone
  refine ⟨out, fun batch => ⟨?_, fun c away => ?_⟩⟩
  · have nobody : ∀ j ∈ h.live.map (·.2), h.connections.length ∉ h.audience j :=
      fun j _ hc => Nat.lt_irrefl _ (lt_of_isAlive (Confined.mem_audience.1 hc).2)
    exact (aside_broadcast out nobody batch).stream
  · have away' : ∀ j ∈ h.live.map (·.2), c ∉ h.audience j :=
      fun j hj => away j fun same => out (same ▸ hj)
    exact (aside_broadcast out away' batch).connection

/-- A stream is removed while somebody watches it. What is broadcast then is not sent to them. -/
theorem listed_or_revived_removed :
    let h := (start ⟨.memory, fun _ => false⟩ ⟨10, 250, by decide, by decide⟩ 0).applyAll
      [.surround ⟨.memory, fun _ => false⟩ [.ofCapacity 4] ⟨0, 0⟩, .create, .join 0 0,
        .control 0 .start, .remove 1]
    h.catalog = [] ∧ h.live = [] ∧ 0 ∈ h.audience 0 ∧
      (h.broadcast [.current 0 (.test ⟨"a", []⟩)]).connection 0 = h.connection 0 := by
  intro h
  have gone := (listed_or_revived ⟨.memory, fun _ => false⟩ ⟨10, 250, by decide, by decide⟩ 0
    [.surround ⟨.memory, fun _ => false⟩ [.ofCapacity 4] ⟨0, 0⟩, .create, .join 0 0,
      .control 0 .start, .remove 1] (by decide)).2 0 (by decide) (by decide)
  have away : ∀ j ≠ 0, 0 ∉ h.audience j := by
    intro j hj hm
    have known := lt_of_watched (List.ne_nil_of_mem hm)
    exact hj (Nat.lt_one_iff.1 known)
  exact ⟨by decide, by decide, by decide, (gone.2 _).2 0 away⟩

/-- A stream is removed before it is started. It is in the live set then and not in the catalog, and
what is broadcast is sent to those who watch it. -/
theorem live_not_listed :
    let h := (start ⟨.memory, fun _ => false⟩ ⟨10, 250, by decide, by decide⟩ 0).applyAll
      [.surround ⟨.memory, fun _ => false⟩ [.ofCapacity 4] ⟨0, 0⟩, .create, .join 0 0, .remove 1,
        .control 0 .start]
    h.live = [(1, 0)] ∧ h.catalog = [] ∧
      ((h.broadcast [.current 5 (.test ⟨"a", []⟩)]).connection 0).queue =
        [[.current 5 (.test ⟨"a", []⟩)]] := by
  decide

end EventRelay.Hub
