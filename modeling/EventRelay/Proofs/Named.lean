import EventRelay.Proofs.Operations

/-!
# Uids

Uids are given out in order, and start over after the last one. So the place of a stream tells its
uid, and the uid tells the place up to a multiple of the number of uids. In the catalog a uid names
one stream at most, whatever happens.
-/

namespace EventRelay.Hub

/-- How many uids there are. -/
abbrev uidCount : Nat := 4294967295

/-- The uid of the stream at a place. -/
def uidOf (i : Nat) : UInt32 := UInt32.ofNat (i % uidCount + 1)

theorem toNat_uidOf (i : Nat) : (uidOf i).toNat = i % uidCount + 1 := by
  have := Nat.mod_lt i (show 0 < uidCount by decide)
  rw [uidOf, UInt32.toNat_ofNat']
  unfold uidCount at *
  exact Nat.mod_eq_of_lt (by omega)

theorem uidOf_eq_iff {i j : Nat} : uidOf i = uidOf j ↔ i % uidCount = j % uidCount := by
  rw [← UInt32.toNat_inj, toNat_uidOf, toNat_uidOf, Nat.add_right_cancel_iff]

theorem uidOf_inj {i j : Nat} (hi : i < uidCount) (hj : j < uidCount)
    (same : uidOf i = uidOf j) : i = j := by
  rwa [uidOf_eq_iff, Nat.mod_eq_of_lt hi, Nat.mod_eq_of_lt hj] at same

/-- A later stream has the same uid if it comes a multiple of their number later. -/
theorem uidOf_eq_iff_of_lt {i j : Nat} (later : i < j) :
    uidOf i = uidOf j ↔ ∃ k, 0 < k ∧ j = i + k * uidCount := by
  rw [uidOf_eq_iff]
  unfold uidCount
  constructor
  · intro same
    exact ⟨j / 4294967295 - i / 4294967295, by omega, by omega⟩
  · rintro ⟨k, -, rfl⟩
    omega

/-- The uid after the last one is that of the first stream. -/
theorem uidAfter_uidOf (i : Nat) : uidAfter (uidOf i) = uidOf (i + 1) := by
  have next : (uidOf i + 1).toNat = (i % uidCount + 2) % 2 ^ 32 := by
    rw [UInt32.toNat_add, toNat_uidOf]
    rfl
  rw [← UInt32.toNat_inj, toNat_uidOf, uidAfter]
  unfold uidCount at *
  split_ifs with last
  · have zero := congrArg UInt32.toNat last
    rw [next, show (0 : UInt32).toNat = 0 from rfl] at zero
    rw [show (1 : UInt32).toNat = 1 from rfl]
    omega
  · have other : (uidOf i + 1).toNat ≠ 0 := fun h => last (UInt32.toNat_inj.1 h)
    rw [next] at other ⊢
    omega

/-! ## The catalog -/

/-- Every stream has the uid of its place, and so has every entry of the catalog, which holds one
entry for a uid. -/
structure Named (h : Hub) : Prop where
  uids : ∀ i < h.streams.length, (h.stream i).uid = uidOf i
  nextUid : h.nextUid = uidOf h.streams.length
  catalog : ∀ e ∈ h.catalog, e.2 < h.streams.length ∧ e.1 = uidOf e.2
  once : (h.catalog.map (·.1)).Nodup

section Named

variable {h h' : Hub} {i : StreamId} {uid : UInt32}

theorem named_start (archive : Archive) (config : ReplayConfig) (epoch : Int64) :
    (start archive config epoch).Named :=
  ⟨fun i hi => absurd hi (Nat.not_lt_zero i), rfl, nofun, .nil⟩

theorem Named.congr (hn : h.Named) (uids : h'.streams.map (·.uid) = h.streams.map (·.uid))
    (catalog : h'.catalog = h.catalog) (nextUid : h'.nextUid = h.nextUid) : h'.Named := by
  have length : h'.streams.length = h.streams.length := by
    simpa using congrArg List.length uids
  refine ⟨fun i hi => (part_stream uids i).trans (hn.uids i (length ▸ hi)), ?_, ?_, ?_⟩
  · rw [nextUid, length]
    exact hn.nextUid
  · rw [catalog, length]
    exact hn.catalog
  · rw [catalog]
    exact hn.once

theorem Named.createStream (hn : h.Named) : h.createStream.1.Named := by
  have length := streams_createStream h
  refine ⟨fun i hi => ?uids, ?nextUid, fun e he => ?catalog, ?once⟩
  case uids =>
    rw [stream_createStream]
    split_ifs with new
    · rw [new]
      exact hn.nextUid
    · exact hn.uids i (by omega)
  case nextUid =>
    rw [length, ← uidAfter_uidOf, ← hn.nextUid]
    rfl
  case catalog =>
    rw [length]
    rcases (mem_insert _).1 he with rfl | ⟨he, -⟩
    · exact ⟨Nat.lt_succ_self _, hn.nextUid⟩
    · exact ⟨Nat.lt_succ_of_lt (hn.catalog e he).1, (hn.catalog e he).2⟩
  case once => exact keys_insert _ hn.once _

theorem Named.erase (hn : h.Named) (live : Index) (uid : UInt32) :
    ({ h with live, catalog := h.catalog.erase uid } : Hub).Named where
  uids := hn.uids
  nextUid := hn.nextUid
  catalog e he := hn.catalog e (mem_erase.1 he).1
  once := keys_erase hn.once uid

theorem Named.apply (hn : h.Named) (op : Operation) : (h.apply op).Named := by
  cases op with
  | create => exact hn.createStream
  | remove uid => exact hn.erase _ uid
  | removeIfAbandoned i =>
    rcases h.apply_removeIfAbandoned i with removed | same
    · rw [removed]
      exact hn.erase _ _
    · rw [same]
      exact hn
  | describe i text =>
    exact hn.congr (map_modifyStream (f := fun s => { s with description := text }) (fun _ => rfl) h
      i) rfl rfl
  | _ =>
    exact hn.congr (static_uids.apply h id) (static_catalog.apply h id) (static_nextUid.apply h id)

/-- A uid names the stream that it has an entry for. -/
theorem Named.getStream?_eq_some (hn : h.Named) :
    h.getStream? uid = some i ↔ (uid, i) ∈ h.catalog := by
  refine ⟨Desk.mem_catalog, fun listed => ?_⟩
  obtain ⟨j, found⟩ : ∃ j, h.getStream? uid = some j :=
    Option.isSome_iff_exists.1 (List.lookup_isSome_iff.2 ⟨_, listed, beq_self_eq_true uid⟩)
  have same := List.inj_on_of_nodup_map hn.once (Desk.mem_catalog found) listed rfl
  rw [found, (Prod.mk.inj same).2]

end Named

end EventRelay.Hub
