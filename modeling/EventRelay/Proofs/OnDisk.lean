import EventRelay.Disk.Database
import Mathlib.Tactic.SplitIfs

/-!
# Databases on a disk

To write a file changes nothing on the way to it, since the way to a place leads through shorter
places only. So a database that has been written is found where it was, unless its path goes back
over a name by two dots, and the engine of a disk does what engines are relied on for.
-/

namespace EventRelay.Disk

section Way

variable {d : Disk} {place place' : Place} {name : EntryName}

theorem length_step (h : d.step place name = .ok place') : place'.length ≤ place.length + 1 := by
  unfold step at h
  split_ifs at h <;> cases h
  · exact Nat.le_succ _
  · rw [List.length_dropLast]
    omega
  · exact Nat.le_of_eq List.length_append

theorem length_join? (onward : name ≠ Path.dotDot) (h : d.join? place name = some place') :
    place.length ≤ place'.length := by
  unfold join? at h
  split_ifs at h <;> cases h
  · exact Nat.le_refl _
  · rw [List.length_append]
    exact Nat.le_add_right ..

/-- Without two dots the engine never comes nearer to the root again. -/
theorem length_joined : ∀ {names : List EntryName} {place place' : Place}, Path.dotDot ∉ names →
    names.foldlM d.join? place = some place' → place.length ≤ place'.length
  | [], _, _, _, h => by
    cases h
    exact Nat.le_refl _
  | name :: names, place, place', onward, h => by
    rw [List.mem_cons, not_or] at onward
    obtain ⟨next, first, rest⟩ := Option.bind_eq_some_iff.1 h
    exact Nat.le_trans (length_join? (Ne.symm onward.1) first) (length_joined onward.2 rest)

theorem lookup_filter_ne (ne : place' ≠ place) : ∀ files : List (Place × File),
    (files.filter (·.1 != place)).lookup place' = files.lookup place'
  | [] => rfl
  | (p, file) :: files => by
    by_cases hp : p = place
    · have missed : (place' == p) = false := by simpa [hp] using ne
      rw [List.filter_cons_of_neg (by simp [hp]), List.lookup_cons, missed, lookup_filter_ne ne]
    · rw [List.filter_cons_of_pos (by simp [hp]), List.lookup_cons, List.lookup_cons,
        lookup_filter_ne ne]

end Way

section Put

variable {d : Disk} {place : Place} {file : File} (changes : d.file? place ≠ some .null)
include changes

theorem put_eq :
    d.put place file = { d with files := (place, file) :: d.files.filter (·.1 != place) } :=
  if_neg changes

theorem hasDirectory_put (other : Place) :
    (d.put place file).hasDirectory other = d.hasDirectory other := by
  rw [put_eq changes]
  rfl

theorem file?_put : (d.put place file).file? place = some file := by
  rw [put_eq changes, file?, List.lookup_cons_self]

theorem file?_put_of_ne {other : Place} (ne : other ≠ place) :
    (d.put place file).file? other = d.file? other := by
  have missed : (other == place) = false := by simpa using ne
  rw [put_eq changes, file?, List.lookup_cons, missed, lookup_filter_ne ne]
  rfl

theorem step_put {other : Place} {name : EntryName} (shorter : other.length + 1 < place.length) :
    (d.put place file).step other name = d.step other name := by
  have ne : other ++ [name] ≠ place := by
    rintro rfl
    simp at shorter
  unfold step
  rw [hasDirectory_put changes, file?_put_of_ne changes ne]

/-- A way to shorter places leads where it led. -/
theorem walk_put : ∀ (names : List EntryName) {other : Place},
    other.length + names.length < place.length →
    names.foldlM (d.put place file).step other = names.foldlM d.step other
  | [], _, _ => rfl
  | name :: names, other, shorter => by
    rw [List.length_cons] at shorter
    rw [List.foldlM_cons, List.foldlM_cons, step_put changes (by omega)]
    rcases hs : d.step other name with fault | next
    · rfl
    · have := length_step hs
      exact walk_put names (by omega)

theorem isVisible_put {other : Place} (named : other ≠ [])
    (shorter : other.length ≤ place.length) :
    (d.put place file).isVisible other = d.isVisible other := by
  have some : 0 < other.length := List.length_pos_iff.2 named
  have way : other.dropLast.foldlM (d.put place file).step [] =
      other.dropLast.foldlM d.step [] := by
    refine walk_put changes _ ?_
    rw [List.length_dropLast, List.length_nil]
    omega
  rw [isVisible, way, isVisible]

theorem join?_put {other next : Place} {name : EntryName} (onward : name ≠ Path.dotDot)
    (joined : d.join? other name = some next) (shorter : next.length ≤ place.length) :
    (d.put place file).join? other name = some next := by
  by_cases dot : name = Path.dot
  · rwa [join?, if_pos dot] at joined ⊢
  · rw [join?, if_neg dot, if_neg onward] at joined ⊢
    split_ifs at joined with visible
    cases joined
    rwa [isVisible_put changes (by simp) shorter, if_pos]

/-- The names of a path are joined to the same place. -/
theorem joined_put : ∀ {names : List EntryName} {other : Place}, Path.dotDot ∉ names →
    names.foldlM d.join? other = some place →
    names.foldlM (d.put place file).join? other = some place
  | [], _, _, joined => joined
  | name :: names, other, onward, joined => by
    rw [List.mem_cons, not_or] at onward
    obtain ⟨next, first, rest⟩ := Option.bind_eq_some_iff.1 joined
    have shorter := length_joined onward.2 rest
    rw [List.foldlM_cons, join?_put changes (Ne.symm onward.1) first shorter]
    exact joined_put onward.2 rest

end Put

/-! ## The engine -/

/-- The path goes back over no name, and no other file has a say in how the database is opened. -/
structure Direct (l : Location) : Prop where
  onward : Path.dotDot ∉ (Path.ofBytes l.path).names
  unmoded : l.option? "modeof" = none

section Direct

variable {d : Disk} {place : Place} {file : File} {l : Location}

theorem databasePlace?_put (direct : Direct l) (changes : d.file? place ≠ some .null)
    (found : d.databasePlace? l.path = some place) :
    (d.put place file).databasePlace? l.path = some place := by
  obtain ⟨place', joined, inside⟩ := Option.bind_eq_some_iff.1 found
  obtain rfl : place' = place := by
    split_ifs at inside
    exact Option.some.inj inside
  have here : (d.put place' file).here = d.here := by rw [put_eq changes]
  rw [databasePlace?, here]
  exact Option.bind_eq_some_iff.2 ⟨place', joined_put changes direct.onward joined, inside⟩

theorem openFile_put (direct : Direct l) (changes : d.file? place ≠ some .null)
    (found : d.openFile l = .ok place) : (d.put place file).openFile l = .ok place := by
  unfold openFile at found ⊢
  simp only [direct.unmoded, Option.map_none, Option.getD_none, Bool.false_eq_true, if_false]
    at found ⊢
  rcases hp : d.databasePlace? l.path with _ | place' <;> rw [hp] at found
  · cases found
  · obtain ⟨rfl, free⟩ : place' = place ∧ d.hasDirectory place' = false := by
      simp only at found
      split_ifs at found with directory <;> cases found <;> exact ⟨rfl, by simpa using directory⟩
    simp [databasePlace?_put direct changes hp, hasDirectory_put changes, free, file?_put changes]

end Direct

theorem writeFault?_eq_none {l : Location} {name : EntryName} {file : File} :
    writeFault? l name file = none ↔
      l.isReadOnly = false ∧ file ≠ .null ∧ (name ++ journalSuffix).length ≤ Path.nameLimit := by
  unfold writeFault?
  split_ifs <;> simp_all

/-- The file of a database has been found, and can be written. -/
def Writable (l : Location) (handle : Disk × Place) : Prop :=
  handle.1.openFile l = .ok handle.2 ∧
    writeFault? l (handle.2.getLast?.getD []) ((handle.1.file? handle.2).getD (.bytes [])) = none

/-- What the engine of a disk commits it finds again. -/
theorem engine_faithful {l : Location} (direct : Direct l) : (engine l).Faithful (Writable l) where
  commit := by
    rintro ⟨d, place⟩ ⟨found, free⟩ database
    obtain ⟨writes, notNull, short⟩ := writeFault?_eq_none.1 free
    have changes : d.file? place ≠ some .null := fun null => notNull (by rw [null]; rfl)
    have written : (d.put place (.database database)).file? place = some (.database database) :=
      file?_put changes
    refine ⟨(d.put place (.database database), place), by simp only [engine, free],
      ⟨openFile_put direct changes found, ?_⟩, by simp only [engine, written]; rfl⟩
    rw [written]
    exact writeFault?_eq_none.2 ⟨writes, nofun, short⟩
  reconnect := by
    rintro ⟨d, place⟩ ⟨found, free⟩
    exact ⟨(d, place), by simp only [engine, Except.map, found], ⟨found, free⟩, rfl⟩

end EventRelay.Disk
