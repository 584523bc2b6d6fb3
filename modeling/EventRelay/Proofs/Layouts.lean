import EventRelay.Wire.Body
import Mathlib.Algebra.Ring.Nat
import Mathlib.Data.List.Forall2
import Mathlib.Tactic.SplitIfs

/-!
# A layout reads back what it writes

A layout is faithful if it writes just the values that fit, takes as many bytes as their size
says, and reads each value it has written back, whatever bytes follow. The words are faithful, and
so is what is put together from faithful layouts: a pair, a view that can be undone, a counted
list. A refinement may write a value that it reads back as another one, so reading back is asked
only of the values that it keeps.
-/

namespace EventRelay.Wire

/-- Writes the values that fit in as many bytes as their size, and reads back the ones it keeps. -/
structure Layout.Faithful {α : Type} (l : Layout α) (fits keeps : α → Prop) (size : α → Nat) :
    Prop where
  writes_iff : ∀ x, (∃ b, l.write x = .ok b) ↔ fits x
  length_write : ∀ {x b}, l.write x = .ok b → b.length = size x
  read_write : ∀ {x b}, keeps x → l.write x = .ok b → ∀ rest, l.read (b ++ rest) = .ok (x, rest)

namespace Layout

variable {α β : Type}

/-! ## Words -/

/-- The byte from bit `k` on, put back in its place above the bits below it. -/
theorem byte_lor {width k : Nat} (n : Nat) (h : k + 8 ≤ width) :
    (n >>> k % 2 ^ 8) <<< k % 2 ^ width ||| n % 2 ^ k = n % 2 ^ (k + 8) := by
  apply Nat.eq_of_testBit_eq
  intro i
  simp only [Nat.testBit_or, Nat.testBit_mod_two_pow, Nat.testBit_shiftLeft, Nat.testBit_shiftRight]
  grind

theorem word16_bytes (w : UInt16) :
    (w >>> 8).toUInt8.toUInt16 <<< 8 ||| w.toUInt8.toUInt16 = w := by
  apply UInt16.toNat_inj.1
  simp only [UInt16.toNat_or, UInt16.toNat_shiftLeft, UInt8.toNat_toUInt16, UInt16.toNat_toUInt8,
    UInt16.toNat_shiftRight, UInt16.reduceToNat, Nat.reduceMod]
  rw [byte_lor w.toNat (by decide : 8 + 8 ≤ 16)]
  exact Nat.mod_eq_of_lt w.toNat_lt

theorem word32_bytes (w : UInt32) :
    (w >>> 24).toUInt8.toUInt32 <<< 24 ||| (w >>> 16).toUInt8.toUInt32 <<< 16 |||
      (w >>> 8).toUInt8.toUInt32 <<< 8 ||| w.toUInt8.toUInt32 = w := by
  apply UInt32.toNat_inj.1
  simp only [UInt32.toNat_or, UInt32.toNat_shiftLeft, UInt8.toNat_toUInt32, UInt32.toNat_toUInt8,
    UInt32.toNat_shiftRight, UInt32.reduceToNat, Nat.reduceMod, Nat.or_assoc]
  rw [byte_lor w.toNat (by decide : 8 + 8 ≤ 32), byte_lor w.toNat (by decide : 16 + 8 ≤ 32),
    byte_lor w.toNat (by decide : 24 + 8 ≤ 32)]
  exact Nat.mod_eq_of_lt w.toNat_lt

theorem word64_bytes (w : UInt64) :
    (w >>> 56).toUInt8.toUInt64 <<< 56 ||| (w >>> 48).toUInt8.toUInt64 <<< 48 |||
      (w >>> 40).toUInt8.toUInt64 <<< 40 ||| (w >>> 32).toUInt8.toUInt64 <<< 32 |||
      (w >>> 24).toUInt8.toUInt64 <<< 24 ||| (w >>> 16).toUInt8.toUInt64 <<< 16 |||
      (w >>> 8).toUInt8.toUInt64 <<< 8 ||| w.toUInt8.toUInt64 = w := by
  apply UInt64.toNat_inj.1
  simp only [UInt64.toNat_or, UInt64.toNat_shiftLeft, UInt8.toNat_toUInt64, UInt64.toNat_toUInt8,
    UInt64.toNat_shiftRight, UInt64.reduceToNat, Nat.reduceMod, Nat.or_assoc]
  rw [byte_lor w.toNat (by decide : 8 + 8 ≤ 64), byte_lor w.toNat (by decide : 16 + 8 ≤ 64),
    byte_lor w.toNat (by decide : 24 + 8 ≤ 64), byte_lor w.toNat (by decide : 32 + 8 ≤ 64),
    byte_lor w.toNat (by decide : 40 + 8 ≤ 64), byte_lor w.toNat (by decide : 48 + 8 ≤ 64),
    byte_lor w.toNat (by decide : 56 + 8 ≤ 64)]
  exact Nat.mod_eq_of_lt w.toNat_lt

/-- A layout that writes every value, in a fixed number of bytes, and keeps them all. -/
abbrev Fixed (l : Layout α) (size : Nat) : Prop :=
  l.Faithful (fun _ => True) (fun _ => True) fun _ => size

theorem fixed_of_read {l : Layout α} {size : Nat} (bytes : α → Bytes)
    (hw : ∀ x, l.write x = .ok (bytes x)) (hl : ∀ x, (bytes x).length = size)
    (hr : ∀ x rest, l.read (bytes x ++ rest) = .ok (x, rest)) : l.Fixed size where
  writes_iff x := ⟨fun _ => trivial, fun _ => ⟨_, hw x⟩⟩
  length_write {x b} h := by
    rw [hw, Except.ok.injEq] at h
    rw [← h, hl]
  read_write {x b} _ h rest := by
    rw [hw, Except.ok.injEq] at h
    rw [← h, hr]

theorem byte_fixed : byte.Fixed 1 :=
  fixed_of_read (fun b => [b]) (fun _ => rfl) (fun _ => rfl) fun _ _ => rfl

theorem word16_fixed : word16.Fixed 2 :=
  fixed_of_read bytes16 (fun _ => rfl) (fun _ => rfl) fun w rest => by
    simp only [word16, bytes16, List.cons_append, List.nil_append, word16_bytes]

theorem word32_fixed : word32.Fixed 4 :=
  fixed_of_read bytes32 (fun _ => rfl) (fun _ => rfl) fun w rest => by
    simp only [word32, bytes32, List.cons_append, List.nil_append, word32_bytes]

theorem word64_fixed : word64.Fixed 8 :=
  fixed_of_read bytes64 (fun _ => rfl) (fun _ => rfl) fun w rest => by
    simp only [word64, bytes64, List.cons_append, List.nil_append, word64_bytes]

/-! ## Putting layouts together -/

section Combined

variable {l : Layout α} {fits keeps : α → Prop} {size : α → Nat}
variable {l' : Layout β} {fits' keeps' : β → Prop} {size' : β → Nat}

theorem Faithful.congr {fits₂ keeps₂ : α → Prop} {size₂ : α → Nat}
    (h : l.Faithful fits keeps size) (hf : ∀ x, fits x ↔ fits₂ x)
    (hk : ∀ x, keeps₂ x → keeps x) (hs : ∀ x, size x = size₂ x) :
    l.Faithful fits₂ keeps₂ size₂ where
  writes_iff x := (h.writes_iff x).trans (hf x)
  length_write h' := (h.length_write h').trans (hs _)
  read_write hx h' := h.read_write (hk _ hx) h'

theorem seq_write_ok {x : α × β} {b : Bytes} :
    (l.seq l').write x = .ok b ↔
      ∃ b₁ b₂, l.write x.1 = .ok b₁ ∧ l'.write x.2 = .ok b₂ ∧ b = b₁ ++ b₂ := by
  simp only [seq]
  rcases l.write x.1 with e | b₁
  · simp
  · rcases l'.write x.2 with e | b₂ <;> simp [eq_comm]

theorem Faithful.seq (h : l.Faithful fits keeps size) (h' : l'.Faithful fits' keeps' size') :
    (l.seq l').Faithful (fun x => fits x.1 ∧ fits' x.2) (fun x => keeps x.1 ∧ keeps' x.2)
      (fun x => size x.1 + size' x.2) where
  writes_iff x := by
    rw [← h.writes_iff, ← h'.writes_iff]
    simp only [seq_write_ok]
    constructor
    · rintro ⟨_, b₁, b₂, h₁, h₂, -⟩
      exact ⟨⟨b₁, h₁⟩, b₂, h₂⟩
    · rintro ⟨⟨b₁, h₁⟩, b₂, h₂⟩
      exact ⟨_, b₁, b₂, h₁, h₂, rfl⟩
  length_write hw := by
    obtain ⟨b₁, b₂, h₁, h₂, rfl⟩ := seq_write_ok.1 hw
    rw [List.length_append, h.length_write h₁, h'.length_write h₂]
  read_write hk hw rest := by
    obtain ⟨b₁, b₂, h₁, h₂, rfl⟩ := seq_write_ok.1 hw
    simp only [Layout.seq, List.append_assoc, h.read_write hk.1 h₁, h'.read_write hk.2 h₂]

theorem Faithful.refine (h : l.Faithful fits keeps size) {accept : α → Except Flaw β}
    {forget : β → α} :
    (l.refine accept forget).Faithful (fun y => fits (forget y))
      (fun y => keeps (forget y) ∧ accept (forget y) = .ok y) (fun y => size (forget y)) where
  writes_iff y := h.writes_iff (forget y)
  length_write hw := h.length_write hw
  read_write hk hw rest := by
    simp only [Layout.refine, h.read_write hk.1 hw, hk.2]

theorem Faithful.as (h : l.Faithful fits keeps size) {view : α → β} {forget : β → α}
    (hv : ∀ y, view (forget y) = y) :
    (l.as view forget).Faithful (fun y => fits (forget y)) (fun y => keeps (forget y))
      (fun y => size (forget y)) :=
  h.refine.congr (fun _ => Iff.rfl) (fun y hy => ⟨hy, by rw [hv]⟩) fun _ => rfl

theorem Faithful.readAs (h : l.Faithful fits keeps size) {x : α} {b : Bytes} (hk : keeps x)
    (hw : l.write x = .ok b) (make : α → β) (rest : Bytes) :
    l.readAs make (b ++ rest) = .ok (make x, rest) := by
  simp only [Layout.readAs, h.read_write hk hw]

end Combined

/-! ## Counted fields -/

theorem writeCount_ok {field : String} {n : Nat} {b : Bytes} :
    writeCount field n = .ok b ↔ n ≤ maxFieldLength ∧ b = bytes16 n.toUInt16 := by
  unfold writeCount
  split_ifs with h
  · simp only [false_iff]
    omega
  · simp only [Except.ok.injEq]
    exact ⟨fun hb => ⟨by omega, hb.symm⟩, fun hb => hb.2.symm⟩

theorem read_count {n : Nat} (h : n ≤ maxFieldLength) (rest : Bytes) :
    word16.read (bytes16 n.toUInt16 ++ rest) = .ok (n.toUInt16, rest) ∧ n.toUInt16.toNat = n := by
  refine ⟨word16_fixed.read_write trivial rfl rest, ?_⟩
  unfold maxFieldLength at h
  rw [Nat.toUInt16, UInt16.toNat_ofNat']
  exact Nat.mod_eq_of_lt (by omega)

theorem take?_append {n : Nat} {front : Bytes} (h : front.length = n) (rest : Bytes) :
    take? n (front ++ rest) = some (front, rest) := by
  subst h
  simp [take?_eq]

theorem toList_loop (b : ByteArray) (i : Nat) (seen : Bytes) :
    ByteArray.toList.loop b i seen = seen.reverse ++ b.data.toList.drop i := by
  fun_induction ByteArray.toList.loop b i seen with
  | case1 i seen h ih =>
    have hi : i < b.data.size := h
    rw [ih, List.drop_eq_getElem_cons (i := i) (by simpa using hi)]
    simp [ByteArray.get!, getElem!_pos b.data i hi]
  | case2 i seen h =>
    have h' : b.data.toList.length ≤ i := by simpa using h
    simp [List.drop_eq_nil_of_le h']

theorem encode_text (s : String) : Utf8.encode s = s.toByteArray.data.toList := by
  simp [Utf8.encode, ByteArray.toList, toList_loop]

theorem decode_encode_text (s : String) : Utf8.decode (Utf8.encode s) = .ok s := by
  have h : (Utf8.encode s).toByteArray = s.toByteArray := by
    apply ByteArray.ext
    simp [encode_text]
  simp only [Utf8.decode, h, String.fromUTF8?, s.isValidUTF8, dif_pos]
  rfl

theorem length_encode_text (s : String) : (Utf8.encode s).length = s.utf8ByteSize := by
  rw [encode_text, Array.length_toList]
  rfl

theorem text_write_ok {field s : String} {b : Bytes} :
    (text field).write s = .ok b ↔
      s.utf8ByteSize ≤ maxFieldLength ∧ b = bytes16 s.utf8ByteSize.toUInt16 ++ Utf8.encode s := by
  simp only [text]
  rcases hc : writeCount field s.utf8ByteSize with e | c
  · have hn : ¬ s.utf8ByteSize ≤ maxFieldLength := fun h => by
      rw [writeCount_ok.2 ⟨h, rfl⟩] at hc
      cases hc
    simp [hn]
  · obtain ⟨h, rfl⟩ := writeCount_ok.1 hc
    simp [h, eq_comm]

theorem text_faithful (field : String) :
    (text field).Faithful (fun s => s.utf8ByteSize ≤ maxFieldLength) (fun _ => True)
      (fun s => 2 + s.utf8ByteSize) where
  writes_iff s := by simp [text_write_ok]
  length_write hw := by
    obtain ⟨-, rfl⟩ := text_write_ok.1 hw
    simp only [List.length_append, length_encode_text, bytes16, List.length_cons, List.length_nil]
  read_write {s b} _ hw rest := by
    obtain ⟨h, rfl⟩ := text_write_ok.1 hw
    obtain ⟨hr, hn⟩ := read_count h (Utf8.encode s ++ rest)
    simp only [text, List.append_assoc, hr, hn, take?_append (length_encode_text s),
      decode_encode_text]

section Counted

variable {item : Layout α} {fits keeps : α → Prop} {size : α → Nat}

/-- What the items of a list are written as, piece by piece. -/
abbrev Pieces (item : Layout α) : List α → List Bytes → Prop :=
  List.Forall₂ fun x b => item.write x = .ok b

theorem writeItems_ok : ∀ {xs : List α} {written pieces : List Bytes},
    writeItems item xs written = .ok pieces ↔
      ∃ new, pieces = written.reverse ++ new ∧ item.Pieces xs new
  | [], written, pieces => by
    simp [writeItems, eq_comm]
  | x :: xs, written, pieces => by
    simp only [writeItems]
    rcases hx : item.write x with e | b
    · simp [hx, List.forall₂_cons_left_iff]
    · rw [writeItems_ok]
      constructor
      · rintro ⟨new, rfl, hnew⟩
        exact ⟨b :: new, by simp, .cons hx hnew⟩
      · rintro ⟨_, rfl, hnew⟩
        obtain ⟨b', new, hb, hnew', rfl⟩ := List.forall₂_cons_left_iff.1 hnew
        rw [hx, Except.ok.injEq] at hb
        exact ⟨new, by simp [hb], hnew'⟩

theorem writeItems_nil_ok {xs : List α} {pieces : List Bytes} :
    writeItems item xs [] = .ok pieces ↔ item.Pieces xs pieces := by
  simp [writeItems_ok]

theorem counted_write_ok {field : String} {xs : List α} {b : Bytes} :
    (counted field item).write xs = .ok b ↔ xs.length ≤ maxFieldLength ∧
      ∃ pieces, item.Pieces xs pieces ∧ b = bytes16 xs.length.toUInt16 ++ pieces.flatten := by
  simp only [counted, ← writeItems_nil_ok]
  rcases hc : writeCount field xs.length with e | c
  · have hn : ¬ xs.length ≤ maxFieldLength := fun h => by
      rw [writeCount_ok.2 ⟨h, rfl⟩] at hc
      cases hc
    simp [hn]
  · obtain ⟨h, rfl⟩ := writeCount_ok.1 hc
    rcases writeItems item xs [] with e | pieces <;> simp [h, eq_comm]

theorem Faithful.forall_writes (h : item.Faithful fits keeps size) : ∀ xs : List α,
    (∃ pieces, item.Pieces xs pieces) ↔ ∀ x ∈ xs, fits x
  | [] => by simp
  | x :: xs => by
    simp only [List.forall₂_cons_left_iff, List.forall_mem_cons, ← h.writes_iff x,
      ← h.forall_writes xs]
    constructor
    · rintro ⟨_, b, pieces, hb, hp, rfl⟩
      exact ⟨⟨b, hb⟩, pieces, hp⟩
    · rintro ⟨⟨b, hb⟩, pieces, hp⟩
      exact ⟨_, b, pieces, hb, hp, rfl⟩

theorem Faithful.length_pieces (h : item.Faithful fits keeps size) {xs : List α}
    {pieces : List Bytes} (hp : item.Pieces xs pieces) :
    pieces.flatten.length = (xs.map size).sum := by
  induction hp with
  | nil => rfl
  | cons hx _ ih => simp [h.length_write hx, ih]

theorem Faithful.readItems_pieces (h : item.Faithful fits keeps size) {xs : List α}
    {pieces : List Bytes} (hk : ∀ x ∈ xs, keeps x)
    (hp : item.Pieces xs pieces) (rest : Bytes)
    (seen : List α) :
    readItems item xs.length (pieces.flatten ++ rest) seen = .ok (seen.reverse ++ xs, rest) := by
  induction hp generalizing seen with
  | nil => simp [readItems]
  | cons hx _ ih =>
    rw [List.forall_mem_cons] at hk
    simp only [List.length_cons, List.flatten_cons, List.append_assoc, readItems,
      h.read_write hk.1 hx, ih hk.2]
    simp

theorem Faithful.counted (h : item.Faithful fits keeps size) (field : String) :
    (counted field item).Faithful (fun xs => xs.length ≤ maxFieldLength ∧ ∀ x ∈ xs, fits x)
      (fun xs => ∀ x ∈ xs, keeps x) (fun xs => 2 + (xs.map size).sum) where
  writes_iff xs := by
    simp only [counted_write_ok, exists_and_left, ← h.forall_writes xs]
    constructor
    · rintro ⟨hl, b, pieces, hp, -⟩
      exact ⟨hl, pieces, hp⟩
    · rintro ⟨hl, pieces, hp⟩
      exact ⟨hl, _, pieces, hp, rfl⟩
  length_write hw := by
    obtain ⟨-, pieces, hp, rfl⟩ := counted_write_ok.1 hw
    simp only [List.length_append, h.length_pieces hp, bytes16, List.length_cons, List.length_nil]
  read_write {xs b} hk hw rest := by
    obtain ⟨hl, pieces, hp, rfl⟩ := counted_write_ok.1 hw
    obtain ⟨hr, hn⟩ := read_count hl (pieces.flatten ++ rest)
    simp only [Layout.counted, List.append_assoc, hr, hn, h.readItems_pieces hk hp]
    simp

end Counted

end Layout

end EventRelay.Wire
