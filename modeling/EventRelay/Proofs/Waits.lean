import EventRelay.Replay
import Mathlib.Algebra.Ring.Nat
import Mathlib.Tactic.SplitIfs

/-!
# No wait is negative

A gap of the sign of the speed gives a wait that is not negative, with all the roundings on the way:
a number that is packed keeps its sign, and so does one that is rounded, even where it is rounded to
zero. What has to be ruled out is a quotient that is no number, and for that it is enough that a
speed that can be set is neither zero nor infinite, in 64 bits as in 32.
-/

namespace EventRelay

open Float.Model UnpackedFloat

namespace Pace

/-! ## Signs -/

/-- The sign of a number, with signed zeros. -/
def signOf : UnpackedFloat → Option Sign
  | .notANumber => none
  | .infinity s | .zero s | .finite s .. => some s

def signOfBool (negative : Bool) : Sign := if negative then .negative else .positive

theorem signOf_dite {s : Sign} {p : Prop} [Decidable p] {u : p → UnpackedFloat}
    {v : ¬p → UnpackedFloat} (hu : ∀ h, signOf (u h) = some s) (hv : ∀ h, signOf (v h) = some s) :
    signOf (dite p u v) = some s := by
  by_cases h : p
  · rw [dif_pos h, hu]
  · rw [dif_neg h, hv]

/-- What is rounded keeps its sign, even where it is rounded to zero. -/
theorem signOf_roundWithAccuracy (spec : Format) (s : Sign) (m : Nat) (e : Int)
    (accuracy : Accuracy) : signOf (roundWithAccuracy spec s m e accuracy) = some s :=
  signOf_dite (fun _ => rfl) fun _ => rfl

section Arithmetic

variable {u : UnpackedFloat} {s t : Sign} (hu : signOf u = some s) {m : Nat} {e : Int} (hm : 0 < m)

include hu

theorem signOf_mul : signOf (UnpackedFloat.mul .binary64 u (.finite t m e hm)) = some (s * t) := by
  cases u with
  | notANumber => cases hu
  | infinity | zero =>
    cases hu
    rfl
  | finite =>
    cases hu
    exact signOf_roundWithAccuracy ..

theorem signOf_div : signOf (UnpackedFloat.div .binary64 u (.finite t m e hm)) = some (s / t) := by
  cases u with
  | notANumber => cases hu
  | infinity | zero =>
    cases hu
    rfl
  | finite =>
    cases hu
    exact signOf_roundWithAccuracy ..

end Arithmetic

/-! ## Packing -/

theorem unpackSign_packComponents {s : Sign} {e : BitVec 11} {m : BitVec 52} :
    unpackSign (packComponents .binary64 s e m) = s.toBitVec := by
  change (s.toBitVec ++ e ++ m).extractLsb' 63 1 = s.toBitVec
  rw [BitVec.extractLsb'_append_eq_of_le (by omega), BitVec.extractLsb'_append_eq_of_le (by omega)]
  cases s <;> rfl

theorem ofBitVec_toBitVec (s : Sign) : Sign.ofBitVec s.toBitVec = s := by cases s <;> rfl

/-- A word with an exponent that is not all ones is a number. -/
theorem signOf_unpack {b : BitVec 64} (number : @unpackExponent .binary64 b ≠ -1#11) :
    signOf (UnpackedFloat.unpack .binary64 b) =
      some (Sign.ofBitVec (@unpackSign .binary64 b)) := by
  unfold UnpackedFloat.unpack
  rw [if_neg number]
  by_cases subnormal : @unpackExponent .binary64 b = 0#11
  · rw [if_pos subnormal]
    exact signOf_dite (fun _ => rfl) fun _ => rfl
  · rw [if_neg subnormal]
    rfl

theorem signOf_unpack_packComponents (s : Sign) {e : BitVec 11} (m : BitVec 52)
    (number : e ≠ -1#11) :
    signOf (UnpackedFloat.unpack .binary64 (packComponents .binary64 s e m)) = some s := by
  rw [signOf_unpack (by rwa [unpackExponent_packComponents]), unpackSign_packComponents,
    ofBitVec_toBitVec]

theorem signOf_unpack_pack (u : UnpackedFloat) :
    signOf (UnpackedFloat.unpack .binary64 (UnpackedFloat.pack .binary64 u)) = signOf u := by
  cases u with
  | notANumber => rfl
  | infinity s => cases s <;> rfl
  | zero s => cases s <;> rfl
  | finite s m e hm =>
    change signOf (UnpackedFloat.unpack .binary64 (ite _ _ (ite _ _ _))) = some s
    split_ifs with large normal
    · cases s <;> rfl
    · refine signOf_unpack_packComponents _ _ fun ones => ?_
      have ones := congrArg BitVec.toNat ones
      rw [BitVec.toNat_ofNat] at ones
      change _ % 2 ^ 11 = 2047 at ones
      change ¬2 ^ 11 ≤ _ at large
      omega
    · exact signOf_unpack_packComponents _ _ (by decide)

theorem toNat_append_one (m : BitVec 52) : (1#1 ++ m).toNat = 2 ^ 52 + m.toNat := by
  rw [BitVec.toNat_append, ← Nat.shiftLeft_add_eq_or_of_lt m.isLt]
  rfl

/-- A number that is neither zero nor infinite nor subnormal. -/
def Normal (s : Sign) (u : UnpackedFloat) : Prop :=
  ∃ m e h, u = .finite s m e h ∧ m.log2 = 52 ∧ 0 < e + 1075 ∧ e + 1075 < 2047

theorem normal_unpack {b : BitVec 64} (pos : 0 < (@unpackExponent .binary64 b).toNat)
    (lt : (@unpackExponent .binary64 b).toNat < 2047) :
    Normal (.ofBitVec (@unpackSign .binary64 b)) (UnpackedFloat.unpack .binary64 b) := by
  have number : @unpackExponent .binary64 b ≠ -1#11 := by
    intro ones
    rw [ones] at lt
    exact absurd lt (by decide)
  have normal : @unpackExponent .binary64 b ≠ 0#11 := by
    intro zero
    rw [zero] at pos
    exact absurd pos (by decide)
  have mantissa := toNat_append_one (@unpackMantissa .binary64 b)
  have small := (@unpackMantissa .binary64 b).isLt
  refine ⟨(1#1 ++ @unpackMantissa .binary64 b).toNat,
    (@unpackExponent .binary64 b).toNat - 1075, by rw [mantissa]; omega, ?_, ?_, ?_, ?_⟩
  · unfold UnpackedFloat.unpack
    rw [if_neg number, if_neg normal]
    rfl
  · rw [mantissa, Nat.log2_eq_iff (by omega)]
    omega
  · omega
  · omega

theorem normal_unpack_pack {s : Sign} {u : UnpackedFloat} (normal : Normal s u) :
    Normal s (UnpackedFloat.unpack .binary64 (UnpackedFloat.pack .binary64 u)) := by
  obtain ⟨m, e, hm, rfl, lead, pos, lt⟩ := normal
  have biased : (e + Format.binary64.exponentBias + (52 : Nat)).toNat = (e + 1075).toNat := by
    rw [show Format.binary64.exponentBias = 1023 from rfl]
    omega
  have packed : UnpackedFloat.pack .binary64 (.finite s m e hm) =
      packComponents .binary64 s (BitVec.ofNat 11 (e + 1075).toNat) (BitVec.ofNat 52 m) := by
    unfold UnpackedFloat.pack
    dsimp only
    rw [biased, if_neg (by omega), if_pos (by rw [lead]; rfl)]
  have field : (BitVec.ofNat 11 (e + 1075).toNat).toNat = (e + 1075).toNat := by
    rw [BitVec.toNat_ofNat]
    omega
  have kept := @normal_unpack (packComponents .binary64 s (BitVec.ofNat 11 (e + 1075).toNat)
    (BitVec.ofNat 52 m)) (by rw [unpackExponent_packComponents, field]; omega)
    (by rw [unpackExponent_packComponents, field]; omega)
  rwa [unpackSign_packComponents, ofBitVec_toBitVec, ← packed] at kept

theorem toNat_unpackExponent (b : BitVec 64) :
    (@unpackExponent .binary64 b).toNat = b.toNat / 2 ^ 52 % 2 ^ 11 := by
  rw [← Nat.shiftRight_eq_div_pow]
  exact BitVec.extractLsb_toNat 62 52 b

theorem toNat_unpackSign (b : BitVec 64) :
    (@unpackSign .binary64 b).toNat = b.toNat / 2 ^ 63 % 2 := by
  rw [← Nat.shiftRight_eq_div_pow]
  exact BitVec.extractLsb_toNat 63 63 b

theorem toNat_ofFields (negative : Bool) {exponent fraction : Nat} (he : exponent < 2048)
    (hf : fraction < 2 ^ 52) : (Binary64.ofFields negative exponent fraction).bits.toBitVec.toNat =
      (if negative then 2 ^ 63 else 0) + exponent * 2 ^ 52 + fraction := by
  rw [Binary64.ofFields, UInt64.toNat_toBitVec, UInt64.toNat_ofNat', Nat.pow_eq, Nat.pow_eq]
  refine Nat.mod_eq_of_lt ?_
  split_ifs <;> omega

/-- The fields of a word can be read off it. -/
theorem unpack_ofFields (negative : Bool) {exponent fraction : Nat} (he : exponent < 2048)
    (hf : fraction < 2 ^ 52) :
    let b := (Binary64.ofFields negative exponent fraction).bits.toBitVec
    (@unpackExponent .binary64 b).toNat = exponent ∧
      Sign.ofBitVec (@unpackSign .binary64 b) = signOfBool negative := by
  intro b
  have word := toNat_ofFields negative he hf
  have sign := toNat_unpackSign b
  rw [toNat_unpackExponent]
  rw [word] at sign ⊢
  cases negative
  · refine ⟨by simp only [Bool.false_eq_true, if_false]; omega, if_pos (BitVec.toNat_inj.1 ?_)⟩
    rw [sign]
    simp only [Bool.false_eq_true, if_false, BitVec.toNat_zero]
    omega
  · refine ⟨by simp only [if_true]; omega, if_neg fun zero => ?_⟩
    rw [zero] at sign
    simp only [if_true, BitVec.toNat_zero] at sign
    omega

/-! ## Speeds -/

variable {x : Binary32}

/-- A speed that can be set is finite and not zero. -/
theorem value_of_accepted (accepted : Replay.acceptsSpeed x = true) : ∃ m e t,
    x.value = .finite x.isNegative m e t ∧ 0 < m ∧ m < 2 ^ 24 ∧ -149 ≤ e ∧ e ≤ 104 := by
  have fraction : x.fraction < 2 ^ 23 := by
    have := Nat.and_le_right (n := x.bits.toNat) (m := 0x7fffff)
    rw [Binary32.fraction, UInt32.toNat_and]
    exact Nat.lt_of_le_of_lt this (by decide)
  have exponent : x.exponent ≤ 255 := by
    rw [Binary32.exponent, UInt32.toNat_and]
    exact Nat.and_le_right
  simp only [Replay.acceptsSpeed, Binary32.isFinite, Bool.and_eq_true, Bool.not_eq_true',
    bne_iff_ne] at accepted
  obtain ⟨nonzero, finite⟩ := accepted
  have sign : x.isNegative = x.signed := by
    simp [Binary32.isNegative, nonzero, Binary32.isNaN, finite]
  rw [Binary32.value, Ieee.value, if_neg finite, sign]
  split_ifs with subnormal
  · refine ⟨_, _, _, rfl, Nat.pos_of_ne_zero fun zero => ?_, by omega, by omega, by omega⟩
    simp [Binary32.isZero, subnormal, zero] at nonzero
  · refine ⟨_, _, _, rfl, ?_, ?_, by omega, by omega⟩
    · change 0 < 2 ^ 23 + x.fraction
      omega
    · change 2 ^ 23 + x.fraction < 2 ^ 24
      omega

/-- A speed that can be set is neither zero nor infinite in 64 bits, and not subnormal. -/
theorem normal_toFloat (accepted : Replay.acceptsSpeed x = true) :
    Normal (signOfBool x.isNegative) x.toFloat.toModel.unpack := by
  obtain ⟨m, e, t, value, pos, lt, least, greatest⟩ := value_of_accepted accepted
  have nonzero : m ≠ 0 := Nat.ne_of_gt pos
  have lead : m.log2 < 24 := (Nat.log2_lt nonzero).2 lt
  have fraction : m * 2 ^ (52 - m.log2) - 2 ^ 52 < 2 ^ 52 := by
    have := Nat.mul_lt_mul_of_pos_right (Nat.lt_log2_self (n := m)) (Nat.two_pow_pos (52 - m.log2))
    rw [← Nat.pow_add, show m.log2 + 1 + (52 - m.log2) = 53 by omega] at this
    omega
  have widened : x.widen = .ofFields x.isNegative (e + m.log2 + 1023).toNat
      (m * 2 ^ (52 - m.log2) - 2 ^ 52) := by
    rw [Binary32.widen, value]
    exact if_neg nonzero
  have small : (e + m.log2 + 1023).toNat < 2048 := by omega
  obtain ⟨exponent, sign⟩ := unpack_ofFields x.isNegative small fraction
  have normal := normal_unpack (b := x.widen.bits.toBitVec)
    (by rw [widened, exponent]; omega) (by rw [widened, exponent]; omega)
  rw [widened, sign, ← widened] at normal
  exact normal_unpack_pack normal

/-! ## Gaps -/

theorem signOf_round (spec : Format) (s : Sign) (m : Nat) (e : Int) :
    signOf (UnpackedFloat.round spec s m e) = some s := signOf_roundWithAccuracy ..

theorem signOf_unpackedOfNat (n : Nat) :
    signOf (UnpackedFloat.ofNat .binary64 n) = some .positive := by
  unfold UnpackedFloat.ofNat UnpackedFloat.ofInt UnpackedFloat.normalize
  split
  · next negative => exact absurd (Int.compare_eq_lt.1 negative) (by omega)
  · rfl
  · exact signOf_round ..

theorem signOf_ofScientific (n : Nat) :
    signOf (UnpackedFloat.ofScientific .binary64 n 0) = some .positive := by
  unfold UnpackedFloat.ofScientific
  refine signOf_dite (fun _ => rfl) fun nonzero => ?_
  have small : ¬(0 : Int) < -((2 : Int) ^ 11 + n.log2) := by omega
  rw [if_neg (by decide), if_neg small, if_pos (by decide)]
  exact signOf_mul (s := .positive) rfl _

/-- Small natural numbers are converted by way of a product with one. -/
theorem signOf_ofNat (n : Nat) : signOf (Float.ofNat n).toModel.unpack = some .positive := by
  have unfolded : Float.ofNat n = Float.ofScientific n false 0 := rfl
  rw [unfolded, Float.ofScientific]
  by_cases small : n < 2 ^ 53 ∧ 0 ≤ 22
  · obtain ⟨m, e, h, one⟩ : ∃ m e h, (Float.ofBits 0x3FF0000000000000).toModel.unpack =
        .finite .positive m e h := ⟨2 ^ 52, -52, by decide, rfl⟩
    have converted : signOf (n.toUInt64.toFloat).toModel.unpack = some .positive :=
      (signOf_unpack_pack _).trans (signOf_unpackedOfNat _)
    rw [dif_pos small]
    change signOf (UnpackedFloat.unpack .binary64 (UnpackedFloat.pack .binary64
      (UnpackedFloat.mul .binary64 (n.toUInt64.toFloat).toModel.unpack
        (Float.ofBits 0x3FF0000000000000).toModel.unpack))) = _
    rw [signOf_unpack_pack, one, signOf_mul converted]
    rfl
  · rw [dif_neg small]
    exact (signOf_unpack_pack _).trans (signOf_ofScientific n)

theorem signOf_neg {u : UnpackedFloat} {s : Sign} (hu : signOf u = some s) :
    signOf u.neg = some (-s) := by
  cases u with
  | notANumber => cases hu
  | infinity | zero | finite =>
    cases hu
    rfl

theorem signOf_ofInt (n : Int) :
    signOf (Float.ofInt n).toModel.unpack = some (signOfBool (n < 0)) := by
  cases n with
  | ofNat n =>
    rw [signOfBool, if_neg (by simp)]
    exact signOf_ofNat n
  | negSucc n =>
    rw [signOfBool, if_pos (by simp [Int.negSucc_lt_zero])]
    exact (signOf_unpack_pack _).trans (signOf_neg (signOf_ofNat (n + 1)))

theorem zero_le {u : UnpackedFloat} (hu : signOf u = some .positive) :
    UnpackedFloat.le (.zero .positive) u = true := by
  cases u with
  | notANumber => cases hu
  | infinity | zero | finite =>
    cases hu
    rfl

/-- A positive number is not less than zero, and neither is a zero of either sign. -/
theorem zero_le_unpack_pack {u : UnpackedFloat} (h : signOf u = some .positive ∨ ∃ s, u = .zero s) :
    UnpackedFloat.le (.zero .positive)
      (UnpackedFloat.unpack .binary64 (UnpackedFloat.pack .binary64 u)) = true := by
  rcases h with h | ⟨s, rfl⟩
  · exact zero_le ((signOf_unpack_pack u).trans h)
  · cases s <;> rfl

theorem not_zero_lt {u : UnpackedFloat} (hu : signOf u = some .negative) :
    UnpackedFloat.lt (.zero .positive) u = false := by
  cases u with
  | notANumber => cases hu
  | infinity | zero | finite =>
    cases hu
    rfl

/-- The sign of a gap at a speed, where no gap at all counts as positive. -/
theorem signOf_ratio (accepted : Replay.acceptsSpeed x = true) (gap : Int) :
    signOf (UnpackedFloat.div .binary64 (Float.ofInt gap).toModel.unpack
      x.toFloat.toModel.unpack) =
        some (signOfBool (gap < 0) / signOfBool x.isNegative) := by
  obtain ⟨m, e, h, speed, -⟩ := normal_toFloat accepted
  rw [speed, signOf_div (signOf_ofInt gap)]

/-- A gap of the sign of the speed, or none at all, gives a quotient that is not negative. Without a
gap it may be the negative zero. -/
theorem quotient_nonneg {gap : Int} (accepted : Replay.acceptsSpeed x = true)
    (toward : gap = 0 ∨ (gap < 0 ↔ x.isNegative = true)) : 0 ≤ quotient gap x := by
  have nonneg : signOf (UnpackedFloat.div .binary64 (Float.ofInt gap).toModel.unpack
        x.toFloat.toModel.unpack) = some .positive ∨
      ∃ s, UnpackedFloat.div .binary64 (Float.ofInt gap).toModel.unpack
        x.toFloat.toModel.unpack = .zero s := by
    rcases toward with rfl | same
    · obtain ⟨m, e, h, speed, -⟩ := normal_toFloat accepted
      rw [speed]
      exact .inr ⟨.positive / signOfBool x.isNegative, rfl⟩
    · refine .inl ?_
      have sign : decide (gap < 0) = x.isNegative := by
        rw [Bool.eq_iff_iff, decide_eq_true_eq]
        exact same
      rw [signOf_ratio accepted, sign]
      cases x.isNegative <;> rfl
  exact decide_eq_true (zero_le_unpack_pack nonneg)

/-- A gap against the sign of the speed is not waited for. -/
theorem delayMillis_eq_zero {gap : Int} (accepted : Replay.acceptsSpeed x = true)
    (against : gap < 0 ↔ x.isNegative = false) : delayMillis gap x = 0 := by
  have sign : decide (gap < 0) = !x.isNegative := by
    rw [Bool.eq_iff_iff, decide_eq_true_eq, against, Bool.not_eq_true']
  have negative : signOf (UnpackedFloat.div .binary64 (Float.ofInt gap).toModel.unpack
      x.toFloat.toModel.unpack) = some .negative := by
    rw [signOf_ratio accepted, sign]
    cases x.isNegative <;> rfl
  have none : ¬quotient gap x > 0 := by
    intro pos
    have pos : UnpackedFloat.lt (.zero .positive) (UnpackedFloat.unpack .binary64
        (UnpackedFloat.pack .binary64 (UnpackedFloat.div .binary64
          (Float.ofInt gap).toModel.unpack x.toFloat.toModel.unpack))) = true :=
      of_decide_eq_true pos
    rw [not_zero_lt ((signOf_unpack_pack _).trans negative)] at pos
    cases pos
  rw [delayMillis, delayMicros]
  simp only [none, if_false]

end Pace

end EventRelay
