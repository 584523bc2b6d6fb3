/-!
# Floating-point words

A number on the wire is a bit pattern, and every pattern has to survive a relay unchanged, the
payload of a NaN included. So a number is its word here, and what the program asks of one (its
sign, whether it is finite, its value as an integer times a power of two) is read off the bits.
-/

namespace EventRelay

/-- A 32-bit IEEE 754 number, as its bits. -/
structure Binary32 where
  bits : UInt32
  deriving DecidableEq, Inhabited

/-- A 64-bit IEEE 754 number, as its bits. -/
structure Binary64 where
  bits : UInt64
  deriving DecidableEq, Inhabited

/-- What a word stands for. A finite value is `significand * 2 ^ exponent`; `tight` tells that the
next value towards zero is only half as far as the next one away from it. -/
inductive Ieee.Value where
  | nan
  | infinite (negative : Bool)
  | finite (negative : Bool) (significand : Nat) (exponent : Int) (tight : Bool)
  deriving DecidableEq, Inhabited

/-- The value of a word with `width` fraction bits, read from its three fields; `bias` is the
exponent of the least significant bit of a subnormal number. -/
def Ieee.value (width : Nat) (top : Nat) (bias : Int) (negative : Bool) (exponent fraction : Nat) :
    Ieee.Value :=
  if exponent = top then
    if fraction = 0 then .infinite negative else .nan
  else if exponent = 0 then .finite negative fraction bias false
  else .finite negative (Nat.pow 2 width + fraction) (bias + (exponent - 1 : Nat))
    (fraction = 0 && exponent > 1)

namespace Binary32

def zero : Binary32 := ⟨0⟩
def one : Binary32 := ⟨0x3f800000⟩

def exponent (x : Binary32) : Nat := ((x.bits >>> 23) &&& 0xff).toNat
def fraction (x : Binary32) : Nat := (x.bits &&& 0x7fffff).toNat
def signed (x : Binary32) : Bool := x.bits >>> 31 == 1

def isNaN (x : Binary32) : Bool := x.exponent == 255 && x.fraction != 0
def isFinite (x : Binary32) : Bool := x.exponent != 255
/-- Either zero. -/
def isZero (x : Binary32) : Bool := x.exponent == 0 && x.fraction == 0
/-- Less than zero: minus zero is not, and a NaN is not. -/
def isNegative (x : Binary32) : Bool := x.signed && !x.isZero && !x.isNaN
/-- At least one. -/
def isAtLeastOne (x : Binary32) : Bool := !x.signed && !x.isNaN && x.exponent ≥ 127

def value (x : Binary32) : Ieee.Value := Ieee.value 23 255 (-149) x.signed x.exponent x.fraction

/-- Equality of numbers: the zeros agree, and a NaN differs from everything. -/
def agrees (x y : Binary32) : Bool :=
  !x.isNaN && !y.isNaN && (x.bits == y.bits || (x.isZero && y.isZero))

end Binary32

namespace Binary64

def exponent (x : Binary64) : Nat := ((x.bits >>> 52) &&& 0x7ff).toNat
def fraction (x : Binary64) : Nat := (x.bits &&& 0xfffffffffffff).toNat
def signed (x : Binary64) : Bool := x.bits >>> 63 == 1

def isNaN (x : Binary64) : Bool := x.exponent == 2047 && x.fraction != 0
def isZero (x : Binary64) : Bool := x.exponent == 0 && x.fraction == 0

def value (x : Binary64) : Ieee.Value := Ieee.value 52 2047 (-1074) x.signed x.exponent x.fraction

/-- Equality of numbers: the zeros agree, and a NaN differs from everything. -/
def agrees (x y : Binary64) : Bool :=
  !x.isNaN && !y.isNaN && (x.bits == y.bits || (x.isZero && y.isZero))

def ofFloat (x : Float) : Binary64 := ⟨x.toBits⟩

/-- The number with these three fields. -/
def ofFields (negative : Bool) (exponent fraction : Nat) : Binary64 :=
  ⟨.ofNat ((if negative then Nat.pow 2 63 else 0) + exponent * Nat.pow 2 52 + fraction)⟩

end Binary64

namespace Binary32

/-- The same number in 64 bits, where none but zero is subnormal. The fraction of a NaN is kept. -/
def widen (x : Binary32) : Binary64 :=
  match x.value with
  | .nan => .ofFields x.signed 2047 (Nat.pow 2 29 * x.fraction ||| Nat.pow 2 51)
  | .infinite negative => .ofFields negative 2047 0
  | .finite negative significand exponent _ =>
    if significand = 0 then .ofFields negative 0 0
    else
      let lead := significand.log2
      .ofFields negative (exponent + lead + 1023).toNat
        (significand * Nat.pow 2 (52 - lead) - Nat.pow 2 52)

/-- The number with this word, for arithmetic. -/
def toFloat (x : Binary32) : Float := .ofBits x.widen.bits

end Binary32

end EventRelay
