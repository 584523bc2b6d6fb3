import EventRelay.Ieee

/-!
# The shortest decimal that reads back

A finite number is `m * 2 ^ q`, and the reals that round to it lie between the midpoints to its two
neighbours; the midpoints themselves count when `m` is even. The shortest decimal is the one with
the fewest digits among them, and of several the nearest to the number. On the grid of multiples of
a power of ten only the two grid points around the number need a look: if any point of the grid is
close enough, then one of these is.

Everything is exact: the comparisons are between natural numbers.
-/

namespace EventRelay.Decimal

/-- `digits * 10 ^ exponent`. -/
structure Digits where
  digits : Nat
  exponent : Int
  deriving DecidableEq, Inhabited

/-- `m * 2 ^ q` for a positive `m`, with what is needed of its neighbours. -/
structure Magnitude where
  significand : Nat
  exponent : Int
  tight : Bool

namespace Magnitude

variable (x : Magnitude)

/-- A quarter of the distance to the next number is the unit of the midpoints. -/
def unit : Int := x.exponent - 2
def center : Nat := 4 * x.significand
def low : Nat := x.center - if x.tight then 1 else 2
def high : Nat := x.center + 2

/-- `c` units over `10 ^ e`, as a fraction. -/
def ratio (c : Nat) (e : Int) : Nat × Nat :=
  (c * Nat.pow 2 x.unit.toNat * Nat.pow 10 (-e).toNat,
    Nat.pow 2 (-x.unit).toNat * Nat.pow 10 e.toNat)

/-- The grid point `n * 10 ^ e` rounds to the number. -/
def admits (n : Nat) (e : Int) : Bool :=
  let (a, d) := x.ratio x.low e
  let (b, _) := x.ratio x.high e
  let n := n * d
  if x.significand % 2 = 0 then a ≤ n && n ≤ b else a < n && n < b

/-- Of the two grid points around the number, those that round to it, the nearer first; on a tie
the even one. -/
def neighbours (e : Int) : List Nat :=
  let (c, d) := x.ratio x.center e
  let n := c / d
  let below := 2 * (c % d)
  let ordered :=
    if below < d || (below = d && n % 2 = 0) then [n, n + 1] else [n + 1, n]
  ordered.filter (x.admits · e)

/-- The exponent of the leading digit: the number is at least `10 ^ e` and less than ten times
that. -/
def lead : Int :=
  let (c, d) := x.ratio x.center (-x.unit.natAbs)
  (Nat.toDigits 10 (c / d)).length - 1 - x.unit.natAbs

/-- The first grid from `e` downwards with a point that rounds to the number. -/
def search : Nat → Int → Digits
  | 0, e => ⟨(x.ratio x.center e).1 / (x.ratio x.center e).2, e⟩
  | fuel + 1, e =>
    match x.neighbours e with
    | n :: _ => ⟨n, e⟩
    | [] => search fuel (e - 1)

end Magnitude

/-- Drops zeros at the end of the digits. -/
def Digits.trimmed : Nat → Digits → Digits
  | 0, x => x
  | fuel + 1, x =>
    if x.digits ≠ 0 ∧ x.digits % 10 = 0 then trimmed fuel ⟨x.digits / 10, x.exponent + 1⟩ else x

/-- The shortest decimal of a positive number. Seventeen digits are always enough. -/
def shortest (x : Magnitude) : Digits :=
  (x.search 17 x.lead).trimmed 17

end EventRelay.Decimal
