import EventRelay.Ieee

/-!
# Numbers from text

How operators write numbers: whole numbers with an optional sign, and numbers with a fraction or an
exponent, or infinity and NaN by name. A number is the floating-point number nearest to what is
written.
-/

namespace EventRelay.Decimal

def isDigit (c : Char) : Bool := '0' ≤ c && c ≤ '9'

def natural (ds : List Char) : Nat := ds.foldl (fun n d => n * 10 + (d.toNat - 48)) 0

/-- Splits a sign off; whether it is a minus. -/
def unsign : List Char → Bool × List Char
  | '-' :: cs => (true, cs)
  | '+' :: cs => (false, cs)
  | cs => (false, cs)

/-- A whole number. -/
def integer? (text : String) : Option Int :=
  let (minus, ds) := unsign text.toList
  if ds ≠ [] ∧ ds.all isDigit then some (if minus then -natural ds else natural ds) else none

/-- A whole number from zero up to a bound. A minus is taken only where `signed` allows it. -/
def bounded? (signed : Bool) (most : Nat) (text : String) : Option Nat := do
  let n ← integer? text
  if 0 ≤ n ∧ n ≤ most ∧ (signed ∨ !text.startsWith "-") then some n.toNat else none

/-- What a number is written as. A finite one is `digits * 10 ^ exponent`. -/
inductive Written where
  | nan
  | infinite (negative : Bool)
  | finite (negative : Bool) (digits : Nat) (exponent : Int)
  deriving DecidableEq, Inhabited

/-- The exponent behind a number, which may be left out. -/
def exponent? : List Char → Option Int
  | [] => some 0
  | e :: cs => if e = 'e' ∨ e = 'E' then integer? (String.ofList cs) else none

def written? (text : String) : Option Written :=
  let (negative, cs) := unsign text.toList
  let name := (String.ofList cs).toLower
  if name = "nan" then some .nan
  else if name = "inf" ∨ name = "infinity" then some (.infinite negative)
  else
    let whole := cs.takeWhile isDigit
    let rest := cs.dropWhile isDigit
    let (part, rest) : List Char × List Char := match rest with
      | '.' :: rest => (rest.takeWhile isDigit, rest.dropWhile isDigit)
      | rest => ([], rest)
    if whole = [] ∧ part = [] then none
    else (exponent? rest).map fun e => .finite negative (natural (whole ++ part)) (e - part.length)

namespace Written

/-- An exponent that no number of that many digits needs to go beyond. -/
def clamp (digits : Nat) (e : Int) : Int :=
  let reach : Int := (Nat.toDigits 10 digits).length + 400
  max (-reach) (min e reach)

def toFloat : Written → Float
  | nan => 0 / 0
  | infinite negative => if negative then -1 / 0 else 1 / 0
  | finite negative m e =>
    let e := clamp m e
    let x := Float.ofScientific m (e < 0) e.natAbs
    if negative then -x else x

def binary64 (w : Written) : Binary64 := .ofFloat w.toFloat

def toFloat32 : Written → Float32
  | nan => 0 / 0
  | infinite negative => if negative then -1 / 0 else 1 / 0
  | finite negative m e =>
    let e := clamp m e
    let x := Float32.ofScientific m (e < 0) e.natAbs
    if negative then -x else x

def binary32 (w : Written) : Binary32 := ⟨w.toFloat32.toBits⟩

end Written

end EventRelay.Decimal
