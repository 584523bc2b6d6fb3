import EventRelay.Decimal.Shortest

/-!
# Numbers as text

The ways in which a number is written: with its shortest digits, positionally or with an exponent,
or with a fixed number of places after the point.
-/

namespace EventRelay.Decimal

/-- A way of writing shortest digits. The leading digit's exponent decides between positional
notation and an exponent. -/
structure Style where
  /-- The least and the greatest exponent written positionally, if there are bounds. -/
  positional : Option (Int × Int)
  /-- A whole number ends in a point and a zero. -/
  pointed : Bool
  /-- A positive exponent has a sign. -/
  signedExponent : Bool
  /-- The text for numbers that are not finite; without it they are written as words. -/
  nonFinite : Option String

/-- Numbers in running text are positional throughout. -/
def Style.plain : Style := ⟨none, false, false, none⟩

/-- Numbers in lists show that they are not whole numbers. -/
def Style.listed : Style := ⟨some (-4, 15), true, false, none⟩

/-- Double-precision numbers in JSON, which has no numbers beyond the finite ones. -/
def Style.json64 : Style := ⟨some (-5, 15), true, true, some "null"⟩

/-- Single-precision numbers in JSON. -/
def Style.json32 : Style := ⟨some (-6, 12), true, true, some "null"⟩

def zeros (n : Nat) : String := String.ofList (List.replicate n '0')

def sign (negative : Bool) : String := if negative then "-" else ""

namespace Digits

variable (x : Digits)

def text : String := toString x.digits

/-- The exponent of the leading digit. -/
def lead : Int := x.exponent + x.text.length - 1

def positional (pointed : Bool) : String :=
  let ds := x.text.toList
  if 0 ≤ x.exponent then
    x.text ++ zeros x.exponent.toNat ++ (if pointed then ".0" else "")
  else if 0 ≤ x.lead then
    let whole := (x.lead + 1).toNat
    String.ofList (ds.take whole) ++ "." ++ String.ofList (ds.drop whole)
  else "0." ++ zeros (-x.lead - 1).toNat ++ x.text

def scientific (signedExponent : Bool) : String :=
  let ds := x.text.toList
  String.ofList (ds.take 1) ++
    (if ds.length > 1 then "." ++ String.ofList (ds.drop 1) else "") ++ "e" ++
    (if 0 ≤ x.lead && signedExponent then "+" else "") ++ toString x.lead

def write (style : Style) : String :=
  match style.positional with
  | none => x.positional style.pointed
  | some (least, greatest) =>
    if least ≤ x.lead && x.lead ≤ greatest then x.positional style.pointed
    else x.scientific style.signedExponent

end Digits

/-- A number with its shortest digits. -/
def write (style : Style) : Ieee.Value → String
  | .nan => style.nonFinite.getD "NaN"
  | .infinite negative => style.nonFinite.getD (sign negative ++ "inf")
  | .finite negative 0 _ _ => sign negative ++ if style.pointed then "0.0" else "0"
  | .finite negative m q tight => sign negative ++ (shortest ⟨m, q, tight⟩).write style

/-- The whole number nearest to a fraction; a tie goes to the even one. -/
def roundEven (num den : Nat) : Nat :=
  let n := num / den
  let rest := 2 * (num % den)
  if rest < den || (rest = den && n % 2 = 0) then n else n + 1

/-- A number with a fixed number of places, rounded from its exact value. -/
def writeFixed (places : Nat) : Ieee.Value → String
  | .nan => "NaN"
  | .infinite negative => sign negative ++ "inf"
  | .finite negative m q _ =>
    let n := roundEven (m * Nat.pow 2 q.toNat * Nat.pow 10 places) (Nat.pow 2 (-q).toNat)
    let fraction := toString (n % Nat.pow 10 places)
    sign negative ++ toString (n / Nat.pow 10 places) ++ "." ++ zeros (places - fraction.length) ++
      fraction

end EventRelay.Decimal
