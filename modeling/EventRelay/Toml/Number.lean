import EventRelay.Toml.Value
import EventRelay.Toml.Reader
import EventRelay.Toml.Quoted

/-!
# Numbers and dates

Integers fit into 64 bits with a sign. Digits may be grouped by single underscores, a decimal
integer has no zero in front, and the bases sixteen, eight and two have a mark and no sign.
Numbers with a fraction or an exponent are checked for their form and for being within range. Dates
and times are checked against the calendar.
-/

namespace EventRelay.Toml

open Reader

def isDigit (c : Char) : Bool := '0' ≤ c && c ≤ '9'

/-- Reads digits of a class, grouped or not. -/
def digits (p : Char → Bool) : Reader (List Char) := do
  let first ← one p
  let more ← many (maybe (exactly "_") *> one p)
  pure (first :: more)

/-- Reads a sign; whether it is a minus. -/
def sign : Reader Bool := (exactly "+" *> pure false) <|> (exactly "-" *> pure true) <|> pure false

/-- Reads decimal digits that do not start with a needless zero. -/
def decimal : Reader (List Char) := do
  let ds ← digits isDigit
  if ds.length > 1 ∧ ds.head? = some '0' then refuse else pure ds

def inRange (n : Int) : Reader Value :=
  if Int64.minValue.toInt ≤ n ∧ n ≤ Int64.maxValue.toInt then pure (.integer (Int64.ofInt n))
  else refuse

/-- Reads an integer with the mark of a base. -/
def marked (mark : String) (base : Nat) (p : Char → Bool) : Reader Value := do
  exactly mark
  let ds ← digits p
  inRange (natural base ds)

def integer : Reader Value :=
  marked "0x" 16 isHexDigit
  <|> marked "0o" 8 (fun c => '0' ≤ c && c ≤ '7')
  <|> marked "0b" 2 (fun c => c == '0' || c == '1')
  <|> do
    let minus ← sign
    let n := natural 10 (← decimal)
    inRange (if minus then -n else n)

/-! ## Fractions -/

/-- Whether `m * 10 ^ e` rounds to something beyond the greatest double. -/
def overflows (m : Nat) (e : Int) : Bool :=
  let size := (Nat.toDigits 10 m).length + e
  let bound := Nat.pow 2 1024 - Nat.pow 2 970
  if m = 0 ∨ size < 300 then false
  else if size > 320 then true
  else if 0 ≤ e then bound ≤ m * Nat.pow 10 e.toNat
  else bound * Nat.pow 10 (-e).toNat ≤ m

def exponent : Reader Int := do
  let _ ← exactly "e" <|> exactly "E"
  let minus ← sign
  let n := natural 10 (← digits isDigit)
  pure (if minus then -n else n)

/-- Reads a number with a fraction, an exponent, or both. -/
def fraction : Reader Value := do
  let minus ← sign
  let whole ← decimal
  let part ← maybe (exactly "." *> digits isDigit)
  let power ← maybe exponent
  if part.isNone ∧ power.isNone then refuse
  let part := part.getD []
  let beyond := overflows (natural 10 (whole ++ part)) (power.getD 0 - part.length)
  if beyond && !minus then refuse else pure .fraction

def special : Reader Value := do
  let _ ← sign
  let _ ← exactly "inf" <|> exactly "nan"
  pure .fraction

/-! ## Dates and times -/

/-- Reads a number of exactly `n` digits within bounds. -/
def within (n least most : Nat) : Reader Nat := do
  let k := natural 10 (← times isDigit n)
  if least ≤ k ∧ k ≤ most then pure k else refuse

def isLeapYear (year : Nat) : Bool := year % 4 == 0 && (year % 100 != 0 || year % 400 == 0)

def daysInMonth (year month : Nat) : Nat :=
  if month = 2 then if isLeapYear year then 29 else 28
  else if month = 4 ∨ month = 6 ∨ month = 9 ∨ month = 11 then 30
  else 31

def day : Reader Unit := do
  let year ← within 4 0 9999
  exactly "-"
  let month ← within 2 1 12
  exactly "-"
  let _ ← within 2 1 (daysInMonth year month)
  pure ()

def time : Reader Unit := do
  let _ ← within 2 0 23
  exactly ":"
  let _ ← within 2 0 59
  exactly ":"
  let _ ← within 2 0 60
  let _ ← maybe (exactly "." *> span1 isDigit)
  pure ()

def zone : Reader Unit :=
  exactly "Z" <|> exactly "z" <|> do
    let _ ← exactly "+" <|> exactly "-"
    let _ ← within 2 0 23
    exactly ":"
    let _ ← within 2 0 59
    pure ()

/-- Reads the time of day behind a day, perhaps with its zone. -/
def timeAfterDay : Reader Unit := do
  exactly "T" <|> exactly "t" <|> exactly " "
  time
  let _ ← maybe zone
  pure ()

/-- Reads a day, a time of day, or both. -/
def date : Reader Value := do
  (day *> maybe timeAfterDay *> pure ()) <|> time
  pure .date

def number : Reader Value := date <|> fraction <|> special <|> integer

end EventRelay.Toml
