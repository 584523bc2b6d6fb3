import EventRelay.Text.Hex

/-!
# Node addresses

A node is named by an internet address of either family. As text an IPv4 address is four decimal
octets. An IPv6 address is eight groups in hexadecimal, with the first of the longest runs of two or
more zero groups left out, and an address that stands for an IPv4 one shows that one. Reading takes
these forms and no other: no octet with a leading zero, no group of more than four digits, no zone.
-/

namespace EventRelay

/-- An IPv4 address is a 32-bit number, an IPv6 address a 128-bit one, kept as its two halves. -/
inductive Address where
  | v4 (number : UInt32)
  | v6 (high low : UInt64)
  deriving DecidableEq, Inhabited

/-- Whether every host answers to an address: it stands for all addresses of a host, or for the
host itself. -/
def Address.isOwn : Address → Bool
  | v4 number => number == 0 || number >>> 24 == 127
  | v6 high low => high == 0 && low ≤ 1

namespace Address

/-! ## Writing -/

def octets (number : UInt32) : List Nat :=
  ([24, 16, 8, 0] : List UInt32).map fun shift => ((number >>> shift) &&& 0xff).toNat

def dotted (number : UInt32) : String := ".".intercalate ((octets number).map toString)

/-- The eight groups of an IPv6 address. -/
def groups (high low : UInt64) : List Nat :=
  [high, low].flatMap fun half =>
    ([48, 32, 16, 0] : List UInt64).map fun shift => ((half >>> shift) &&& 0xffff).toNat

def hexDigits (n : Nat) : String := String.ofList (Nat.toDigits 16 n)

/-- The run of zeros that starts here is as long as this. -/
def zeroRun (gs : List Nat) : Nat := (gs.takeWhile (· == 0)).length

/-- Where the first of the longest runs of zeros starts and how long it is. -/
def longestRun (gs : List Nat) : Nat × Nat :=
  (List.range gs.length).foldl (fun best i =>
    let n := zeroRun (gs.drop i)
    if n > best.2 then (i, n) else best) (0, 0)

def colons (gs : List Nat) : String := ":".intercalate (gs.map hexDigits)

def text : Address → String
  | .v4 number => dotted number
  | .v6 high low =>
    if high = 0 ∧ low >>> 32 = 0xffff then "::ffff:" ++ dotted low.toUInt32
    else
      let gs := groups high low
      let (start, length) := longestRun gs
      if length > 1 then colons (gs.take start) ++ "::" ++ colons (gs.drop (start + length))
      else colons gs

/-! ## Reading -/

/-- Splits at every occurrence of a character. -/
def splitAll (c : Char) : List Char → List (List Char)
  | [] => [[]]
  | x :: xs =>
    match splitAll c xs with
    | piece :: more => if x = c then [] :: piece :: more else (x :: piece) :: more
    | [] => [[x]]

/-- The text in front of the first pair of colons and the text behind it. -/
def splitPair : List Char → Option (List Char × List Char)
  | ':' :: ':' :: rest => some ([], rest)
  | c :: rest => (splitPair rest).map fun (front, back) => (c :: front, back)
  | [] => none

/-- A number of at most `most` digits in a base of at most sixteen. -/
def number? (base most : Nat) (cs : List Char) : Option Nat :=
  if cs = [] ∨ cs.length > most then none
  else cs.foldl (fun n c => do
    let n ← n
    let d ← Hex.value? c
    if d < base then some (n * base + d) else none) (some 0)

def octet? (cs : List Char) : Option Nat := do
  let n ← number? 10 3 cs
  if n > 255 || (cs.length > 1 && cs.head? == some '0') then none else some n

def v4? (cs : List Char) : Option Nat := do
  let [a, b, c, d] ← (splitAll '.' cs).mapM octet? | none
  some (((a * 256 + b) * 256 + c) * 256 + d)

/-- Groups with colons between them. The last may be an IPv4 address if `mixed` allows it, and
stands for two groups. -/
def groups? (mixed : Bool) : List (List Char) → Option (List Nat)
  | [] => some []
  | [last] =>
    match number? 16 4 last, v4? last with
    | some n, _ => some [n]
    | none, some n => if mixed then some [n / 65536, n % 65536] else none
    | none, none => none
  | g :: gs => do
    let n ← number? 16 4 g
    let ns ← groups? mixed gs
    some (n :: ns)

/-- The groups in a text that may be empty. -/
def part? (mixed : Bool) (cs : List Char) : Option (List Nat) :=
  if cs = [] then some [] else groups? mixed (splitAll ':' cs)

def v6Groups? (cs : List Char) : Option (List Nat) :=
  match splitPair cs with
  | none => do
    let gs ← groups? true (splitAll ':' cs)
    if gs.length = 8 then some gs else none
  | some (front, back) => do
    let head ← part? false front
    let tail ← part? true back
    if head.length + tail.length ≤ 7 then
      some (head ++ List.replicate (8 - head.length - tail.length) 0 ++ tail)
    else none

def ofGroups (gs : List Nat) : Address :=
  let half (gs : List Nat) : UInt64 := (gs.foldl (fun n g => n * 65536 + g) 0).toUInt64
  .v6 (half (gs.take 4)) (half (gs.drop 4))

/-- The address that a text names. -/
def parse? (s : String) : Option Address :=
  match v4? s.toList with
  | some n => some (.v4 n.toUInt32)
  | none => (v6Groups? s.toList).map ofGroups

end Address

end EventRelay
