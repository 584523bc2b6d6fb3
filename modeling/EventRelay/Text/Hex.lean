/-!
# Hexadecimal text

Bytes as two hexadecimal digits each, in lower case; both cases are read.
-/

namespace EventRelay.Hex

def digit (n : Nat) : Char := if n < 10 then Char.ofNat (48 + n) else Char.ofNat (87 + n)

def value? (c : Char) : Option Nat :=
  if '0' ≤ c ∧ c ≤ '9' then some (c.toNat - 48)
  else if 'a' ≤ c ∧ c ≤ 'f' then some (c.toNat - 87)
  else if 'A' ≤ c ∧ c ≤ 'F' then some (c.toNat - 55)
  else none

def byte (b : UInt8) : List Char := [digit (b.toNat / 16), digit (b.toNat % 16)]

def encode (bytes : List UInt8) : String := String.ofList (bytes.flatMap byte)

/-- Reads pairs of digits behind the bytes already read, which come in reverse. -/
def decodeOnto (read : List UInt8) : List Char → Option (List UInt8)
  | [] => some read.reverse
  | a :: b :: rest => do
    let high ← value? a
    let low ← value? b
    decodeOnto ((high * 16 + low).toUInt8 :: read) rest
  | [_] => none

def decode? (text : String) : Option (List UInt8) := decodeOnto [] text.toList

end EventRelay.Hex
