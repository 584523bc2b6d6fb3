/-!
# Where a byte string stops being text

Text on the wire is UTF-8. A string that is not is refused with the place of the first byte that
no character accounts for, and with the number of bytes that are wrong there, unless the bytes
merely end inside a character.
-/

namespace EventRelay.Utf8

/-- The first fault of a byte string: where it is and, unless the string ends in the middle of a
character, how many bytes are bad. -/
structure Fault where
  index : Nat
  extent : Option Nat
  deriving DecidableEq, Inhabited

def Fault.message : Fault → String
  | ⟨index, some n⟩ =>
    "invalid utf-8 sequence of " ++ toString n ++ " bytes from index " ++ toString index
  | ⟨index, none⟩ => "incomplete utf-8 byte sequence from index " ++ toString index

def isContinuation (b : UInt8) : Bool := b &&& 0xc0 == 0x80

/-- The bytes that may follow a lead byte of three: no overlong form and no surrogate. -/
def follows3 (lead b : UInt8) : Bool :=
  if lead == 0xe0 then 0xa0 ≤ b && b ≤ 0xbf
  else if lead == 0xed then 0x80 ≤ b && b ≤ 0x9f
  else isContinuation b

/-- The bytes that may follow a lead byte of four: no overlong form and nothing past U+10FFFF. -/
def follows4 (lead b : UInt8) : Bool :=
  if lead == 0xf0 then 0x90 ≤ b && b ≤ 0xbf
  else if lead == 0xf4 then 0x80 ≤ b && b ≤ 0x8f
  else isContinuation b

/-- How many bytes a character takes that starts with this one; zero if none does. -/
def width (lead : UInt8) : Nat :=
  if lead < 0x80 then 1
  else if lead < 0xc2 then 0
  else if lead < 0xe0 then 2
  else if lead < 0xf0 then 3
  else if lead < 0xf5 then 4
  else 0

/-- What the bytes after a lead byte make of it: the number of bytes taken, or a fault. -/
def continue? (lead : UInt8) (rest : List UInt8) : Except (Option Nat) Nat :=
  match width lead, rest with
  | 1, _ => .ok 0
  | 2, [] => .error none
  | 2, b :: _ => if isContinuation b then .ok 1 else .error (some 1)
  | 3, [] => .error none
  | 3, [b] => if follows3 lead b then .error none else .error (some 1)
  | 3, b :: c :: _ =>
    if !follows3 lead b then .error (some 1)
    else if !isContinuation c then .error (some 2)
    else .ok 2
  | 4, [] => .error none
  | 4, [b] => if follows4 lead b then .error none else .error (some 1)
  | 4, [b, c] =>
    if !follows4 lead b then .error (some 1)
    else if !isContinuation c then .error (some 2)
    else .error none
  | 4, b :: c :: d :: _ =>
    if !follows4 lead b then .error (some 1)
    else if !isContinuation c then .error (some 2)
    else if !isContinuation d then .error (some 3)
    else .ok 3
  | _, _ => .error (some 1)

/-- The fault of the bytes from `index` on, `skip` of which belong to a character already read. -/
def faultFrom (index : Nat) (skip : Nat) : List UInt8 → Option Fault
  | [] => none
  | b :: rest =>
    match skip with
    | n + 1 => faultFrom (index + 1) n rest
    | 0 =>
      match continue? b rest with
      | .ok n => faultFrom (index + 1) n rest
      | .error extent => some ⟨index, extent⟩

/-- The first fault of a byte string, if it is not text. -/
def fault? (bytes : List UInt8) : Option Fault := faultFrom 0 0 bytes

/-- The text of a byte string, or its first fault. -/
def decode (bytes : List UInt8) : Except Fault String :=
  match String.fromUTF8? bytes.toByteArray with
  | some text => .ok text
  | none => .error ((fault? bytes).getD ⟨bytes.length, none⟩)

/-- The characters of bytes, with a replacement character for each fault; `skip` bytes belong to a
character that has been read or replaced already. -/
def replaceFrom (skip : Nat) : List UInt8 → List Char
  | [] => []
  | b :: rest =>
    match skip with
    | n + 1 => replaceFrom n rest
    | 0 =>
      match continue? b rest with
      | .ok n =>
        ((String.fromUTF8? (b :: rest.take n).toByteArray).getD "").toList ++ replaceFrom n rest
      | .error (some n) => '\ufffd' :: replaceFrom (n - 1) rest
      | .error none => ['\ufffd']

/-- The text of a byte string as far as it is one. -/
def decodeLossy (bytes : List UInt8) : String := String.ofList (replaceFrom 0 bytes)

/-- The bytes of a text. -/
def encode (text : String) : List UInt8 := text.toUTF8.toList

end EventRelay.Utf8
