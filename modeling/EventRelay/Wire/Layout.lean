import EventRelay.Text.Utf8

/-!
# Layouts

A layout is one way of putting values into bytes: a writer and the reader of what it writes, side
by side, so that the two cannot drift apart. A reader takes what it needs from the front of its
input and returns the rest; a writer refuses a text or a list whose length does not fit its
sixteen-bit count. Layouts are put together from smaller ones, and the bodies of all messages are
put together from the layouts here.
-/

namespace EventRelay.Wire

abbrev Bytes := List UInt8

/-- Why a body does not read. -/
inductive Flaw where
  | truncated
  | unknownStatus (number : UInt8)
  | unknownNodeEvent (number : UInt8)
  | invalidOffset (offset : Int64)
  | unknownFamily (family : UInt8)
  | badText (fault : Utf8.Fault)
  | unread (count : Nat)
  deriving DecidableEq, Inhabited

def Flaw.message : Flaw → String
  | truncated => "body truncated"
  | unknownStatus n => "unknown status " ++ toString n.toNat
  | unknownNodeEvent n => "unknown node event " ++ toString n.toNat
  | invalidOffset offset => "invalid seek offset " ++ toString offset.toInt
  | unknownFamily n => "unknown address family " ++ toString n.toNat
  | badText fault => "invalid UTF-8: " ++ fault.message
  | unread n => toString n ++ " unread body bytes"

/-- The length of a text in bytes, or of a list in items, can be written up to here. -/
def maxFieldLength : Nat := 65535

/-- A field too long for its count. -/
structure Overlong where
  field : String
  length : Nat
  deriving DecidableEq, Inhabited

/-- A writer and the reader of what it writes. -/
structure Layout (α : Type) where
  write : α → Except Overlong Bytes
  read : Bytes → Except Flaw (α × Bytes)

namespace Layout

variable {α β : Type}

/-! ## Words, most significant byte first -/

def bytes16 (w : UInt16) : Bytes := [(w >>> 8).toUInt8, w.toUInt8]

def bytes32 (w : UInt32) : Bytes :=
  [(w >>> 24).toUInt8, (w >>> 16).toUInt8, (w >>> 8).toUInt8, w.toUInt8]

def bytes64 (w : UInt64) : Bytes :=
  [(w >>> 56).toUInt8, (w >>> 48).toUInt8, (w >>> 40).toUInt8, (w >>> 32).toUInt8,
    (w >>> 24).toUInt8, (w >>> 16).toUInt8, (w >>> 8).toUInt8, w.toUInt8]

def byte : Layout UInt8 where
  write b := .ok [b]
  read
    | b :: rest => .ok (b, rest)
    | _ => .error .truncated

def word16 : Layout UInt16 where
  write w := .ok (bytes16 w)
  read
    | a :: b :: rest => .ok (a.toUInt16 <<< 8 ||| b.toUInt16, rest)
    | _ => .error .truncated

def word32 : Layout UInt32 where
  write w := .ok (bytes32 w)
  read
    | a :: b :: c :: d :: rest =>
      .ok (a.toUInt32 <<< 24 ||| b.toUInt32 <<< 16 ||| c.toUInt32 <<< 8 ||| d.toUInt32, rest)
    | _ => .error .truncated

def word64 : Layout UInt64 where
  write w := .ok (bytes64 w)
  read
    | a :: b :: c :: d :: e :: f :: g :: h :: rest =>
      .ok (a.toUInt64 <<< 56 ||| b.toUInt64 <<< 48 ||| c.toUInt64 <<< 40 ||| d.toUInt64 <<< 32 |||
        e.toUInt64 <<< 24 ||| f.toUInt64 <<< 16 ||| g.toUInt64 <<< 8 ||| h.toUInt64, rest)
    | _ => .error .truncated

/-! ## Putting layouts together -/

/-- One value after the other. -/
def seq (first : Layout α) (second : Layout β) : Layout (α × β) where
  write x :=
    match first.write x.1 with
    | .error e => .error e
    | .ok front =>
      match second.write x.2 with
      | .error e => .error e
      | .ok back => .ok (front ++ back)
  read bytes :=
    match first.read bytes with
    | .error e => .error e
    | .ok (a, rest) =>
      match second.read rest with
      | .error e => .error e
      | .ok (b, rest) => .ok ((a, b), rest)

/-- Reads a value and puts it into a larger one. -/
def readAs (layout : Layout α) (make : α → β) (bytes : Bytes) : Except Flaw (β × Bytes) :=
  match layout.read bytes with
  | .error e => .error e
  | .ok (a, rest) => .ok (make a, rest)

/-- The same bytes, seen as values of another type, some of which may be refused. -/
def refine (layout : Layout α) (accept : α → Except Flaw β) (forget : β → α) : Layout β where
  write y := layout.write (forget y)
  read bytes :=
    match layout.read bytes with
    | .error e => .error e
    | .ok (a, rest) =>
      match accept a with
      | .error e => .error e
      | .ok b => .ok (b, rest)

/-- The same bytes, seen as values of another type. -/
def as (layout : Layout α) (view : α → β) (forget : β → α) : Layout β :=
  layout.refine (fun a => .ok (view a)) forget

/-! ## Counted fields -/

/-- The sixteen-bit count in front of a text or a list. -/
def writeCount (field : String) (length : Nat) : Except Overlong Bytes :=
  if length > maxFieldLength then .error ⟨field, length⟩ else .ok (bytes16 length.toUInt16)

/-- The first `n` bytes and the rest, if there are that many. `taken` holds the bytes already
taken, last first. -/
def takeInto : Nat → Bytes → Bytes → Option (Bytes × Bytes)
  | 0, taken, rest => some (taken.reverse, rest)
  | _ + 1, _, [] => none
  | n + 1, taken, b :: rest => takeInto n (b :: taken) rest

def take? (n : Nat) (bytes : Bytes) : Option (Bytes × Bytes) := takeInto n [] bytes

theorem takeInto_eq (n : Nat) (taken bytes : Bytes) :
    takeInto n taken bytes =
      if n ≤ bytes.length then some (taken.reverse ++ bytes.take n, bytes.drop n) else none := by
  fun_induction takeInto n taken bytes with
  | case1 => simp
  | case2 => simp
  | case3 n taken b rest ih => simp [ih]

theorem take?_eq (n : Nat) (bytes : Bytes) :
    take? n bytes = if n ≤ bytes.length then some (bytes.take n, bytes.drop n) else none := by
  simp [take?, takeInto_eq]

/-- A text behind the count of its bytes. -/
def text (field : String) : Layout String where
  write s :=
    match writeCount field s.utf8ByteSize with
    | .error e => .error e
    | .ok count => .ok (count ++ Utf8.encode s)
  read bytes :=
    match word16.read bytes with
    | .error e => .error e
    | .ok (n, rest) =>
      match take? n.toNat rest with
      | none => .error .truncated
      | some (raw, rest) =>
        match Utf8.decode raw with
        | .error fault => .error (.badText fault)
        | .ok s => .ok (s, rest)

/-- Writes items one after the other behind `written`, the pieces already written, last first. -/
def writeItems (item : Layout α) : List α → List Bytes → Except Overlong (List Bytes)
  | [], written => .ok written.reverse
  | x :: xs, written =>
    match item.write x with
    | .error e => .error e
    | .ok piece => writeItems item xs (piece :: written)

/-- Reads `n` items; `seen` holds the items already read, last first. -/
def readItems (item : Layout α) : Nat → Bytes → List α → Except Flaw (List α × Bytes)
  | 0, bytes, seen => .ok (seen.reverse, bytes)
  | n + 1, bytes, seen =>
    match item.read bytes with
    | .error e => .error e
    | .ok (x, rest) => readItems item n rest (x :: seen)

/-- A list behind the count of its items. -/
def counted (field : String) (item : Layout α) : Layout (List α) where
  write xs :=
    match writeCount field xs.length with
    | .error e => .error e
    | .ok count =>
      match writeItems item xs [] with
      | .error e => .error e
      | .ok pieces => .ok (count ++ pieces.flatten)
  read bytes :=
    match word16.read bytes with
    | .error e => .error e
    | .ok (n, rest) => readItems item n.toNat rest []

end Layout

end EventRelay.Wire
