import EventRelay.Store.Common

/-!
# A store of encoded rows

Each event is a row: a number that grows with every row, the time, the kind's tag, and the event
encoded as a frame of its own. A batch is written in one transaction, so a message that is refused
leaves nothing of its batch behind. Queries select rows by time and sort them by time and number;
the frames of the selected rows are decoded, and a row that does not decode fails the query.
-/

namespace EventRelay

open Wire

structure Row where
  number : Nat
  timestamp : Int64
  tag : UInt16
  record : Bytes
  deriving DecidableEq, Inhabited

structure TableStore where
  rows : List Row
  nextNumber : Nat
  deriving DecidableEq, Inhabited

namespace TableStore

def empty : TableStore := ⟨[], 1⟩

/-- Adds a row at the end. -/
def insert (s : TableStore) (timestamp : Int64) (tag : UInt16) (record : Bytes) : TableStore :=
  ⟨s.rows ++ [⟨s.nextNumber, timestamp, tag, record⟩], s.nextNumber + 1⟩

/-- The row of an event, still without its number. -/
def encode (m : Message) : Except StoreError (Int64 × UInt16 × Bytes) :=
  if m.isData then
    match Framing.standard.encode [m] with
    | .ok record => .ok (m.timestamp, m.kind.tag, record)
    | .error e => .error (.corrupt e)
  else .error (.notData m.kind)

/-- Encodes all of a batch, or nothing. -/
def encodeAll : List Message → Except StoreError (List (Int64 × UInt16 × Bytes))
  | [] => .ok []
  | m :: ms =>
    match encode m with
    | .error e => .error e
    | .ok row =>
      match encodeAll ms with
      | .error e => .error e
      | .ok rows => .ok (row :: rows)

def appendBatch (s : TableStore) (ms : List Message) : TableStore × Option StoreError :=
  match encodeAll ms with
  | .ok rows => (rows.foldl (fun s (ts, tag, record) => s.insert ts tag record) s, none)
  | .error e => (s, some e)

/-- Ascending order by time, then number. -/
def ascending (a b : Row) : Bool :=
  a.timestamp < b.timestamp || (a.timestamp == b.timestamp && a.number ≤ b.number)

def select (s : TableStore) (ts : Int64) (direction : Direction) (limit : Nat) : List Row :=
  match direction with
  | .forward => ((s.rows.filter fun r => ts < r.timestamp).mergeSort ascending).take limit
  | .reverse =>
    ((s.rows.filter fun r => r.timestamp < ts).mergeSort fun a b => ascending b a).take limit

/-- The events in the frames of rows, in turn, after those in `seen`, last first. -/
def decodeRows : List Row → List (List Message) → Except StoreError (List Message)
  | [], seen => .ok seen.reverse.flatten
  | r :: rs, seen =>
    match Framing.standard.decode r.record with
    | .error e => .error (.corrupt e)
    | .ok ms => decodeRows rs (ms :: seen)

/-- A limit is a signed 64-bit number, and a larger one is the largest of them. -/
def maxLimit : Nat := 9223372036854775807

def fetch (s : TableStore) (ts : Int64) (direction : Direction) (max : Nat) :
    Except StoreError (List Message) :=
  decodeRows (s.select ts direction (min max maxLimit)) []

def range (s : TableStore) : Option (Int64 × Int64) :=
  match s.rows with
  | [] => none
  | r :: rs =>
    some (rs.foldl (fun (low, high) r => (min low r.timestamp, max high r.timestamp))
      (r.timestamp, r.timestamp))

def count (s : TableStore) : Nat := s.rows.length

end TableStore

end EventRelay
