import EventRelay.Store.Common

/-!
# A store ordered by time

Events are kept in the order of their keys: first their time, then the number under which they were
stored. So events of one time keep the order in which they came, and a fetch is a scan from one
place in the order, the least key of a time.
-/

namespace EventRelay

/-- A stored event and the number under which it was stored. -/
structure Entry where
  number : Nat
  event : Message
  deriving DecidableEq, Inhabited

def Entry.timestamp (e : Entry) : Int64 := e.event.timestamp

/-- The key of an entry comes before the key of a time and a number. -/
def Entry.below (e : Entry) (ts : Int64) (number : Nat) : Bool :=
  e.timestamp < ts || (e.timestamp == ts && e.number < number)

/-- The order of the keys. -/
def Entry.before (a b : Entry) : Bool := a.below b.timestamp b.number

structure OrderedStore where
  entries : List Entry
  nextNumber : Nat
  deriving DecidableEq, Inhabited

namespace OrderedStore

def empty : OrderedStore := ⟨[], 0⟩

/-- Puts an entry in front of the first that comes after it. -/
def insert (e : Entry) : List Entry → List Entry
  | [] => [e]
  | x :: xs => if e.before x then e :: x :: xs else x :: insert e xs

def append (s : OrderedStore) (m : Message) : Except StoreError OrderedStore :=
  if m.isData then .ok ⟨insert ⟨s.nextNumber, m⟩ s.entries, s.nextNumber + 1⟩
  else .error (.notData m.kind)

/-- Appends in turn up to the first message that is refused; the ones in front of it stay. -/
def appendBatch (s : OrderedStore) : List Message → OrderedStore × Option StoreError
  | [] => (s, none)
  | m :: ms =>
    match s.append m with
    | .ok s => appendBatch s ms
    | .error e => (s, some e)

/-- The time that follows a time; none follows the last. -/
def following? (ts : Int64) : Option Int64 :=
  if ts = Int64.maxValue then none else some (ts + 1)

/-- Up to `max` events strictly after or strictly before a time, the nearest first: a scan up from
the least key of the time that follows, or down from the least key of the time itself. -/
def fetch (s : OrderedStore) (ts : Int64) (direction : Direction) (max : Nat) : List Message :=
  match direction with
  | .forward =>
    match following? ts with
    | none => []
    | some next => ((s.entries.dropWhile fun e => e.below next 0).take max).map (·.event)
  | .reverse => ((s.entries.takeWhile fun e => e.below ts 0).reverse.take max).map (·.event)

/-- The first and the last time in the store. -/
def range (s : OrderedStore) : Option (Int64 × Int64) :=
  match s.entries.head?, s.entries.getLast? with
  | some first, some last => some (first.timestamp, last.timestamp)
  | _, _ => none

def count (s : OrderedStore) : Nat := s.entries.length

end OrderedStore

end EventRelay
