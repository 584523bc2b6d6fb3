import EventRelay.Store.Ordered
import EventRelay.Store.Table

/-!
# Stores

The recorded history of the relay. A store keeps events of data kinds in the order in which they
came and serves them by time, in either direction. There are two kinds of store, one held in order
and one of encoded rows, and a store may be out of order: a switch for each kind of request tells
whether it fails.
-/

namespace EventRelay

inductive Store where
  | ordered (s : OrderedStore)
  | table (s : TableStore)
  deriving DecidableEq, Inhabited

namespace Store

def memory : Store := .ordered .empty
def database : Store := .table .empty

/-- Appends a batch. What a refused batch leaves behind depends on the kind of store. -/
def appendBatch (s : Store) (ms : List Message) : Store × Option StoreError :=
  match s with
  | ordered s =>
    let (s, e) := s.appendBatch ms
    (ordered s, e)
  | table s =>
    let (s, e) := s.appendBatch ms
    (table s, e)

def append (s : Store) (m : Message) : Store × Option StoreError := s.appendBatch [m]

/-- Up to `max` events strictly after or strictly before a time, the nearest first. Events of one
time come in the order in which they were stored, or in reverse in reverse. -/
def fetch (s : Store) (ts : Int64) (direction : Direction) (max : Nat) :
    Except StoreError (List Message) :=
  match s with
  | ordered s => .ok (s.fetch ts direction max)
  | table s => s.fetch ts direction max

/-- The first and the last time in the store. -/
def range : Store → Option (Int64 × Int64)
  | ordered s => s.range
  | table s => s.range

def count : Store → Nat
  | ordered s => s.count
  | table s => s.count

end Store

/-- The requests that a store may fail. -/
inductive Request where
  | fetch | append | range
  deriving DecidableEq, Inhabited

/-- A store with the switches that make its requests fail. -/
structure Archive where
  store : Store
  failing : Request → Bool := fun _ => false

instance : Inhabited Archive := ⟨⟨default, fun _ => false⟩⟩

namespace Archive

/-- Turns the failing of a request on or off. -/
def setFailing (a : Archive) (request : Request) (on : Bool) : Archive :=
  { a with failing := fun r => if r = request then on else a.failing r }

def unavailable : StoreError := .engine .unavailable

def fetch (a : Archive) (ts : Int64) (direction : Direction) (max : Nat) :
    Except StoreError (List Message) :=
  if a.failing .fetch then .error unavailable else a.store.fetch ts direction max

def appendBatch (a : Archive) (ms : List Message) : Archive × Option StoreError :=
  if a.failing .append then (a, some unavailable)
  else
    let (store, e) := a.store.appendBatch ms
    ({ a with store }, e)

def range (a : Archive) : Except StoreError (Option (Int64 × Int64)) :=
  if a.failing .range then .error unavailable else .ok a.store.range

end Archive

end EventRelay
