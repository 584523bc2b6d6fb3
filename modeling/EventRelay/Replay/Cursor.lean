import EventRelay.Store

/-!
# The place of a replay in history

A replay takes events from the store a few at a time. What it remembers between two fetches is the
time of the last event taken and how many events of that time it has taken already; the next fetch
asks for that time again and skips as many. So a group of events of one time may be larger than
what one fetch takes, and none of it is lost or taken twice. Right after a seek nothing is taken,
and the events at the time sought are included.
-/

namespace EventRelay

structure Cursor where
  /-- The time of the last event taken, or the time sought. -/
  last : Int64
  /-- Events at `last` are still to be taken. -/
  inclusive : Bool
  /-- How many events at `last` have been taken. -/
  seen : Nat
  deriving DecidableEq, Inhabited

namespace Cursor

def start : Cursor := ⟨0, true, 0⟩

/-- One less, but not below the least time. -/
def before (ts : Int64) : Int64 := if ts = Int64.minValue then ts else ts - 1

/-- One more, but not above the greatest time. -/
def after (ts : Int64) : Int64 := if ts = Int64.maxValue then ts else ts + 1

/-- The time from which to fetch, exclusive. If events at the last time are wanted, or have to be
skipped, it lies next to that time. -/
def origin (c : Cursor) (direction : Direction) : Int64 :=
  if c.inclusive || c.seen > 0 then
    match direction with
    | .forward => before c.last
    | .reverse => after c.last
  else c.last

/-- How many fetched events have been taken before. -/
def skip (c : Cursor) : Nat := if c.inclusive then 0 else c.seen

/-- Drops the events taken before from the front of a fetch. -/
def dropTaken (c : Cursor) (events : List Message) : List Message :=
  events.drop (((events.take c.skip).takeWhile fun m => m.timestamp == c.last).length)

/-- The number of events at the end that are of the same time as the last one. -/
def trailing (events : List Message) (last : Int64) : Nat :=
  (events.reverse.takeWhile fun m => m.timestamp == last).length

/-- Moves past events that follow in the direction of play. -/
def advance (c : Cursor) (events : List Message) : Cursor :=
  match events.getLast? with
  | none => c
  | some m =>
    let n := trailing events m.timestamp
    { last := m.timestamp
      inclusive := false
      seen := if !c.inclusive && m.timestamp == c.last then c.seen + n else n }

/-- The events of the next fetch of up to `size` new ones, and the place after them. -/
def fetch (c : Cursor) (archive : Archive) (direction : Direction) (size : Nat) :
    Except StoreError (List Message × Cursor) :=
  match archive.fetch (c.origin direction) direction (size + c.skip) with
  | .error e => .error e
  | .ok events =>
    let events := c.dropTaken events
    .ok (events, c.advance events)

end Cursor

end EventRelay
