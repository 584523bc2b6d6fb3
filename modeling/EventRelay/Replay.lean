import EventRelay.Replay.Cursor
import EventRelay.Decimal.Notation

/-!
# Replays

A replay plays recorded events back in either direction, at a pace set by the gaps between their
times and the speed. It is paused or running. A running replay holds one timer, and when the timer
goes off the events due are delivered, and the timer is armed anew for the event after them. Each
arming has a number of its own, the epoch: a timer that goes off with another epoch than the
current one has been superseded and does nothing.

The gap between two events is waited out at the speed of play: the gap in milliseconds is divided by
the speed and rounded to a whole number of microseconds, and a wait that comes out negative is none.
Timers count whole milliseconds and never go off early.

All of this is a state with transitions. Time enters as the instant of a transition, and a timer is
data: what makes it go off is the caller.
-/

namespace EventRelay

/-- A point in time: milliseconds, and within one millisecond the order of what happens. -/
structure Instant where
  ms : Nat
  turn : Nat
  deriving DecidableEq, Inhabited

def Instant.before (a b : Instant) : Bool := a.ms < b.ms || (a.ms == b.ms && a.turn < b.turn)

/-- A pending timer: the arming that it belongs to, and when it goes off. -/
structure Timer where
  epoch : Nat
  due : Instant
  deriving DecidableEq, Inhabited

/-- How many events a fetch takes, and within how many milliseconds of the clock events are
delivered together. Both are at least one. -/
structure ReplayConfig where
  bufferSize : Nat
  timeStep : Nat
  bufferSize_pos : 0 < bufferSize := by decide
  timeStep_pos : 0 < timeStep := by decide
  deriving DecidableEq

instance : Inhabited ReplayConfig := ⟨{ bufferSize := 10, timeStep := 250 }⟩

/-- The configuration with these numbers, where a zero counts as one. -/
def ReplayConfig.ofNumbers (bufferSize timeStep : Nat) : ReplayConfig :=
  ⟨max bufferSize 1, max timeStep 1, by omega, by omega⟩

namespace Pace

/-- A gap in milliseconds at a speed. -/
def quotient (gap : Int) (speed : Binary32) : Float := Float.ofInt gap / speed.toFloat

/-- The wait in microseconds for a gap in milliseconds; the largest 64-bit number stands for all
longer ones. -/
def delayMicros (gap : Int) (speed : Binary32) : Nat :=
  let ms := quotient gap speed
  if ms > 0 then (ms * 1000).round.toUInt64.toNat else 0

/-- The same wait in milliseconds, rounded up. -/
def delayMillis (gap : Int) (speed : Binary32) : Nat := (delayMicros gap speed + 999) / 1000

end Pace

structure Replay where
  /-- The time of play; unset until it is anchored by a seek or at the first event. -/
  clock : Option Int64
  cursor : Cursor
  speed : Binary32
  /-- Events fetched and not delivered yet, in the order of play. -/
  buffer : List Message
  running : Bool
  epoch : Nat
  timer : Option Timer
  deriving DecidableEq, Inhabited

/-- What a request to run comes to. -/
inductive RunOutcome where
  | scheduled | exhausted
  deriving DecidableEq, Inhabited

def RunOutcome.name : RunOutcome → String
  | scheduled => "Scheduled"
  | exhausted => "Exhausted"

namespace Replay

/-- Paused at the start of history, forwards at normal speed. -/
def start : Replay :=
  { clock := none
    cursor := .start
    speed := .one
    buffer := []
    running := false
    epoch := 0
    timer := none }

def direction (r : Replay) : Direction := .ofSpeed r.speed

/-- Arms the timer for so many milliseconds from now, in place of any other. -/
def arm (r : Replay) (now : Instant) (delay : Nat) : Replay :=
  { r with
    epoch := r.epoch + 1
    timer := some ⟨r.epoch + 1, ⟨now.ms + delay, now.turn⟩⟩ }

/-- Arms the timer for now, if the replay is running. -/
def rearm (r : Replay) (now : Instant) : Replay := if r.running then r.arm now 0 else r

/-- Moves to a position and forgets what was fetched. The end of history has no time of its own. -/
def seek (r : Replay) (now : Instant) (position : Position) : Replay :=
  match position with
  | .time t =>
    { r with
      buffer := []
      cursor := ⟨t, true, 0⟩
      clock := if 0 < t then some t else none }.rearm now
  | .eof =>
    { r with
      buffer := []
      cursor := ⟨Int64.maxValue, false, 0⟩
      clock := none }.rearm now

/-- The speeds that can be set. -/
def acceptsSpeed (speed : Binary32) : Bool := !speed.isZero && speed.isFinite

def invalidSpeedText (speed : Binary32) : String :=
  "invalid playback speed " ++ Decimal.write .plain speed.value

/-- Turns around at the clock: what was fetched is forgotten, and unless nothing has been fetched
since the last seek, the next fetch is from the clock. -/
def turnAround (r : Replay) (now : Instant) : Replay :=
  { r with
    buffer := []
    cursor :=
      { last := if r.cursor.inclusive then r.cursor.last else r.clock.getD r.cursor.last
        inclusive := r.cursor.inclusive
        seen := 0 } }.rearm now

/-- Sets an accepted speed. -/
def setSpeed (r : Replay) (now : Instant) (speed : Binary32) : Replay :=
  if speed.isNegative != r.speed.isNegative then { r with speed }.turnAround now
  else { r with speed }

/-- Stops the timer. -/
def pause (r : Replay) : Replay :=
  if r.running || r.timer.isSome then
    { r with epoch := r.epoch + 1, timer := none, running := false }
  else r

/-- Fetches events if none are at hand. A fetch that fails leaves everything as it is. -/
def fill (r : Replay) (config : ReplayConfig) (archive : Archive) : Replay :=
  if r.buffer = [] then
    match r.cursor.fetch archive r.direction config.bufferSize with
    | .ok (events, cursor) => { r with buffer := events, cursor }
    | .error _ => r
  else r

/-- The time from the clock to an event, against the direction of the calendar if negative. -/
def gap (r : Replay) (next : Message) : Int :=
  next.timestamp.toInt - (r.clock.getD next.timestamp).toInt

/-- Arms the timer for the next event at hand and moves the clock to it, when the gap to an event is
worked out like this; without an event the replay is exhausted and paused. -/
def scheduleBy (r : Replay) (gap : Message → Int) (now : Instant) : Replay × RunOutcome :=
  match r.buffer with
  | [] => ({ r with running := false, timer := none }, .exhausted)
  | next :: _ =>
    ({ r with clock := some next.timestamp, running := true }.arm now
      (Pace.delayMillis (gap next) r.speed), .scheduled)

def schedule (r : Replay) (now : Instant) : Replay × RunOutcome := r.scheduleBy r.gap now

/-- Fetches if need be, and arms the timer for the next event. -/
def proceed (r : Replay) (config : ReplayConfig) (archive : Archive) (now : Instant) :
    Replay × RunOutcome :=
  (r.fill config archive).schedule now

/-- Starts or resumes. With a delivery pending there is nothing to do. -/
def run (r : Replay) (config : ReplayConfig) (archive : Archive) (now : Instant) :
    Replay × RunOutcome :=
  if r.running && r.timer.isSome then (r, .scheduled) else r.proceed config archive now

/-- An event near enough to the clock to be delivered with it. -/
def isDue (config : ReplayConfig) (clock : Int64) (m : Message) : Bool :=
  (m.timestamp.toInt - clock.toInt).natAbs < config.timeStep

/-- The timer has gone off: takes the events due. -/
def takeDue (r : Replay) (config : ReplayConfig) : Replay × List Message :=
  match r.clock with
  | none => ({ r with timer := none }, [])
  | some clock =>
    ({ r with timer := none, buffer := r.buffer.dropWhile (isDue config clock) },
      r.buffer.takeWhile (isDue config clock))

end Replay

end EventRelay
