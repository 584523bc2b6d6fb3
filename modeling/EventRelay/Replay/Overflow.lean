import EventRelay.Replay.Solo

/-!
# Gaps beyond 64 bits

The gap from the clock to the next event is worked out in 64 bits. Events may be of any time, so
that a gap may be no 64-bit number. Arithmetic that is checked then stops whoever needs the gap: a
request to run ends without an outcome, and a timer ends half way: what was due is delivered and
more may have been fetched, but nothing is armed for it. Arithmetic that is not checked wraps the
gap around and goes on. Everything else goes as it does with exact gaps.
-/

namespace EventRelay

namespace Replay

variable (r : Replay) (config : ReplayConfig) (archive : Archive)

/-- The gap to an event in 64 bits, wrapped around where it is no 64-bit number. -/
def wrappedGap (next : Message) : Int64 := next.timestamp - r.clock.getD next.timestamp

/-- Plays on in 64 bits that wrap around. -/
def proceedWrapped (now : Instant) : Replay × RunOutcome :=
  let filled := r.fill config archive
  filled.scheduleBy (fun next => (filled.wrappedGap next).toInt) now

/-- The event that a replay waits for when it plays on. -/
def upNext : Option Message := (r.fill config archive).buffer.head?

/-- The gap to that event is no 64-bit number. -/
def Overflows : Prop := ∃ next ∈ r.upNext config archive, (r.wrappedGap next).toInt ≠ r.gap next

instance : Decidable (r.Overflows config archive) :=
  inferInstanceAs (Decidable (∃ next ∈ r.upNext config archive, _))

end Replay

namespace Solo

/-- The replay that plays on when it is asked to run. With a delivery pending there is none. -/
def resumed (s : Solo) : Option Replay :=
  if s.replay.running && s.replay.timer.isSome then none else some s.replay

/-- The replay that plays on when the timer armed under this epoch has gone off, if it does. -/
def continued (s : Solo) (epoch : Nat) : Option Replay :=
  let taken := (s.replay.takeDue s.config).1
  if s.replay.epoch = epoch && s.listening && taken.running then some taken else none

/-- Asks to run in 64 bits. There is no outcome if the gap overflows. -/
def runChecked (s : Solo) : Solo × Option RunOutcome :=
  if ∃ r ∈ s.resumed, r.Overflows s.config s.archive then
    ({ s with replay := s.replay.fill s.config s.archive }, none)
  else s.run.map id some

/-- The timer armed under this epoch goes off, in 64 bits. -/
def fireChecked (s : Solo) (epoch : Nat) : Solo :=
  if ∃ r ∈ s.continued epoch, r.Overflows s.config s.archive then
    let (taken, due) := s.replay.takeDue s.config
    let s := if due = [] then s else s.tell (.delivered s.now.ms due)
    { s with replay := taken.fill s.config s.archive }
  else s.fire epoch

/-- Asks to run in 64 bits that wrap around. -/
def runWrapped (s : Solo) : Solo × RunOutcome :=
  let (replay, outcome) :=
    match s.resumed with
    | none => (s.replay, .scheduled)
    | some r => r.proceedWrapped s.config s.archive s.now
  ({ s with replay }, outcome)

/-- The timer armed under this epoch goes off, in 64 bits that wrap around. -/
def fireWrapped (s : Solo) (epoch : Nat) : Solo :=
  s.fireBy (fun r => r.proceedWrapped s.config s.archive s.now) epoch

/-- Lets the timers up to a millisecond go off in 64 bits, at most `fuel` of them. -/
def fireUntilChecked (ms : Nat) : Nat → Solo → Solo
  | 0, s => s
  | fuel + 1, s =>
    match s.replay.timer with
    | none => s
    | some timer =>
      if timer.due.ms ≤ ms then
        fireUntilChecked ms fuel
          ({ s with now := ⟨timer.due.ms, s.now.turn + 1⟩ }.fireChecked timer.epoch)
      else s

/-- Moves time forward, in 64 bits. -/
def advanceChecked (s : Solo) (ms : Nat) : Solo :=
  let target := s.now.ms + ms
  let s := s.fireUntilChecked target s.maxFirings
  { s with now := ⟨target, s.now.turn⟩ }

end Solo

end EventRelay
