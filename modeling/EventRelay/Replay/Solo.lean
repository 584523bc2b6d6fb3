import EventRelay.Replay

/-!
# A replay on its own

A replay whose deliveries are written down, under a clock that moves only when told to. Timers go
off in the order of their instants, each at its own. A replay whose listener has gone away pauses
at the next timer.
-/

namespace EventRelay

/-- What a replay tells its listener, with the millisecond at which it does. -/
inductive Notice where
  | delivered (ms : Nat) (events : List Message)
  | exhausted (ms : Nat) (epoch : Nat)
  deriving DecidableEq, Inhabited

structure Solo where
  config : ReplayConfig
  archive : Archive
  now : Instant
  replay : Replay
  listening : Bool
  /-- What the listener was told, last first. -/
  heard : List Notice

namespace Solo

def start (config : ReplayConfig) (archive : Archive) : Solo :=
  { config, archive, now := ⟨0, 0⟩, replay := .start, listening := true, heard := [] }

def tell (s : Solo) (notice : Notice) : Solo := { s with heard := notice :: s.heard }

def run (s : Solo) : Solo × RunOutcome :=
  let (replay, outcome) := s.replay.run s.config s.archive s.now
  ({ s with replay }, outcome)

/-- The timer armed under this epoch goes off, when a replay plays on like this. -/
def fireBy (s : Solo) (proceed : Replay → Replay × RunOutcome) (epoch : Nat) : Solo :=
  if s.replay.epoch ≠ epoch then s
  else
    let (replay, due) := s.replay.takeDue s.config
    let s := { s with replay }
    if !s.listening then { s with replay := s.replay.pause }
    else
      let s := if due = [] then s else s.tell (.delivered s.now.ms due)
      if s.replay.running then
        let (replay, outcome) := proceed s.replay
        let s := { s with replay }
        match outcome with
        | .scheduled => s
        | .exhausted => s.tell (.exhausted s.now.ms epoch)
      else s

def fire (s : Solo) (epoch : Nat) : Solo :=
  s.fireBy (fun r => r.proceed s.config s.archive s.now) epoch

/-- Lets the timers up to a millisecond go off, at most `fuel` of them. -/
def fireUntil (ms : Nat) : Nat → Solo → Solo
  | 0, s => s
  | fuel + 1, s =>
    match s.replay.timer with
    | none => s
    | some timer =>
      if timer.due.ms ≤ ms then
        fireUntil ms fuel ({ s with now := ⟨timer.due.ms, s.now.turn + 1⟩ }.fire timer.epoch)
      else s

/-- Each timer but the first delivers an event that no other delivers. -/
def maxFirings (s : Solo) : Nat := s.archive.store.count + s.replay.buffer.length + 3

/-- Moves time forward. -/
def advance (s : Solo) (ms : Nat) : Solo :=
  let target := s.now.ms + ms
  let s := s.fireUntil target s.maxFirings
  { s with now := ⟨target, s.now.turn⟩ }

end Solo

end EventRelay
