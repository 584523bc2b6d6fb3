import EventRelay.Hub.Audience

/-!
# The passing of time

Time moves forward only when told to. Timers go off in the order of their instants, each at its
own, and timers that others arm for the same time go off in turn before time stands still again.
-/

namespace EventRelay.Hub

/-! ## A timer goes off -/

/-- Replayed events reach those who watch; without any the stream falls idle. -/
def deliver (h : Hub) (i : StreamId) (events : List Message) : Hub :=
  let (h, reached) := h.send i events
  if !reached && h.subscriberCount i = 0 then h.idle i else h

/-- The replay has ended by itself under an epoch. It may have been overtaken since. -/
def replayExhausted (h : Hub) (i : StreamId) (epoch : Nat) : Hub :=
  let s := h.stream i
  if s.live || !s.playing || s.replay.epoch ≠ epoch then h else h.handleExhausted i

/-- The timer of a stream armed under an epoch goes off. -/
def fire (h : Hub) (i : StreamId) (epoch : Nat) : Hub :=
  if (h.stream i).replay.epoch ≠ epoch then h
  else
    let due := ((h.stream i).replay.takeDue h.config).2
    let h := h.modifyReplay i fun r => (r.takeDue h.config).1
    let h := if due = [] then h else h.deliver i due
    let r := (h.stream i).replay
    if r.epoch ≠ epoch || !r.running then h
    else
      let outcome := (r.proceed h.config h.archive h.now).2
      let h := h.modifyReplay i fun r => (r.proceed h.config h.archive h.now).1
      match outcome with
      | .scheduled => h
      | .exhausted => h.replayExhausted i epoch

/-! ## Time -/

/-- A timer of a stream that is pending. -/
structure Pending where
  stream : StreamId
  timer : Timer

/-- The timer that goes off next. -/
def nextTimer (h : Hub) : Option Pending :=
  h.streams.zipIdx.foldl (fun (best : Option Pending) (s, i) =>
    match s.replay.timer, best with
    | none, best => best
    | some t, none => some ⟨i, t⟩
    | some t, some b => if t.due.before b.timer.due then some ⟨i, t⟩ else some b) none

/-- Lets the timers up to a millisecond go off, at most `fuel` of them. -/
def fireUntil (ms : Nat) : Nat → Hub → Hub
  | 0, h => h
  | fuel + 1, h =>
    match h.nextTimer with
    | none => h
    | some p =>
      if p.timer.due.ms ≤ ms then
        fireUntil ms fuel
          ({ h with now := ⟨p.timer.due.ms, h.now.turn + 1⟩ }.fire p.stream p.timer.epoch)
      else h

/-- Each timer of a stream but the first delivers an event that no other of its timers delivers. -/
def maxFirings (h : Hub) : Nat :=
  (h.streams.map fun s => h.archive.store.count + s.replay.buffer.length + 3).foldl (· + ·) 0

/-- Moves time forward. -/
def advance (h : Hub) (ms : Nat) : Hub :=
  let target := h.now.ms + ms
  let h := fireUntil target h.maxFirings h
  { h with now := ⟨target, h.now.turn⟩ }

end EventRelay.Hub
