import EventRelay.Wire.Transport

/-!
# Writing queued batches

A writer takes all batches that have queued up meanwhile and writes their frames at once. It counts
the bytes that it has handed over, and stops with the first group that does not go out; what could
not be encoded it leaves out, and a group with nothing to write does not touch the connection.
-/

namespace EventRelay.Wire

/-- Where bytes go: those taken so far, and why no more are taken, if so. -/
structure Sink where
  bytes : Bytes := []
  failure : Option String := none
  deriving DecidableEq, Inhabited

namespace Sink

/-- Writes a group of batches at once; how many bytes these are. -/
def writeFrames (s : Sink) (f : Framing) (batches : List (List Message)) :
    Sink × Except ConnectionError Nat :=
  let out := Wire.writeFrames f batches
  if out.isEmpty then (s, .ok 0)
  else
    match s.failure with
    | some reason => (s, .error (.io reason))
    | none => ({ s with bytes := s.bytes ++ out }, .ok out.length)

/-- Writes group after group, up to the first that does not go out; the sizes of those that did. -/
def writeLoop (s : Sink) (f : Framing) :
    List (List (List Message)) → Sink × List Nat × Option ConnectionError
  | [] => (s, [], none)
  | group :: groups =>
    match s.writeFrames f group with
    | (s, .error e) => (s, [], some e)
    | (s, .ok size) =>
      let (s, sizes, failure) := s.writeLoop f groups
      (s, size :: sizes, failure)

end Sink

end EventRelay.Wire
