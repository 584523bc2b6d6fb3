import EventRelay.Wire.Transport

/-!
# Reading frames as they arrive

Bytes arrive in chunks that are cut anywhere. A reader takes six of them for a header, as many more
as the header announces for a payload, and goes back to reading headers, whatever became of the
payload. Between the reads it keeps what it is to read next, the buffer that every payload is read
into, and how much it has returned.
-/

namespace EventRelay.Wire

/-- Where bytes come from: the chunks still to arrive, and what is found behind them, the end of
the stream or a failure. -/
structure Source where
  chunks : List Bytes
  failure : Option String := none
  deriving DecidableEq, Inhabited

/-- Why fewer bytes came than were asked for. -/
inductive Shortage where
  | ended
  | failed (reason : String)
  deriving DecidableEq, Inhabited

/-- The first `n` bytes of the chunks, or all there are, and the chunks that are left. -/
def takeAcross : Nat → List Bytes → Bytes × List Bytes
  | _, [] => ([], [])
  | n, chunk :: chunks =>
    if n ≤ chunk.length then (chunk.take n, chunk.drop n :: chunks)
    else
      let (more, left) := takeAcross (n - chunk.length) chunks
      (chunk ++ more, left)

namespace Source

/-- All the bytes still to come. -/
def bytes (s : Source) : Bytes := s.chunks.flatten

def shortage (s : Source) : Shortage :=
  match s.failure with
  | none => .ended
  | some reason => .failed reason

/-- Takes just `n` bytes. Where there are fewer, these are used up all the same. -/
def take (s : Source) (n : Nat) : Except Shortage Bytes × Source :=
  let (taken, chunks) := takeAcross n s.chunks
  (if taken.length < n then .error s.shortage else .ok taken, { s with chunks })

end Source

/-- What became of a payload: its messages, or those in front of the fault. -/
abbrev Decoded := Except PartialDecode (List Message)

/-- What a reader reads next: a header, or the payload behind the header that it has read. -/
inductive ReadState where
  | header
  | payload (header : FrameHeader)
  deriving DecidableEq, Inhabited

structure FrameReader where
  source : Source
  framing : Framing
  state : ReadState := .header
  buffer : Bytes := []
  framesRead : Nat := 0
  bytesRead : Nat := 0
  deriving Inhabited

namespace FrameReader

/-- A reader that has read nothing yet. -/
def start (framing : Framing) (source : Source) : FrameReader := { source, framing }

/-- Reads the payload behind a header. One that ends too soon breaks the connection off. -/
def readPayload (r : FrameReader) (header : FrameHeader) :
    FrameReader × Except ConnectionError (Option Decoded) :=
  let (taken, source) := r.source.take header.length.toNat
  let r := { r with source }
  match taken with
  | .error .ended => (r, .error .closed)
  | .error (.failed reason) => (r, .error (.io reason))
  | .ok buffer =>
    let r :=
      { r with
        buffer, state := .header, framesRead := r.framesRead + 1
        bytesRead := r.bytesRead + (headerSize + buffer.length) }
    (r, .ok (some (decodePayload r.buffer header.count)))

/-- Reads the next frame; none, if the stream ends before its header does. A payload that does not
decode is a result as any other, and an error is the end of the connection. -/
def readFrame (r : FrameReader) : FrameReader × Except ConnectionError (Option Decoded) :=
  match r.state with
  | .payload header => r.readPayload header
  | .header =>
    let (taken, source) := r.source.take headerSize
    let r := { r with source }
    match taken with
    | .error .ended => (r, .ok none)
    | .error (.failed reason) => (r, .error (.io reason))
    | .ok bytes =>
      match r.framing.decodeHeader bytes with
      | .error e => (r, .error (.protocol e))
      | .ok header => { r with state := .payload header }.readPayload header

/-- The reader after so many reads. -/
def after (r : FrameReader) : Nat → FrameReader
  | 0 => r
  | k + 1 => (r.after k).readFrame.1

end FrameReader

end EventRelay.Wire
