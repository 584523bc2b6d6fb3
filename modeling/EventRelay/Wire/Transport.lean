import EventRelay.Wire.Frame

/-!
# Frames on a byte stream

A connection is a stream of bytes that frames are cut from, one after the other. How the bytes
arrive in chunks makes no difference, so the reader is a function of the bytes still to come. A
frame whose payload does not decode is reported and stepped over; a length beyond the limit, or an
end inside a payload, is the end of the connection.
-/

namespace EventRelay.Wire

/-- Why a connection cannot go on. -/
inductive ConnectionError where
  | io (reason : String)
  | protocol (source : WireError)
  | closed
  | queueFull
  deriving DecidableEq, Inhabited

def ConnectionError.message : ConnectionError → String
  | io reason => "I/O error: " ++ reason
  | protocol source => "protocol error: " ++ source.message
  | closed => "connection closed"
  | queueFull => "outbound queue full"

/-- What the next read of a stream yields. A peer that ends its stream between frames, or inside a
header, has ended it; one that ends it inside a payload has broken it off. -/
inductive NextFrame where
  | ended
  | failed (error : ConnectionError)
  | frame (content : Except PartialDecode (List Message)) (size : Nat) (rest : Bytes)

def nextFrame (f : Framing) (stream : Bytes) : NextFrame :=
  match f.decodeHeader stream with
  | .error (.truncated ..) => .ended
  | .error e => .failed (.protocol e)
  | .ok header =>
    match Layout.take? header.length.toNat (stream.drop headerSize) with
    | none => .failed .closed
    | some (payload, rest) =>
      .frame (decodePayload payload header.count) (headerSize + header.length.toNat) rest

theorem nextFrame_rest_lt {f : Framing} {stream : Bytes} {content size rest}
    (h : nextFrame f stream = .frame content size rest) : rest.length < stream.length := by
  unfold nextFrame at h
  split at h
  · cases h
  · cases h
  next header hh =>
    have hlen : headerSize ≤ stream.length := Framing.headerSize_le_of_decodeHeader hh
    rw [Layout.take?_eq] at h
    split at h
    · cases h
    next payload rest' ht =>
      split at ht
      · cases ht
        cases h
        simp only [List.length_drop]
        simp only [headerSize] at hlen ⊢
        omega
      · cases ht

/-- What a reader reports: the frames in order, each good or bad and with its size in bytes, header
included, and then how the stream ended. -/
inductive Reading where
  | ended
  | failed (error : ConnectionError)
  | frame (content : Except PartialDecode (List Message)) (size : Nat) (more : Reading)

/-- All that is read of a stream. -/
def readStream (f : Framing) (stream : Bytes) : Reading :=
  match _h : nextFrame f stream with
  | .ended => .ended
  | .failed e => .failed e
  | .frame content size rest => .frame content size (readStream f rest)
termination_by stream.length
decreasing_by exact nextFrame_rest_lt _h

/-- The frames written at once for queued batches. A batch that cannot be encoded is dropped from
where it fails on; an empty one writes nothing. -/
def writeFrames (f : Framing) (batches : List (List Message)) : Bytes :=
  ((batches.filter (!·.isEmpty)).map fun b => (f.frames b).written.flatten).flatten

end EventRelay.Wire
