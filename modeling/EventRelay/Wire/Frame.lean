import EventRelay.Wire.Body

/-!
# Frames

A frame is a batch of messages behind a header of six bytes: the length of what follows in bytes,
and the number of messages. Each message is a record of its own: kind, layout version, time and
the length of the body, and then the body, so that a reader can step over a kind that it does not
know.

A batch too long for one frame is halved until its parts fit. A frame that does not decode yields
the messages in front of the fault, the place of the fault and its cause.
-/

namespace EventRelay.Wire

/-- Why a batch does not encode or a frame does not decode. -/
inductive WireError where
  | truncated (needed available : Nat)
  | frameTooLarge (size max : Nat)
  | tooManyMessages (count : Nat)
  | fieldTooLong (field : Overlong)
  | malformed (kind : Kind) (flaw : Flaw)
  | trailingBytes (count : Nat)
  | record (index count : Nat) (source : WireError)
  deriving DecidableEq, Inhabited

def WireError.message : WireError → String
  | truncated needed available =>
    "truncated input: need " ++ toString needed ++ " bytes, have " ++ toString available
  | frameTooLarge size max => "frame too large: " ++ toString size ++ " > " ++ toString max
  | tooManyMessages n => "too many messages for one frame: " ++ toString n
  | fieldTooLong f =>
    "field '" ++ f.field ++ "' too long: " ++ toString f.length ++ " > " ++ toString maxFieldLength
  | malformed kind flaw => "malformed " ++ kind.describe ++ " body: " ++ flaw.message
  | trailingBytes n => toString n ++ " trailing bytes after last record"
  | record index count source =>
    "record " ++ toString index ++ " of " ++ toString count ++ ": " ++ source.message

/-- The causes behind an error, each the cause of the one before it. -/
def WireError.causes : WireError → List String
  | record _ _ source => source.message :: source.causes
  | _ => []

/-- A payload that failed part way: the messages before the fault, where the fault is among how
many, and its cause. -/
structure PartialDecode where
  decoded : List Message
  index : Nat
  count : Nat
  source : WireError
  deriving DecidableEq, Inhabited

def PartialDecode.message (p : PartialDecode) : String :=
  "record " ++ toString p.index ++ " of " ++ toString p.count ++ " failed to decode: " ++
    p.source.message

def PartialDecode.toError (p : PartialDecode) : WireError := .record p.index p.count p.source

/-- The largest length that a frame header can announce. -/
def maxWord32 : Nat := 4294967295

/-- The most messages that a frame header can announce. -/
def maxBatch : Nat := 65535

def headerSize : Nat := 6

def recordHeaderSize : Nat := 16

/-- The framing of a connection: no payload is longer than its limit, which fits the header. -/
structure Framing where
  limit : Nat
  limit_le : limit ≤ maxWord32 := by decide

/-- The framing with a limit, lowered to what the header can announce. -/
def Framing.ofLimit (limit : Nat) : Framing := ⟨min limit maxWord32, Nat.min_le_right ..⟩

/-- Sixteen mebibytes. -/
def defaultLimit : Nat := 16777216

def Framing.standard : Framing := ⟨defaultLimit, by decide⟩

instance : Inhabited Framing := ⟨.standard⟩

/-! ## Records -/

def recordHeader (tag version : UInt16) (timestamp : Int64) (length : UInt32) : Bytes :=
  Layout.bytes16 tag ++ Layout.bytes16 version ++ Layout.bytes64 timestamp.toUInt64 ++
    Layout.bytes32 length

def readRecordHeader : Bytes → Except Flaw ((UInt16 × UInt16 × Int64 × UInt32) × Bytes) :=
  (Layout.word16.seq (Layout.word16.seq (Layout.int64.seq Layout.word32))).read

/-- The record of a message. -/
def writeRecord (m : Message) : Except WireError Bytes :=
  match writeBody m.payload with
  | .error e => .error (.fieldTooLong e)
  | .ok body =>
    let length := body.length
    if length > maxWord32 then .error (.frameTooLarge length maxWord32)
    else
      .ok (recordHeader m.kind.tag m.version m.timestamp length.toUInt32 ++ body)

/-- The message of the record at the front, and the bytes after the record. -/
def readRecord (bytes : Bytes) : Except WireError (Message × Bytes) :=
  match readRecordHeader bytes with
  | .error _ => .error (.truncated recordHeaderSize bytes.length)
  | .ok ((tag, version, timestamp, length), rest) =>
    match Layout.take? length.toNat rest with
    | none => .error (.truncated length.toNat rest.length)
    | some (body, rest) =>
      match readBody (Kind.ofTag tag) version body with
      | .error flaw => .error (.malformed (Kind.ofTag tag) flaw)
      | .ok payload => .ok (⟨timestamp, version, payload⟩, rest)

/-- Writes records one after the other behind `written`, the records already written, last
first. -/
def writeRecords : List Message → List Bytes → Except WireError Bytes
  | [], written => .ok written.reverse.flatten
  | m :: ms, written =>
    match writeRecord m with
    | .error e => .error e
    | .ok record => writeRecords ms (record :: written)

/-- Reads `n` records, after those in `seen`, last first; what is wrong where, if one does not
read, or bytes are left. -/
def readRecords (count : Nat) :
    Nat → Bytes → List Message → Except PartialDecode (List Message)
  | 0, [], seen => .ok seen.reverse
  | 0, rest, seen => .error ⟨seen.reverse, count, count, .trailingBytes rest.length⟩
  | n + 1, bytes, seen =>
    match readRecord bytes with
    | .error e => .error ⟨seen.reverse, count - (n + 1), count, e⟩
    | .ok (m, rest) => readRecords count n rest (m :: seen)

/-! ## Frames -/

/-- What a frame announces: the length of its payload and the number of its messages. -/
structure FrameHeader where
  length : UInt32
  count : UInt16
  deriving DecidableEq, Inhabited

def frameHeader (h : FrameHeader) : Bytes := Layout.bytes32 h.length ++ Layout.bytes16 h.count

def readFrameHeader (bytes : Bytes) : Except Flaw (FrameHeader × Bytes) :=
  (Layout.word32.seq Layout.word16).readAs (fun (length, count) => ⟨length, count⟩) bytes

namespace Framing

variable (f : Framing)

/-- The frame of a batch; an empty batch is a bare header. -/
def encode (batch : List Message) : Except WireError Bytes :=
  if batch.length > maxBatch then .error (.tooManyMessages batch.length)
  else
    match writeRecords batch [] with
    | .error e => .error e
    | .ok payload =>
      let length := payload.length
      if length > f.limit then .error (.frameTooLarge length f.limit)
      else
        .ok (frameHeader ⟨length.toUInt32, batch.length.toUInt16⟩ ++ payload)

/-- The header at the front of a frame. -/
def decodeHeader (bytes : Bytes) : Except WireError FrameHeader :=
  match readFrameHeader bytes with
  | .error _ => .error (.truncated headerSize bytes.length)
  | .ok (header, _) =>
    if header.length.toNat > f.limit then .error (.frameTooLarge header.length.toNat f.limit)
    else .ok header

theorem headerSize_le_of_decodeHeader {f : Framing} {bytes : Bytes} {header : FrameHeader}
    (h : f.decodeHeader bytes = .ok header) : headerSize ≤ bytes.length := by
  unfold decodeHeader at h
  split at h
  · cases h
  next header' rest hr =>
    rcases bytes with _ | ⟨a, _ | ⟨b, _ | ⟨c, _ | ⟨d, _ | ⟨e, _ | ⟨g, rest⟩⟩⟩⟩⟩⟩ <;>
      simp_all [readFrameHeader, Layout.readAs, Layout.seq, Layout.word32, Layout.word16,
        headerSize]

end Framing

/-- The messages of a payload that announces `count` of them. -/
def decodePayload (bytes : Bytes) (count : UInt16) : Except PartialDecode (List Message) :=
  readRecords count.toNat count.toNat bytes []

namespace Framing

variable (f : Framing)

/-- The messages of one whole frame. -/
def decode (bytes : Bytes) : Except WireError (List Message) :=
  match f.decodeHeader bytes with
  | .error e => .error e
  | .ok header =>
    let needed := headerSize + header.length.toNat
    let available := bytes.length
    if available < needed then .error (.truncated needed available)
    else if available > needed then .error (.trailingBytes (available - needed))
    else
      match decodePayload (bytes.drop headerSize) header.count with
      | .error p => .error p.toError
      | .ok ms => .ok ms

end Framing

/-- The frames written for a batch, and why the rest was not written, if it was not. -/
structure Frames where
  written : List Bytes
  failure : Option WireError := none
  deriving DecidableEq, Inhabited

/-- More frames after these, unless these ended in a failure. -/
def Frames.andThen (first : Frames) (more : Unit → Frames) : Frames :=
  match first.failure with
  | some _ => first
  | none =>
    let rest := more ()
    ⟨first.written ++ rest.written, rest.failure⟩

/-- The frames of a batch of any length. A batch with too many messages is cut at the most that a
frame can hold; one too large for the limit is cut in half. -/
def Framing.frames (f : Framing) (batch : List Message) : Frames :=
  if _h : batch.length > maxBatch then
    (f.frames (batch.take maxBatch)).andThen fun _ => f.frames (batch.drop maxBatch)
  else
    match f.encode batch with
    | .ok frame => ⟨[frame], none⟩
    | .error (.frameTooLarge size max) =>
      if _h : batch.length > 1 then
        (f.frames (batch.take (batch.length / 2))).andThen fun _ =>
          f.frames (batch.drop (batch.length / 2))
      else ⟨[], some (.frameTooLarge size max)⟩
    | .error e => ⟨[], some e⟩
termination_by batch.length
decreasing_by
  all_goals simp only [List.length_take, List.length_drop, maxBatch] at *
  all_goals omega

/-- Writes the frames of a batch behind `out`: all that is written then, and how many frames these
are, or why there are no more. -/
def Framing.encodeInto (f : Framing) (batch : List Message) (out : Bytes) :
    Bytes × Except WireError Nat :=
  let frames := f.frames batch
  (out ++ frames.written.flatten,
    match frames.failure with
    | none => .ok frames.written.length
    | some e => .error e)

end EventRelay.Wire
