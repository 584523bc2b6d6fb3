import EventRelay.Proofs.NormalForm
import EventRelay.Wire.Reader

/-!
# Frame boundaries

Where a frame ends is decided by its header alone. So a stream of bytes, however it arrives, falls
into whole frames and a rest that no frame can be read from, and the reader returns these frames
one by one, those with a payload that does not decode among them, before it comes to the end. A
frame alone on its stream yields what decoding it in memory yields.
-/

namespace EventRelay.Wire

/-! ## Bytes across chunks -/

theorem takeAcross_eq (n : Nat) (chunks : List Bytes) :
    (takeAcross n chunks).1 = chunks.flatten.take n ∧
      (takeAcross n chunks).2.flatten = chunks.flatten.drop n := by
  fun_induction takeAcross n chunks with
  | case1 n => simp
  | case2 n chunk chunks hn =>
    simp only [List.flatten_cons]
    rw [List.take_append_of_le_length hn, List.drop_append_of_le_length hn]
    exact ⟨rfl, rfl⟩
  | case3 n chunk chunks hn more left hmore ih =>
    simp only [hmore] at ih
    simp only [List.flatten_cons, List.take_append, List.drop_append,
      List.take_of_length_le (Nat.le_of_not_le hn), List.drop_of_length_le (Nat.le_of_not_le hn)]
    exact ⟨by rw [ih.1], by rw [ih.2, List.nil_append]⟩

namespace Source

variable (s : Source) (n : Nat)

theorem bytes_take : (s.take n).2.bytes = s.bytes.drop n := (takeAcross_eq n s.chunks).2

theorem take_eq :
    (s.take n).1 = if s.bytes.length < n then .error s.shortage else .ok (s.bytes.take n) := by
  have h : (takeAcross n s.chunks).1 = s.bytes.take n := (takeAcross_eq n s.chunks).1
  have hlt : (s.bytes.take n).length < n ↔ s.bytes.length < n := by
    rw [List.length_take]
    omega
  simp only [take, h, hlt]

variable {s n}

theorem take_congr {s' : Source} (hbytes : s.bytes = s'.bytes) (hfailure : s.failure = s'.failure)
    (n : Nat) : (s.take n).1 = (s'.take n).1 ∧ (s.take n).2.bytes = (s'.take n).2.bytes := by
  simp only [take_eq, bytes_take, shortage, hbytes, hfailure, and_self]

theorem take_append {front rest : Bytes} (h : s.bytes = front ++ rest) :
    (s.take front.length).1 = .ok front ∧ (s.take front.length).2.bytes = rest := by
  rw [take_eq, bytes_take, h, List.drop_left, List.take_left, if_neg]
  · exact ⟨rfl, rfl⟩
  · simp

theorem take_short (h : s.bytes.length < n) : (s.take n).1 = .error s.shortage := by
  rw [take_eq, if_pos h]

theorem shortage_ended (h : s.failure = none) : s.shortage = .ended := by
  rw [shortage, h]

theorem shortage_failed {reason : String} (h : s.failure = some reason) :
    s.shortage = .failed reason := by
  rw [shortage, h]

end Source

/-! ## Frames as they lie on a stream -/

/-- A header and as many bytes as it announces. -/
structure RawFrame where
  header : FrameHeader
  payload : Bytes
  deriving DecidableEq

namespace RawFrame

def bytes (x : RawFrame) : Bytes := frameHeader x.header ++ x.payload

def size (x : RawFrame) : Nat := headerSize + x.payload.length

def content (x : RawFrame) : Decoded := decodePayload x.payload x.header.count

/-- The header announces the payload, and the limit lets it pass. -/
structure Whole (f : Framing) (x : RawFrame) : Prop where
  length_eq : x.payload.length = x.header.length.toNat
  le_limit : x.header.length.toNat ≤ f.limit

instance (f : Framing) : DecidablePred (Whole f) := fun x =>
  decidable_of_iff (x.payload.length = x.header.length.toNat ∧ x.header.length.toNat ≤ f.limit)
    ⟨fun h => ⟨h.1, h.2⟩, fun h => ⟨h.1, h.2⟩⟩

end RawFrame

/-- How reading ends at a rest that no whole frame lies at the front of. -/
inductive Framing.Ends (f : Framing) (failure : Option String) :
    Bytes → Except ConnectionError (Option Decoded) → Prop
  | ended {rest : Bytes} (short : rest.length < headerSize) (closes : failure = none) :
    f.Ends failure rest (.ok none)
  | failed {rest : Bytes} {reason : String} (short : rest.length < headerSize)
    (fails : failure = some reason) : f.Ends failure rest (.error (.io reason))
  | tooLarge {header : FrameHeader} {more : Bytes} (large : f.limit < header.length.toNat) :
    f.Ends failure (frameHeader header ++ more)
      (.error (.protocol (.frameTooLarge header.length.toNat f.limit)))
  | closed {header : FrameHeader} {more : Bytes} (fits : header.length.toNat ≤ f.limit)
    (short : more.length < header.length.toNat) (closes : failure = none) :
    f.Ends failure (frameHeader header ++ more) (.error .closed)
  | brokenOff {header : FrameHeader} {more : Bytes} {reason : String}
    (fits : header.length.toNat ≤ f.limit) (short : more.length < header.length.toNat)
    (fails : failure = some reason) :
    f.Ends failure (frameHeader header ++ more) (.error (.io reason))

/-- A stream falls into these frames and this rest, at which reading ends so. What the payloads
hold is no part of it. -/
structure Framing.Cuts (f : Framing) (failure : Option String) (stream : Bytes)
    (frames : List RawFrame) (rest : Bytes) (ending : Except ConnectionError (Option Decoded)) :
    Prop where
  stream_eq : stream = (frames.map RawFrame.bytes).flatten ++ rest
  whole : ∀ x ∈ frames, x.Whole f
  ends : f.Ends failure rest ending

theorem exists_frameHeader {stream : Bytes} (h : headerSize ≤ stream.length) :
    ∃ header rest, stream = frameHeader header ++ rest := by
  have hread : ∃ header, (Framing.mk maxWord32).decodeHeader stream = .ok header := by
    rcases stream with _ | ⟨a, _ | ⟨b, _ | ⟨c, _ | ⟨d, _ | ⟨e, _ | ⟨g, rest⟩⟩⟩⟩⟩⟩
    case cons.cons.cons.cons.cons.cons =>
      exact ⟨_, if_neg (Nat.not_lt.2 (Nat.le_of_lt_succ (UInt32.toNat_lt _)))⟩
    all_goals simp [headerSize] at h
  obtain ⟨header, hread⟩ := hread
  exact ⟨header, (Framing.decodeHeader_ok hread).2⟩

namespace Framing

variable (f : Framing) (failure : Option String)

/-- Reading a stream ends at once, or the stream has a whole frame at its front. -/
theorem ends_or_whole (stream : Bytes) :
    (∃ ending, f.Ends failure stream ending) ∨
      ∃ (x : RawFrame) (later : Bytes), x.Whole f ∧ stream = x.bytes ++ later := by
  rcases Nat.lt_or_ge stream.length headerSize with short | long
  · left
    cases failure with
    | none => exact ⟨_, .ended short rfl⟩
    | some reason => exact ⟨_, .failed short rfl⟩
  obtain ⟨header, more, rfl⟩ := exists_frameHeader long
  rcases Nat.lt_or_ge f.limit header.length.toNat with large | fits
  · exact .inl ⟨_, .tooLarge large⟩
  rcases Nat.lt_or_ge more.length header.length.toNat with short | whole
  · left
    cases failure with
    | none => exact ⟨_, .closed fits short rfl⟩
    | some reason => exact ⟨_, .brokenOff fits short rfl⟩
  · refine .inr ⟨⟨header, more.take header.length.toNat⟩, more.drop header.length.toNat,
      ⟨List.length_take_of_le whole, fits⟩, ?_⟩
    rw [RawFrame.bytes, List.append_assoc, List.take_append_drop]

variable {f failure}

theorem Cuts.cons {x : RawFrame} {later rest : Bytes} {frames : List RawFrame}
    {ending : Except ConnectionError (Option Decoded)} (hx : x.Whole f)
    (h : f.Cuts failure later frames rest ending) :
    f.Cuts failure (x.bytes ++ later) (x :: frames) rest ending where
  stream_eq := by rw [h.stream_eq, List.map_cons, List.flatten_cons, List.append_assoc]
  whole := List.forall_mem_cons.2 ⟨hx, h.whole⟩
  ends := h.ends

variable (f failure)

theorem exists_cuts (stream : Bytes) :
    ∃ frames rest ending, f.Cuts failure stream frames rest ending := by
  rcases f.ends_or_whole failure stream with ⟨ending, hends⟩ | ⟨x, later, hx, rfl⟩
  · exact ⟨[], stream, ending, rfl, by simp, hends⟩
  · have hlt : later.length < (x.bytes ++ later).length := by
      simp only [RawFrame.bytes, List.length_append, length_frameHeader, headerSize]
      omega
    obtain ⟨frames, rest, ending, h⟩ := exists_cuts later
    exact ⟨x :: frames, rest, ending, h.cons hx⟩
termination_by stream.length

variable {f}

theorem decodeHeader_large {header : FrameHeader} (large : f.limit < header.length.toNat)
    (rest : Bytes) : f.decodeHeader (frameHeader header ++ rest) =
      .error (.frameTooLarge header.length.toNat f.limit) := by
  simp only [decodeHeader, readFrameHeader_append, gt_iff_lt, large, if_true]

theorem decodeHeader_short {bytes : Bytes} (short : bytes.length < headerSize) :
    f.decodeHeader bytes = .error (.truncated headerSize bytes.length) := by
  rcases bytes with _ | ⟨a, _ | ⟨b, _ | ⟨c, _ | ⟨d, _ | ⟨e, _ | ⟨g, rest⟩⟩⟩⟩⟩⟩
  case cons.cons.cons.cons.cons.cons =>
    simp only [List.length_cons, headerSize] at short
    omega
  all_goals rfl

/-- A frame alone decodes in memory to what its payload holds. -/
theorem decode_bytes {x : RawFrame} (hx : x.Whole f) :
    f.decode x.bytes = x.content.mapError PartialDecode.toError := by
  have hlen : x.bytes.length = headerSize + x.header.length.toNat := by
    rw [RawFrame.bytes, List.length_append, length_frameHeader, hx.length_eq]
  simp only [decode, hlen]
  rw [RawFrame.bytes, decodeHeader_append _ hx.le_limit, List.drop_left' (length_frameHeader _)]
  simp only [Nat.lt_irrefl, gt_iff_lt, if_false, RawFrame.content]
  cases decodePayload x.payload x.header.count <;> rfl

end Framing

/-! ## A stream read at once -/

section ReadStream

variable {f : Framing} {rest : Bytes} {ending : Except ConnectionError (Option Decoded)}

theorem nextFrame_whole {x : RawFrame} (hx : x.Whole f) (later : Bytes) :
    nextFrame f (x.bytes ++ later) = .frame x.content x.size later := by
  rw [RawFrame.bytes, List.append_assoc, nextFrame, Framing.decodeHeader_append _ hx.le_limit]
  simp only [List.drop_left' (Framing.length_frameHeader _), Layout.take?_append hx.length_eq,
    RawFrame.content, RawFrame.size, hx.length_eq]

/-- How an end shows where the whole stream is at hand. -/
def Reading.ofEnding : Except ConnectionError (Option Decoded) → Reading
  | .ok _ => .ended
  | .error e => .failed e

theorem readStream_ends (h : f.Ends none rest ending) :
    readStream f rest = .ofEnding ending := by
  have hnext : nextFrame f rest = match ending with
      | .ok _ => .ended
      | .error e => .failed e := by
    cases h with
    | ended short => rw [nextFrame, Framing.decodeHeader_short short]
    | failed short fails => cases fails
    | tooLarge large => rw [nextFrame, Framing.decodeHeader_large large]
    | closed fits short =>
      rw [nextFrame, Framing.decodeHeader_append _ fits]
      simp only [List.drop_left' (Framing.length_frameHeader _), Layout.take?_eq,
        Nat.not_le.2 short, if_false]
    | brokenOff fits short fails => cases fails
  rw [readStream]
  cases ending <;> split <;> simp_all [Reading.ofEnding]

theorem readStream_whole {x : RawFrame} (hx : x.Whole f) (later : Bytes) :
    readStream f (x.bytes ++ later) = .frame x.content x.size (readStream f later) := by
  have hnext := nextFrame_whole hx later
  rw [readStream]
  split <;> simp_all

/-- What is read of a stream at once is each of its frames with its size, and then its end. -/
theorem readStream_cuts {stream : Bytes} {frames : List RawFrame}
    (h : f.Cuts none stream frames rest ending) :
    readStream f stream =
      frames.foldr (fun x more => .frame x.content x.size more) (.ofEnding ending) := by
  obtain ⟨rfl, whole, ends⟩ := h
  induction frames with
  | nil => exact readStream_ends ends
  | cons x frames ih =>
    rw [List.forall_mem_cons] at whole
    rw [List.map_cons, List.flatten_cons, List.append_assoc, readStream_whole whole.1, ih whole.2,
      List.foldr_cons]

end ReadStream

/-! ## What the reader returns -/

namespace FrameReader

/-- Two readers that are about to read the same, however it arrives. -/
structure Alike (r r' : FrameReader) : Prop where
  framing : r.framing = r'.framing
  state : r.state = r'.state
  bytes : r.source.bytes = r'.source.bytes
  failure : r.source.failure = r'.source.failure

namespace Alike

variable {r r' : FrameReader}

theorem readPayload (h : r.Alike r') (header : FrameHeader) :
    (r.readPayload header).1.Alike (r'.readPayload header).1 ∧
      (r.readPayload header).2 = (r'.readPayload header).2 := by
  obtain ⟨source, framing, state, buffer, count, size⟩ := r
  obtain ⟨source', framing', state', buffer', count', size'⟩ := r'
  obtain ⟨rfl, rfl, hbytes, hfailure⟩ := h
  obtain ⟨htaken, hleft⟩ := Source.take_congr hbytes hfailure header.length.toNat
  simp only [FrameReader.readPayload, ← htaken]
  split
  all_goals exact ⟨⟨rfl, rfl, hleft, hfailure⟩, rfl⟩

theorem readFrame (h : r.Alike r') :
    r.readFrame.1.Alike r'.readFrame.1 ∧ r.readFrame.2 = r'.readFrame.2 := by
  obtain ⟨source, framing, state, buffer, count, size⟩ := r
  obtain ⟨source', framing', state', buffer', count', size'⟩ := r'
  obtain ⟨rfl, rfl, hbytes, hfailure⟩ := h
  obtain ⟨htaken, hleft⟩ := Source.take_congr hbytes hfailure headerSize
  have hbehind : ∀ state, Alike ⟨(source.take headerSize).2, framing, state, buffer, count, size⟩
      ⟨(source'.take headerSize).2, framing, state, buffer', count', size'⟩ :=
    fun _ => ⟨rfl, rfl, hleft, hfailure⟩
  cases state with
  | payload header =>
    have halike : Alike ⟨source, framing, .payload header, buffer, count, size⟩
        ⟨source', framing, .payload header, buffer', count', size'⟩ :=
      ⟨rfl, rfl, hbytes, hfailure⟩
    exact halike.readPayload header
  | header =>
    simp only [FrameReader.readFrame, ← htaken]
    split
    · exact ⟨hbehind _, rfl⟩
    · exact ⟨hbehind _, rfl⟩
    split
    · exact ⟨hbehind _, rfl⟩
    · exact (hbehind _).readPayload _

theorem after (h : r.Alike r') (k : Nat) : (r.after k).Alike (r'.after k) := by
  induction k with
  | zero => exact h
  | succ k ih => exact ih.readFrame.1

end Alike

/-- The reader has `stream` still to read, in this state, and has returned `count` frames of `size`
bytes together. -/
structure At (r : FrameReader) (f : Framing) (failure : Option String) (state : ReadState)
    (stream : Bytes) (count size : Nat) : Prop where
  framing : r.framing = f
  failure : r.source.failure = failure
  state : r.state = state
  bytes : r.source.bytes = stream
  framesRead : r.framesRead = count
  bytesRead : r.bytesRead = size

namespace At

variable {r : FrameReader} {f : Framing} {failure : Option String} {header : FrameHeader}
  {rest : Bytes} {count size : Nat}

/-- Behind a header within the limit, the payload is next. -/
theorem readFrame_header (h : r.At f failure .header (frameHeader header ++ rest) count size)
    (fits : header.length.toNat ≤ f.limit) :
    ∃ r' : FrameReader, r.readFrame = r'.readFrame ∧
      r'.At f failure (.payload header) rest count size := by
  obtain ⟨htaken, hleft⟩ := Source.take_append h.bytes
  have hdecode := Framing.decodeHeader_append header fits []
  rw [List.append_nil] at hdecode
  rw [Framing.length_frameHeader] at htaken hleft
  refine ⟨{ r with source := (r.source.take headerSize).2, state := .payload header }, ?_,
    h.framing, h.failure, rfl, hleft, h.framesRead, h.bytesRead⟩
  simp only [readFrame, h.state, h.framing, htaken, hdecode]

theorem readFrame_payload {payload : Bytes}
    (h : r.At f failure (.payload header) (payload ++ rest) count size)
    (hlen : payload.length = header.length.toNat) :
    r.readFrame.2 = .ok (some (decodePayload payload header.count)) ∧
      r.readFrame.1.At f failure .header rest (count + 1)
        (size + (headerSize + payload.length)) := by
  obtain ⟨htaken, hleft⟩ := Source.take_append h.bytes
  simp only [readFrame, h.state, readPayload, ← hlen, htaken]
  exact ⟨trivial, h.framing, h.failure, rfl, hleft, by rw [h.framesRead], by rw [h.bytesRead]⟩

/-- A whole frame is returned for what it holds, good or bad, and the reader is behind it. -/
theorem readFrame_whole {x : RawFrame}
    (h : r.At f failure .header (x.bytes ++ rest) count size) (hx : x.Whole f) :
    r.readFrame.2 = .ok (some x.content) ∧
      r.readFrame.1.At f failure .header rest (count + 1) (size + x.size) := by
  rw [RawFrame.bytes, List.append_assoc] at h
  obtain ⟨r', heq, h'⟩ := h.readFrame_header hx.le_limit
  rw [heq]
  exact h'.readFrame_payload hx.length_eq

/-- Where no whole frame is left, reading ends as it should, and nothing more is counted. -/
theorem readFrame_ends {ending : Except ConnectionError (Option Decoded)}
    (h : r.At f failure .header rest count size) (he : f.Ends failure rest ending) :
    r.readFrame.2 = ending ∧ r.readFrame.1.framesRead = count ∧
      r.readFrame.1.bytesRead = size := by
  cases he with
  | ended short closes =>
    simp only [readFrame, h.state, Source.take_short (h.bytes ▸ short),
      Source.shortage_ended (h.failure.trans closes)]
    exact ⟨trivial, h.framesRead, h.bytesRead⟩
  | failed short fails =>
    simp only [readFrame, h.state, Source.take_short (h.bytes ▸ short),
      Source.shortage_failed (h.failure.trans fails)]
    exact ⟨trivial, h.framesRead, h.bytesRead⟩
  | @tooLarge header more large =>
    have htaken := (Source.take_append h.bytes).1
    have hdecode := Framing.decodeHeader_large large []
    rw [List.append_nil] at hdecode
    rw [Framing.length_frameHeader] at htaken
    simp only [readFrame, h.state, h.framing, htaken, hdecode]
    exact ⟨trivial, h.framesRead, h.bytesRead⟩
  | closed fits short closes =>
    obtain ⟨r', heq, h⟩ := h.readFrame_header fits
    rw [heq]
    simp only [readFrame, h.state, readPayload, Source.take_short (h.bytes ▸ short),
      Source.shortage_ended (h.failure.trans closes)]
    exact ⟨trivial, h.framesRead, h.bytesRead⟩
  | brokenOff fits short fails =>
    obtain ⟨r', heq, h⟩ := h.readFrame_header fits
    rw [heq]
    simp only [readFrame, h.state, readPayload, Source.take_short (h.bytes ▸ short),
      Source.shortage_failed (h.failure.trans fails)]
    exact ⟨trivial, h.framesRead, h.bytesRead⟩

variable {stream : Bytes} {frames : List RawFrame}
  {ending : Except ConnectionError (Option Decoded)}

/-- After `k` reads the first `k` frames are behind the reader. -/
theorem after (h : r.At f failure .header stream 0 0)
    (hcuts : f.Cuts failure stream frames rest ending) {k : Nat} (hk : k ≤ frames.length) :
    (r.after k).At f failure .header (((frames.drop k).map RawFrame.bytes).flatten ++ rest) k
      ((frames.take k).map RawFrame.size).sum := by
  induction k with
  | zero => exact hcuts.stream_eq ▸ h
  | succ k ih =>
    have hprev := ih (Nat.le_of_succ_le hk)
    have hx : frames[k].Whole f := hcuts.whole _ (List.getElem_mem hk)
    rw [List.drop_eq_getElem_cons hk, List.map_cons, List.flatten_cons, List.append_assoc] at hprev
    rw [List.take_succ_eq_append_getElem hk, List.map_append, List.sum_append]
    exact (hprev.readFrame_whole hx).2

theorem readFrame_after (h : r.At f failure .header stream 0 0)
    (hcuts : f.Cuts failure stream frames rest ending) {k : Nat} (hk : k < frames.length) :
    (r.after k).readFrame.2 = .ok (some frames[k].content) := by
  have hprev := h.after hcuts (Nat.le_of_lt hk)
  rw [List.drop_eq_getElem_cons hk, List.map_cons, List.flatten_cons, List.append_assoc] at hprev
  exact (hprev.readFrame_whole (hcuts.whole _ (List.getElem_mem hk))).1

theorem readFrame_after_all (h : r.At f failure .header stream 0 0)
    (hcuts : f.Cuts failure stream frames rest ending) :
    (r.after frames.length).readFrame.2 = ending ∧
      (r.after (frames.length + 1)).framesRead = frames.length ∧
      (r.after (frames.length + 1)).bytesRead = (frames.map RawFrame.size).sum := by
  have hall := h.after hcuts le_rfl
  rw [List.drop_length, List.take_length] at hall
  exact hall.readFrame_ends hcuts.ends

end At

theorem after_succ (r : FrameReader) (k : Nat) : r.after (k + 1) = r.readFrame.1.after k := by
  induction k with
  | zero => rfl
  | succ k ih => rw [after, ih, after]

/-- With a whole frame behind it, a reader is as one that starts there. -/
theorem At.alike {r : FrameReader} {f : Framing} {x : RawFrame} {later : Source}
    (h : r.At f later.failure .header (x.bytes ++ later.bytes) 0 0) (hx : x.Whole f) :
    r.readFrame.1.Alike (start f later) := by
  have hnext := (h.readFrame_whole hx).2
  exact ⟨hnext.framing, hnext.state, hnext.bytes, hnext.failure⟩

theorem start_at (f : Framing) (source : Source) :
    (start f source).At f source.failure .header source.bytes 0 0 :=
  ⟨rfl, rfl, rfl, rfl, rfl, rfl⟩

/-- Every stream falls into whole frames and a rest. However it arrives, the successive reads return
what the frames hold, good or bad, each read counts one frame and its bytes, and then reading ends
as the rest has it. All reads but the first are those of the stream behind the first frame, whatever
that one holds. A frame alone on its stream decodes in memory to what is read of it. -/
theorem reads_cut (f : Framing) (source : Source) :
    (∃ frames rest ending, f.Cuts source.failure source.bytes frames rest ending) ∧
    (∀ frames rest ending, f.Cuts source.failure source.bytes frames rest ending →
      (∀ (k : Nat) (hk : k < frames.length),
        ((start f source).after k).readFrame.2 = .ok (some frames[k].content)) ∧
      ((start f source).after frames.length).readFrame.2 = ending ∧
      (∀ k ≤ frames.length,
        ((start f source).after k).framesRead = k ∧
        ((start f source).after k).bytesRead = ((frames.take k).map RawFrame.size).sum) ∧
      ((start f source).after (frames.length + 1)).framesRead = frames.length ∧
      ((start f source).after (frames.length + 1)).bytesRead = (frames.map RawFrame.size).sum) ∧
    (∀ (x : RawFrame) (later : Source), x.Whole f → source.bytes = x.bytes ++ later.bytes →
      source.failure = later.failure → ∀ k,
        ((start f source).after (k + 1)).readFrame.2 = ((start f later).after k).readFrame.2) ∧
    (∀ x : RawFrame, x.Whole f → source.bytes = x.bytes →
      (start f source).readFrame.2 = .ok (some x.content) ∧
      f.decode source.bytes = x.content.mapError PartialDecode.toError) := by
  have hstart := start_at f source
  refine ⟨f.exists_cuts _ _, fun frames rest ending hcuts => ⟨fun k hk => ?_, ?_, fun k hk => ?_,
    ?_⟩, fun x later hx hbytes hfailure k => ?_, fun x hx hbytes => ⟨?_, ?_⟩⟩
  · exact hstart.readFrame_after hcuts hk
  · exact (hstart.readFrame_after_all hcuts).1
  · exact ⟨(hstart.after hcuts hk).framesRead, (hstart.after hcuts hk).bytesRead⟩
  · exact (hstart.readFrame_after_all hcuts).2
  · rw [hbytes, hfailure] at hstart
    rw [after_succ]
    exact ((hstart.alike hx).after k).readFrame.2
  · rw [hbytes, ← List.append_nil x.bytes] at hstart
    exact (hstart.readFrame_whole hx).1
  · rw [hbytes]
    exact Framing.decode_bytes hx

/-- A frame whose payload is no record, and behind it an empty batch, in two chunks that are cut
inside a header. -/
theorem reads_cut_bad_then_good :
    let source : Source := ⟨[[0, 0, 0, 2, 0], [1, 7, 7, 0, 0, 0, 0, 0, 0]], none⟩
    let frames : List RawFrame := [⟨⟨2, 1⟩, [7, 7]⟩, ⟨⟨0, 0⟩, []⟩]
    Framing.standard.Cuts source.failure source.bytes frames [] (.ok none) ∧
      ((start .standard source).readFrame.2 =
        .ok (some (.error ⟨[], 0, 1, .truncated 16 2⟩))) ∧
      ((start .standard source).after 1).readFrame.2 = .ok (some (.ok [])) ∧
      ((start .standard source).after 2).readFrame.2 = .ok none ∧
      ((start .standard source).after 2).bytesRead = 14 := by
  intro source frames
  have hcuts : Framing.standard.Cuts source.failure source.bytes frames [] (.ok none) :=
    ⟨by decide, by decide, .ended (by decide) rfl⟩
  obtain ⟨hreads, hends, hcounts, -⟩ := (reads_cut .standard source).2.1 _ _ _ hcuts
  exact ⟨hcuts, hreads 0 (by decide), hreads 1 (by decide), hends, (hcounts 2 (by decide)).2⟩

end FrameReader

end EventRelay.Wire
