import EventRelay.Proofs.Boundaries
import EventRelay.Wire.Writer

/-!
# Batches survive their grouping

How queued batches are grouped into writes does not show on the wire: their frames lie one behind
the other. A batch whose messages can each be encoded is cut into parts that all have a frame, since
a part is only halved while it is too large, and a single message is not. So the reader returns the
parts, whatever the chunks, and what was written is what was read.
-/

namespace EventRelay.Wire

namespace Framing

variable {f : Framing} {batch : List Message}

/-- Each message has a frame of its own. -/
def Apart (f : Framing) (batch : List Message) : Prop :=
  ∀ m ∈ batch, ∃ frame, f.encode [m] = .ok frame

/-- The batch falls into these parts, none of them empty. -/
structure Parts (batch : List Message) (parts : List (List Message)) : Prop where
  flatten_eq : parts.flatten = batch
  nonempty : ∀ part ∈ parts, part ≠ []

/-- The frames that the parts of a batch are encoded as, one by one. -/
abbrev Encodes (f : Framing) : List (List Message) → List Bytes → Prop :=
  List.Forall₂ fun part frame => f.encode part = .ok frame

theorem Apart.take (h : f.Apart batch) (n : Nat) : f.Apart (batch.take n) :=
  fun m hm => h m (List.mem_of_mem_take hm)

theorem Apart.drop (h : f.Apart batch) (n : Nat) : f.Apart (batch.drop n) :=
  fun m hm => h m (List.mem_of_mem_drop hm)

theorem Apart.records (h : f.Apart batch) : ∃ records, Records batch records := by
  refine (records_iff batch).2 fun m hm => ?_
  obtain ⟨frame, hframe⟩ := h m hm
  obtain ⟨-, records, hrecords, -⟩ := encode_ok.1 hframe
  exact (records_iff [m]).1 ⟨records, hrecords⟩ m (List.mem_singleton_self m)

/-- Where the messages have frames of their own, a batch that can be counted is only ever refused
for its size. -/
theorem Apart.tooLarge (h : f.Apart batch) (hcount : batch.length ≤ maxBatch) {e : WireError}
    (he : f.encode batch = .error e) : ∃ size, e = .frameTooLarge size f.limit := by
  obtain ⟨records, hrecords⟩ := h.records
  have hwrite := writeRecords_nil_ok.2 ⟨records, hrecords, rfl⟩
  simp only [encode, gt_iff_lt, Nat.not_lt.2 hcount, if_false, hwrite] at he
  split_ifs at he
  cases he
  exact ⟨_, rfl⟩

theorem Parts.append {batch' : List Message} {parts parts' : List (List Message)}
    (h : Parts batch parts) (h' : Parts batch' parts') :
    Parts (batch ++ batch') (parts ++ parts') where
  flatten_eq := by rw [List.flatten_append, h.flatten_eq, h'.flatten_eq]
  nonempty := by
    intro part hpart
    rcases List.mem_append.1 hpart with hpart | hpart
    · exact h.nonempty part hpart
    · exact h'.nonempty part hpart

theorem Parts.single (h : batch ≠ []) : Parts batch [batch] := ⟨by simp, by simpa using h⟩

/-- The frames of this batch are those of parts that it falls into. -/
def Splits (f : Framing) (batch : List Message) (frames : Frames) : Prop :=
  frames.failure = none ∧ ∃ parts, Parts batch parts ∧ f.Encodes parts frames.written

theorem Splits.andThen {n : Nat} {first rest : Frames} (h : f.Splits (batch.take n) first)
    (h' : f.Splits (batch.drop n) rest) : f.Splits batch (first.andThen fun _ => rest) := by
  obtain ⟨hfirst, parts, hparts, hencodes⟩ := h
  obtain ⟨hrest, parts', hparts', hencodes'⟩ := h'
  rw [Frames.andThen, hfirst]
  refine ⟨hrest, parts ++ parts', ?_, List.rel_append hencodes hencodes'⟩
  have := hparts.append hparts'
  rwa [List.take_append_drop] at this

theorem Apart.splits (h : f.Apart batch) (hne : batch ≠ []) :
    f.Splits batch (f.frames batch) := by
  have hlength := List.length_pos_of_ne_nil hne
  fun_induction frames f batch with
  | case1 batch hlong ihtake ihdrop =>
    have htake : batch.take maxBatch ≠ [] := by
      simp [maxBatch, hne]
    have hdrop : batch.drop maxBatch ≠ [] := by
      simpa using hlong
    exact (ihtake (h.take _) htake (List.length_pos_of_ne_nil htake)).andThen
      (ihdrop (h.drop _) hdrop (List.length_pos_of_ne_nil hdrop))
  | case2 batch hshort frame hframe =>
    exact ⟨rfl, [batch], .single hne, .cons hframe .nil⟩
  | case3 batch hshort size max hlarge hmany ihtake ihdrop =>
    have htake : batch.take (batch.length / 2) ≠ [] := by
      simp only [ne_eq, List.take_eq_nil_iff, hne, or_false]
      omega
    have hdrop : batch.drop (batch.length / 2) ≠ [] := by
      simp only [ne_eq, List.drop_eq_nil_iff]
      omega
    exact (ihtake (h.take _) htake (List.length_pos_of_ne_nil htake)).andThen
      (ihdrop (h.drop _) hdrop (List.length_pos_of_ne_nil hdrop))
  | case4 batch hshort size max hlarge hfew =>
    obtain ⟨m, rfl⟩ := List.length_eq_one_iff.1 (by omega : batch.length = 1)
    obtain ⟨frame, hframe⟩ := h m (List.mem_singleton_self m)
    rw [hframe] at hlarge
    cases hlarge
  | case5 batch hshort e hother herror =>
    obtain ⟨size, rfl⟩ := h.tooLarge (Nat.not_lt.1 hshort) herror
    exact absurd rfl (hother _ _)

theorem encode_singleton_iff {m : Message} : (∃ frame, f.encode [m] = .ok frame) ↔
    m.payload.Fits ∧ m.recordSize ≤ f.limit := by
  rw [encode_ok_iff]
  simp [maxBatch]

theorem Apart.of_encode {frame : Bytes} (h : f.encode batch = .ok frame) : f.Apart batch := by
  obtain ⟨-, fits, limit⟩ := encode_ok_iff.1 ⟨frame, h⟩
  exact fun m hm => encode_singleton_iff.2
    ⟨fits m hm, (List.le_sum_of_mem (List.mem_map_of_mem hm)).trans limit⟩

theorem Apart.join {n : Nat} (htake : f.Apart (batch.take n)) (hdrop : f.Apart (batch.drop n)) :
    f.Apart batch := by
  intro m hm
  rw [← List.take_append_drop n batch] at hm
  exact (List.mem_append.1 hm).elim (htake m) (hdrop m)

theorem failure_andThen {first rest : Frames} : (first.andThen fun _ => rest).failure = none ↔
    first.failure = none ∧ rest.failure = none := by
  rcases h : first.failure with _ | e <;> simp [Frames.andThen, h]

/-- A batch that has a frame is not cut. -/
theorem frames_of_encode {frame : Bytes} (h : f.encode batch = .ok frame) :
    f.frames batch = ⟨[frame], none⟩ := by
  rw [frames, dif_neg (Nat.not_lt.2 (encode_ok.1 h).1), h]

/-- All of a batch is written just if each message has a frame of its own. -/
theorem failure_frames_iff : (f.frames batch).failure = none ↔ f.Apart batch := by
  constructor
  · intro written
    fun_induction frames f batch with
    | case1 batch hlong ihtake ihdrop =>
      obtain ⟨htake, hdrop⟩ := failure_andThen.1 written
      exact (ihtake htake).join (ihdrop hdrop)
    | case2 batch hshort frame hframe => exact .of_encode hframe
    | case3 batch hshort size max hlarge hmany ihtake ihdrop =>
      obtain ⟨htake, hdrop⟩ := failure_andThen.1 written
      exact (ihtake htake).join (ihdrop hdrop)
    | case4 => cases written
    | case5 => cases written
  · intro apart
    rcases eq_or_ne batch [] with rfl | some
    · have empty : ∃ frame, f.encode [] = .ok frame :=
        encode_ok_iff.2 ⟨Nat.zero_le _, nofun, Nat.zero_le _⟩
      obtain ⟨frame, empty⟩ := empty
      rw [frames_of_encode empty]
    · exact (apart.splits some).1

/-- The frame of a part, as it lies on a stream. -/
theorem exists_whole {part : List Message} {frame : Bytes}
    (hreg : ∀ m ∈ part, m.payload.Regular) (h : f.encode part = .ok frame) :
    ∃ x : RawFrame, x.Whole f ∧ x.bytes = frame ∧ x.content = .ok part := by
  obtain ⟨hcount, records, hrecords, hlimit, rfl⟩ := encode_ok.1 h
  have hlength := toNat_toUInt32 (hlimit.trans f.limit_le)
  refine ⟨⟨⟨records.flatten.length.toUInt32, part.length.toUInt16⟩, records.flatten⟩,
    ⟨hlength.symm, hlength.le.trans hlimit⟩, rfl, ?_⟩
  simp only [RawFrame.content, decodePayload, toNat_toUInt16 hcount,
    readRecords_records hreg hrecords, List.reverse_nil, List.nil_append]

end Framing

/-! ## Groups of batches -/

section Groups

variable {f : Framing}

theorem writeFrames_cons (batch : List Message) (batches : List (List Message)) :
    writeFrames f (batch :: batches) =
      (if batch = [] then [] else (f.frames batch).written.flatten) ++ writeFrames f batches := by
  by_cases h : batch = [] <;> simp [writeFrames, h]

theorem writeFrames_append (batches batches' : List (List Message)) :
    writeFrames f (batches ++ batches') = writeFrames f batches ++ writeFrames f batches' := by
  simp [writeFrames]

/-- The frames of several batches lie one behind the other, each for a part of one batch. -/
theorem writeFrames_parts {batches : List (List Message)}
    (h : ∀ batch ∈ batches, f.Apart batch) :
    ∃ parts frames, List.Forall₂ Framing.Parts batches parts ∧
      f.Encodes parts.flatten frames ∧ writeFrames f batches = frames.flatten := by
  induction batches with
  | nil => exact ⟨[], [], .nil, .nil, rfl⟩
  | cons batch batches ih =>
    rw [List.forall_mem_cons] at h
    obtain ⟨parts, frames, hparts, hencodes, hwritten⟩ := ih h.2
    rw [writeFrames_cons, hwritten]
    by_cases hempty : batch = []
    · subst hempty
      exact ⟨[] :: parts, frames, .cons ⟨rfl, by simp⟩ hparts, hencodes, by simp⟩
    · obtain ⟨-, new, hnew, hencodes'⟩ := h.1.splits hempty
      exact ⟨new :: parts, (f.frames batch).written ++ frames, .cons hnew hparts,
        List.rel_append hencodes' hencodes, by simp [hempty]⟩

/-- A connection that takes all takes the frames of a group, with nothing to write as well. -/
theorem Sink.writeFrames_eq {s : Sink} (h : s.failure = none) (group : List (List Message)) :
    s.writeFrames f group = ({ s with bytes := s.bytes ++ Wire.writeFrames f group },
      .ok (Wire.writeFrames f group).length) := by
  obtain ⟨bytes, failure⟩ := s
  obtain rfl : failure = none := h
  by_cases hout : Wire.writeFrames f group = [] <;> simp [writeFrames, hout]

/-- However batches are grouped, a connection that takes all is handed the frames of all of them,
and every byte is counted. -/
theorem Sink.writeLoop_eq {s : Sink} (h : s.failure = none) (groups : List (List (List Message))) :
    (s.writeLoop f groups).1.bytes = s.bytes ++ Wire.writeFrames f groups.flatten ∧
      (s.writeLoop f groups).2.1.length = groups.length ∧
      (s.writeLoop f groups).2.1.sum = (Wire.writeFrames f groups.flatten).length ∧
      (s.writeLoop f groups).2.2 = none := by
  induction groups generalizing s with
  | nil => simp [writeLoop, Wire.writeFrames]
  | cons group groups ih =>
    obtain ⟨hbytes, hlength, hsum, hnone⟩ :=
      ih (s := { s with bytes := s.bytes ++ Wire.writeFrames f group }) h
    rw [List.flatten_cons, writeFrames_append, writeLoop, writeFrames_eq h]
    exact ⟨by simp [hbytes], by simp [hlength], by simp [hsum], hnone⟩

theorem RawFrame.length_bytes (x : RawFrame) : x.bytes.length = x.size := by
  rw [bytes, List.length_append, Framing.length_frameHeader, size]

/-- What is encoded of the parts lies on the stream as whole frames that hold the parts. -/
theorem Framing.Encodes.exists_whole {parts : List (List Message)} {frames : List Bytes}
    (hreg : ∀ m ∈ parts.flatten, m.payload.Regular) (h : f.Encodes parts frames) :
    ∃ xs : List RawFrame, (∀ x ∈ xs, x.Whole f) ∧ xs.map RawFrame.bytes = frames ∧
      xs.map RawFrame.content = parts.map .ok := by
  induction h with
  | nil => exact ⟨[], by simp⟩
  | @cons part frame parts frames hpart _ ih =>
    rw [List.flatten_cons, List.forall_mem_append] at hreg
    obtain ⟨x, hx, hbytes, hcontent⟩ := Framing.exists_whole hreg.1 hpart
    obtain ⟨xs, hxs, hbytes', hcontents⟩ := ih hreg.2
    exact ⟨x :: xs, List.forall_mem_cons.2 ⟨hx, hxs⟩, by simp [hbytes, hbytes'],
      by simp [hcontent, hcontents]⟩

theorem Framing.Parts.flatten_flatten {batches : List (List Message)}
    {parts : List (List (List Message))} (h : List.Forall₂ Framing.Parts batches parts) :
    parts.flatten.flatten = batches.flatten := by
  induction h with
  | nil => rfl
  | cons hbatch _ ih => rw [List.flatten_cons, List.flatten_append, hbatch.flatten_eq, ih,
      List.flatten_cons]

/-- Batches of which every message can be encoded are written group after group, and arrive in any
chunks. Then each batch falls into parts that are not empty, an empty batch into none, and the reads
return these parts in order, each as a frame that decodes, before they report the end. Together they
are what was queued, and the bytes that the writes have counted are the bytes read. -/
theorem FrameReader.reads_batches (limit : Nat) (groups : List (List (List Message)))
    (hregular : ∀ m ∈ groups.flatten.flatten, m.payload.Regular)
    (hencodes : ∀ m ∈ groups.flatten.flatten,
      ∃ frame, (Framing.ofLimit limit).encode [m] = .ok frame)
    (chunks : List Bytes)
    (hchunks : chunks.flatten =
      (({} : Sink).writeLoop (.ofLimit limit) groups).1.bytes) :
    let r := start (.ofLimit limit) ⟨chunks, none⟩
    let written := ({} : Sink).writeLoop (.ofLimit limit) groups
    ∃ parts : List (List (List Message)), List.Forall₂ Framing.Parts groups.flatten parts ∧
      (∀ (k : Nat) (hk : k < parts.flatten.length),
        (r.after k).readFrame.2 = .ok (some (.ok parts.flatten[k]))) ∧
      (r.after parts.flatten.length).readFrame.2 = .ok none ∧
      parts.flatten.flatten = groups.flatten.flatten ∧
      written.2.2 = none ∧ written.2.1.length = groups.length ∧
      (r.after (parts.flatten.length + 1)).framesRead = parts.flatten.length ∧
      written.2.1.sum = (r.after (parts.flatten.length + 1)).bytesRead := by
  intro r written
  have happart : ∀ batch ∈ groups.flatten, (Framing.ofLimit limit).Apart batch :=
    fun batch hbatch m hm => hencodes m (List.mem_flatten_of_mem hbatch hm)
  obtain ⟨hbytes, hlength, hsum, hnone⟩ :=
    Sink.writeLoop_eq (s := {}) (f := .ofLimit limit) rfl groups
  obtain ⟨parts, frames, hparts, hframes, hwritten⟩ := writeFrames_parts happart
  have hflatten := Framing.Parts.flatten_flatten hparts
  obtain ⟨xs, hwhole, hxs, hcontent⟩ :=
    Framing.Encodes.exists_whole (by rwa [hflatten]) hframes
  have hstream : chunks.flatten = (xs.map RawFrame.bytes).flatten := by
    rw [hchunks, hbytes, hwritten, hxs]
    rfl
  have hcuts : (Framing.ofLimit limit).Cuts none chunks.flatten xs [] (.ok none) :=
    ⟨by rw [hstream, List.append_nil], hwhole, .ended (by decide) rfl⟩
  have hcount : xs.length = parts.flatten.length := by
    rw [← List.length_map RawFrame.content, hcontent, List.length_map]
  obtain ⟨hend, hread, hsize⟩ := (start_at _ ⟨chunks, none⟩).readFrame_after_all hcuts
  rw [hcount] at hend hread hsize
  refine ⟨parts, hparts, fun k hk => ?_, hend, hflatten, hnone, hlength, hread, ?_⟩
  · have hx := List.getElem_of_eq hcontent (by rwa [List.length_map, hcount])
    rw [List.getElem_map, List.getElem_map] at hx
    rw [← hx]
    exact (start_at _ ⟨chunks, none⟩).readFrame_after hcuts _
  · rw [hsize, hsum, hwritten, ← hxs, List.length_flatten, List.map_map]
    exact congrArg List.sum (List.map_congr_left fun x _ => x.length_bytes)

/-- Two messages that no frame holds together, an empty batch, and a third message in a write of its
own, in chunks that are cut inside a header and inside a record. -/
theorem FrameReader.reads_batches_split :
    let groups : List (List (List Message)) :=
      [[[⟨1, 1, .status .ok⟩, ⟨2, 1, .seek .eof⟩], []], [[⟨3, 1, .unknown 999 [5]⟩]]]
    let written := ({} : Sink).writeLoop (.ofLimit 24) groups
    let bytes := written.1.bytes
    let r := start (.ofLimit 24)
      ⟨[bytes.take 3, (bytes.drop 3).take 30, (bytes.drop 3).drop 30], none⟩
    ∃ parts : List (List (List Message)), List.Forall₂ Framing.Parts groups.flatten parts ∧
      (r.after parts.flatten.length).readFrame.2 = .ok none ∧
      parts.flatten.flatten = groups.flatten.flatten ∧
      written.2.1.sum = (r.after (parts.flatten.length + 1)).bytesRead := by
  intro groups written bytes r
  have hregular : ∀ m ∈ groups.flatten.flatten, m.payload.Regular := by
    simp [groups, Payload.Regular, Kind.catalog, Kind.tag]
  have hencodes : ∀ m ∈ groups.flatten.flatten,
      ∃ frame, (Framing.ofLimit 24).encode [m] = .ok frame := by
    simp only [Framing.encode_ok_iff]
    simp [groups, Payload.Fits, maxBatch, Message.recordSize, recordHeaderSize, Framing.ofLimit,
      maxWord32]
  have hchunks :
      [bytes.take 3, (bytes.drop 3).take 30, (bytes.drop 3).drop 30].flatten = bytes := by
    simp only [List.flatten_cons, List.flatten_nil, List.append_nil, List.take_append_drop]
  obtain ⟨parts, hparts, -, hend, hall, -, -, -, hsum⟩ :=
    reads_batches 24 groups hregular hencodes _ hchunks
  exact ⟨parts, hparts, hend, hall, hsum⟩

end Groups

end EventRelay.Wire
