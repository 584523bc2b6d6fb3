import EventRelay.Proofs.Bodies
import EventRelay.Wire.Frame
import Mathlib.Algebra.Order.BigOperators.Group.List
import Mathlib.Algebra.Order.Group.Nat

/-!
# A batch survives its frame

A batch is encoded just if its messages can be counted, the fields of each fit, and the records
together stay within the limit. The frame then announces how many bytes and messages it holds, and
decodes to the batch it was made of.
-/

namespace EventRelay

/-- The length of the record of a message. -/
def Message.recordSize (m : Message) : Nat := Wire.recordHeaderSize + m.payload.wireSize

namespace Wire

/-! ## Records -/

theorem writeRecord_ok {m : Message} {r : Bytes} :
    writeRecord m = .ok r ↔ ∃ body, writeBody m.payload = .ok body ∧ body.length ≤ maxWord32 ∧
      r = recordHeader m.kind.tag m.version m.timestamp body.length.toUInt32 ++ body := by
  unfold writeRecord
  rcases writeBody m.payload with e | body
  · simp
  · simp only [Except.ok.injEq, exists_eq_left']
    split_ifs with h
    · simp only [false_iff]
      omega
    · simp only [Except.ok.injEq]
      exact ⟨fun hr => ⟨by omega, hr.symm⟩, fun hr => hr.2.symm⟩

theorem writeRecord_ok_iff (m : Message) :
    (∃ r, writeRecord m = .ok r) ↔ m.payload.Fits ∧ m.payload.wireSize ≤ maxWord32 := by
  simp only [writeRecord_ok, ← writeBody_ok_iff]
  constructor
  · rintro ⟨_, body, hb, hl, -⟩
    exact ⟨⟨body, hb⟩, by rwa [← length_writeBody hb]⟩
  · rintro ⟨⟨body, hb⟩, hl⟩
    exact ⟨_, body, hb, by rwa [length_writeBody hb], rfl⟩

theorem length_writeRecord {m : Message} {r : Bytes} (h : writeRecord m = .ok r) :
    r.length = m.recordSize := by
  obtain ⟨body, hb, -, rfl⟩ := writeRecord_ok.1 h
  rw [List.length_append, length_writeBody hb]
  rfl

theorem readRecordHeader_append (tag version : UInt16) (timestamp : Int64) (length : UInt32)
    (rest : Bytes) :
    readRecordHeader (recordHeader tag version timestamp length ++ rest) =
      .ok ((tag, version, timestamp, length), rest) :=
  (Layout.word16_fixed.seq (Layout.word16_fixed.seq
    (Layout.int64_fixed.seq Layout.word32_fixed))).read_write
      (x := (tag, version, timestamp, length)) ⟨trivial, trivial, trivial, trivial⟩ rfl rest

theorem toNat_toUInt32 {n : Nat} (h : n ≤ maxWord32) : n.toUInt32.toNat = n := by
  unfold maxWord32 at h
  rw [Nat.toUInt32, UInt32.toNat_ofNat']
  exact Nat.mod_eq_of_lt (by omega)

theorem readRecord_writeRecord {m : Message} {r : Bytes} (hm : m.payload.Regular)
    (h : writeRecord m = .ok r) (rest : Bytes) : readRecord (r ++ rest) = .ok (m, rest) := by
  obtain ⟨body, hb, hl, rfl⟩ := writeRecord_ok.1 h
  have hk : Kind.ofTag m.kind.tag = m.payload.kind := Payload.ofTag_kind hm
  simp only [readRecord, List.append_assoc, readRecordHeader_append, toNat_toUInt32 hl,
    Layout.take?_append, hk, readBody_writeBody hm hb]

/-- What the messages of a batch are written as, record by record. -/
abbrev Records : List Message → List Bytes → Prop :=
  List.Forall₂ fun m r => writeRecord m = .ok r

theorem writeRecords_ok : ∀ {batch : List Message} {written : List Bytes} {payload : Bytes},
    writeRecords batch written = .ok payload ↔
      ∃ new, payload = written.reverse.flatten ++ new.flatten ∧ Records batch new
  | [], written, payload => by simp [writeRecords, eq_comm]
  | m :: batch, written, payload => by
    simp only [writeRecords]
    rcases hm : writeRecord m with e | r
    · simp [hm, List.forall₂_cons_left_iff]
    · rw [writeRecords_ok]
      constructor
      · rintro ⟨new, rfl, hnew⟩
        exact ⟨r :: new, by simp, .cons hm hnew⟩
      · rintro ⟨_, rfl, hnew⟩
        obtain ⟨r', new, hr, hnew', rfl⟩ := List.forall₂_cons_left_iff.1 hnew
        rw [hm, Except.ok.injEq] at hr
        exact ⟨new, by simp [hr], hnew'⟩

theorem writeRecords_nil_ok {batch : List Message} {payload : Bytes} :
    writeRecords batch [] = .ok payload ↔
      ∃ records, Records batch records ∧ payload = records.flatten := by
  simp [writeRecords_ok, and_comm]

theorem records_iff : ∀ batch : List Message,
    (∃ records, Records batch records) ↔
      ∀ m ∈ batch, m.payload.Fits ∧ m.payload.wireSize ≤ maxWord32
  | [] => by simp
  | m :: batch => by
    simp only [List.forall₂_cons_left_iff, List.forall_mem_cons, ← writeRecord_ok_iff m,
      ← records_iff batch]
    constructor
    · rintro ⟨_, r, records, hr, hrs, rfl⟩
      exact ⟨⟨r, hr⟩, records, hrs⟩
    · rintro ⟨⟨r, hr⟩, records, hrs⟩
      exact ⟨_, r, records, hr, hrs, rfl⟩

theorem length_records {batch : List Message} {records : List Bytes}
    (h : Records batch records) :
    records.flatten.length = (batch.map (·.recordSize)).sum := by
  induction h with
  | nil => rfl
  | cons hm _ ih => simp [length_writeRecord hm, ih]

theorem readRecords_records {batch : List Message} {records : List Bytes}
    (hb : ∀ m ∈ batch, m.payload.Regular) (h : Records batch records) (count : Nat)
    (seen : List Message) :
    readRecords count batch.length records.flatten seen = .ok (seen.reverse ++ batch) := by
  induction h generalizing seen with
  | nil => simp [readRecords]
  | cons hm _ ih =>
    rw [List.forall_mem_cons] at hb
    simp only [List.length_cons, List.flatten_cons, readRecords,
      readRecord_writeRecord hb.1 hm, ih hb.2]
    simp

/-! ## Frames -/

namespace Framing

variable {f : Framing} {batch : List Message} {frame : Bytes}

theorem encode_ok : f.encode batch = .ok frame ↔ batch.length ≤ maxBatch ∧
    ∃ records, Records batch records ∧ records.flatten.length ≤ f.limit ∧
      frame = frameHeader ⟨records.flatten.length.toUInt32, batch.length.toUInt16⟩ ++
        records.flatten := by
  unfold encode
  split_ifs with hb
  · simp only [false_iff, not_and]
    omega
  rcases hw : writeRecords batch [] with e | payload
  · simp only [reduceCtorEq, false_iff, not_and, not_exists]
    intro _ records hr
    rw [writeRecords_nil_ok.2 ⟨records, hr, rfl⟩] at hw
    cases hw
  obtain ⟨records, hr, rfl⟩ := writeRecords_nil_ok.1 hw
  have huniq : ∀ {records'}, Records batch records' → records'.flatten = records.flatten := by
    intro records' hr'
    have := writeRecords_nil_ok.2 ⟨records', hr', rfl⟩
    rw [hw, Except.ok.injEq] at this
    exact this.symm
  dsimp only
  split_ifs with hl
  · simp only [false_iff, not_and, not_exists]
    intro _ records' hr' hl'
    rw [huniq hr'] at hl'
    omega
  · rw [Except.ok.injEq]
    constructor
    · rintro rfl
      exact ⟨by omega, records, hr, by omega, rfl⟩
    · rintro ⟨-, records', hr', -, rfl⟩
      rw [huniq hr']

theorem encode_ok_iff : (∃ frame, f.encode batch = .ok frame) ↔ batch.length ≤ maxBatch ∧
    (∀ m ∈ batch, m.payload.Fits) ∧ (batch.map (·.recordSize)).sum ≤ f.limit := by
  simp only [encode_ok]
  constructor
  · rintro ⟨_, hb, records, hr, hl, -⟩
    refine ⟨hb, fun m hm => ((records_iff batch).1 ⟨records, hr⟩ m hm).1, ?_⟩
    rwa [← length_records hr]
  · rintro ⟨hb, hfit, hl⟩
    have hsize : ∀ m ∈ batch, m.payload.wireSize ≤ maxWord32 := by
      intro m hm
      have hle : m.recordSize ≤ (batch.map (·.recordSize)).sum :=
        List.le_sum_of_mem (List.mem_map_of_mem hm)
      have hrec : m.recordSize = recordHeaderSize + m.payload.wireSize := rfl
      have := f.limit_le
      omega
    obtain ⟨records, hr⟩ := (records_iff batch).2 fun m hm => ⟨hfit m hm, hsize m hm⟩
    exact ⟨_, hb, records, hr, by rwa [length_records hr], rfl⟩

theorem readFrameHeader_append (h : FrameHeader) (rest : Bytes) :
    readFrameHeader (frameHeader h ++ rest) = .ok (h, rest) :=
  (Layout.word32_fixed.seq Layout.word16_fixed).readAs (x := (h.length, h.count))
    ⟨trivial, trivial⟩ rfl (fun x => FrameHeader.mk x.1 x.2) rest

theorem decodeHeader_append (h : FrameHeader) (hl : h.length.toNat ≤ f.limit) (rest : Bytes) :
    f.decodeHeader (frameHeader h ++ rest) = .ok h := by
  simp only [decodeHeader, readFrameHeader_append, gt_iff_lt, Nat.not_lt.2 hl, if_false]

theorem length_frameHeader (h : FrameHeader) : (frameHeader h).length = headerSize := rfl

theorem toNat_toUInt16 {n : Nat} (h : n ≤ maxBatch) : n.toUInt16.toNat = n := by
  unfold maxBatch at h
  rw [Nat.toUInt16, UInt16.toNat_ofNat']
  exact Nat.mod_eq_of_lt (by omega)

theorem decode_encode {records : List Bytes} (hb : batch.length ≤ maxBatch)
    (hr : Records batch records) (hl : records.flatten.length ≤ f.limit)
    (hreg : ∀ m ∈ batch, m.payload.Regular) :
    f.decode (frameHeader ⟨records.flatten.length.toUInt32, batch.length.toUInt16⟩ ++
      records.flatten) = .ok batch := by
  have hlen := toNat_toUInt32 (hl.trans f.limit_le)
  have hdrop : ∀ h : FrameHeader, (frameHeader h ++ records.flatten).drop headerSize =
      records.flatten := fun h => List.drop_left' (length_frameHeader h)
  simp only [decode, decodeHeader_append, hlen, hl, List.length_append, length_frameHeader,
    hdrop, decodePayload, toNat_toUInt16 hb, readRecords_records hreg hr, gt_iff_lt, Nat.lt_irrefl,
    if_false, List.reverse_nil, List.nil_append]

/-- A batch is encoded just if it has at most as many messages as a header can count, no text or
list too long, and records that stay within the limit together. Its frame announces the length of
the records and the number of messages, and decodes to the batch. -/
theorem encode_iff_and_decode (limit : Nat) (batch : List Message) :
    ((∃ frame, (ofLimit limit).encode batch = .ok frame) ↔ batch.length ≤ 65535 ∧
      (∀ m ∈ batch, m.payload.Fits) ∧
        (batch.map (·.recordSize)).sum ≤ min limit maxWord32) ∧
    ∀ frame, (ofLimit limit).encode batch = .ok frame → (∀ m ∈ batch, m.payload.Regular) →
      (ofLimit limit).decode frame = .ok batch ∧
      ∃ header, (ofLimit limit).decodeHeader frame = .ok header ∧
        header.length.toNat = (batch.map (·.recordSize)).sum ∧
        headerSize + header.length.toNat = frame.length ∧ header.count.toNat = batch.length := by
  refine ⟨encode_ok_iff, fun frame h hreg => ?_⟩
  obtain ⟨hb, records, hr, hl, rfl⟩ := encode_ok.1 h
  have hlen := toNat_toUInt32 (hl.trans (ofLimit limit).limit_le)
  refine ⟨decode_encode hb hr hl hreg, _, decodeHeader_append _ (by rwa [hlen]) _, ?_, ?_, ?_⟩
  · rw [hlen, length_records hr]
  · rw [hlen, List.length_append, length_frameHeader]
  · exact toNat_toUInt16 hb

/-- Two messages at the limit of their frame: a seek to the end, and one of a kind that the catalog
does not hold. -/
theorem encode_iff_and_decode_unknown :
    let batch : List Message :=
      [⟨-5, 1, .seek .eof⟩, ⟨7, 9, .unknown 999 [1, 2]⟩, ⟨0, 1, .streamDescription "é"⟩]
    ∃ frame, (ofLimit 62).encode batch = .ok frame ∧ (ofLimit 62).decode frame = .ok batch := by
  intro batch
  have hfit : ∀ m ∈ batch, m.payload.Fits := by
    simp [batch, Payload.Fits, maxFieldLength]
    decide
  have hreg : ∀ m ∈ batch, m.payload.Regular := by
    simp [batch, Payload.Regular, Kind.catalog, Kind.tag]
  obtain ⟨frame, h⟩ := (encode_iff_and_decode 62 batch).1.2 ⟨by decide, hfit, by decide⟩
  exact ⟨frame, h, ((encode_iff_and_decode 62 batch).2 frame h hreg).1⟩

end Framing

end Wire

end EventRelay
