import EventRelay.Proofs.Recovered
import EventRelay.Proofs.RoundTrip

/-!
# What decodes is encoded in normal form

A frame that decodes is cut into records by the lengths that its headers announce, and all but two
things in it are written again as they stand. A set flag may be any byte but 0, and is written as
1. A record of a newer layout may hold bytes behind the fields known here; they are left unread and
not written. The frame written for the decoded batch is no longer than the one read, decodes to
the same batch, and is the one read just if that one was normal in both respects. So two frames of
one batch agree record by record, up to these two.
-/

namespace EventRelay

/-- The places of the flags in the body of a payload. -/
def Payload.switches : Payload → List Nat
  | .label l => [l.node.wireSize + (2 + l.text.utf8ByteSize) + 16]
  | .edge e => [e.node1.wireSize + e.node2.wireSize + 8, e.node1.wireSize + e.node2.wireSize + 13]
  | _ => []

theorem Payload.lt_wireSize_of_mem_switches {p : Payload} {k : Nat} (h : k ∈ p.switches) :
    k < p.wireSize := by
  cases p <;> simp only [switches, List.mem_cons, List.not_mem_nil, or_false] at h <;>
    simp only [wireSize] <;> omega

theorem Kind.tag_ofTag (tag : UInt16) : (Kind.ofTag tag).tag = tag := by
  unfold Kind.ofTag
  split <;> first | rfl | exact (UInt16.toNat_inj.1 ‹_›).symm

theorem Kind.ofTag_tag {k : Kind} (h : k ∈ Kind.catalog) : Kind.ofTag k.tag = k := by
  simp only [Kind.catalog, List.mem_cons, List.not_mem_nil, or_false] at h
  rcases h with rfl | rfl | rfl | rfl | rfl | rfl | rfl | rfl | rfl | rfl | rfl | rfl | rfl | rfl |
    rfl | rfl | rfl | rfl <;> rfl

theorem Kind.unknown_notMem (tag : UInt16) : Kind.unknown tag ∉ Kind.catalog := by
  simp [Kind.catalog]

/-- A tag that names no kind of the catalog is the tag of none. -/
theorem Kind.tag_ne_of_ofTag {tag tag' : UInt16} (h : Kind.ofTag tag = .unknown tag') :
    ∀ k ∈ Kind.catalog, k.tag ≠ tag' := by
  have ht : tag = tag' := by rw [← Kind.tag_ofTag tag, h]; rfl
  subst ht
  rintro k hk rfl
  rw [Kind.ofTag_tag hk] at h
  exact Kind.unknown_notMem k.tag (h ▸ hk)

namespace Wire

namespace Layout

/-! ## The kinds -/

theorem note_exact : note.Exact :=
  ((text_exact _).seq (int32_exact.counted _) (text_faithful _)).as fun _ => rfl

theorem gps_exact : gps.Exact :=
  (address_exact.seq (binary64_exact.seq (binary64_exact.seq binary64_exact binary64_fixed)
    binary64_fixed) address_faithful).as fun _ => rfl

theorem label_recovers : label.Recovers fun l => (Payload.label l).switches :=
  ((((((((flag_recovers.seq (text_exact _) flag_fixed (by simp)).after word32_exact
    word32_fixed).after color_exact color_fixed).after color_exact color_fixed).after
    binary32_exact binary32_fixed).after (text_exact _) (text_faithful _)).after address_exact
    address_faithful).as fun _ => rfl).congr
    fun l => by simp [Payload.switches]; omega

theorem edge_recovers : edge.Recovers fun e => (Payload.edge e).switches :=
  ((((((flag_recovers.seq ((flag_recovers.seq (text_exact _) flag_fixed (by simp)).after
    word32_exact word32_fixed) flag_fixed (by simp)).after binary32_exact binary32_fixed).after
    color_exact color_fixed).after address_exact address_faithful).after address_exact
    address_faithful).as fun _ => rfl).congr
    fun e => by simp [Payload.switches]; omega

theorem nodeColor_exact : nodeColor.Exact :=
  (address_exact.seq (color_exact.seq (word32_exact.seq (word32_exact.seq (text_exact _)
    word32_fixed) word32_fixed) color_fixed) address_faithful).as fun _ => rfl

theorem connectivity_exact : connectivity.Exact :=
  (address_exact.seq ((text_exact _).seq (address_exact.counted _) (text_faithful _))
    address_faithful).as fun _ => rfl

theorem dataPoint_exact : dataPoint.Exact :=
  (address_exact.seq ((text_exact _).seq (binary64_exact.counted _) (text_faithful _))
    address_faithful).as fun _ => rfl

theorem nodeStatus_exact : nodeStatus.Exact :=
  (address_exact.seq nodeEvent_exact address_faithful).as fun _ => rfl

theorem timeRange_exact : timeRange.Exact := int64_exact.seq int64_exact int64_fixed

theorem streamInfo_exact : streamInfo.Exact :=
  (word32_exact.seq (text_exact _) word32_fixed).as fun _ => rfl

theorem streamList_exact : streamList.Exact := streamInfo_exact.counted _

end Layout

open Layout

section

variable {kind : Kind} {body rest : Bytes} {p : Payload}

/-- The fields of a known kind are written again as they were read, but for their flags. -/
theorem readFields_ok (h : readFields kind body = .ok (p, rest)) :
    p.kind = kind ∧ ∃ raw, body = raw ++ rest ∧ writeBody p = .ok (settle p.switches raw) := by
  cases kind <;> simp only [readFields, readAs_ok] at h
  case start | stop =>
    cases h
    exact ⟨rfl, [], rfl, rfl⟩
  case unknown tag =>
    cases h
    exact ⟨rfl, body, by simp, by simp [writeBody, Payload.switches, settle_nil]⟩
  all_goals
    obtain ⟨x, hx, rfl⟩ := h
    refine ⟨rfl, ?_⟩
  case status => exact status_exact.of_read hx
  case test => exact note_exact.of_read hx
  case gps => exact gps_exact.of_read hx
  case label => exact label_recovers.of_read hx
  case edge => exact edge_recovers.of_read hx
  case color => exact nodeColor_exact.of_read hx
  case connectivity => exact connectivity_exact.of_read hx
  case dataPoint => exact dataPoint_exact.of_read hx
  case nodeStatus => exact nodeStatus_exact.of_read hx
  case seek => exact position_exact.of_read hx
  case speed => exact binary32_exact.of_read hx
  case playbackTimeRange => exact timeRange_exact.of_read hx
  case listStreams => exact streamList_exact.of_read hx
  case subscribeStream => exact word32_exact.of_read hx
  case streamDescription => exact (text_exact _).of_read hx
  case hello => exact word16_exact.of_read hx

/-- What is read under the kind that a tag names is regular: an unknown payload keeps a tag that
the catalog does not hold, and no seek goes to a negative time. -/
theorem regular_of_readFields {tag : UInt16}
    (h : readFields (Kind.ofTag tag) body = .ok (p, rest)) : p.Regular := by
  generalize hk : Kind.ofTag tag = kind at h
  cases kind <;> simp only [readFields, readAs_ok] at h
  case start | stop =>
    cases h
    trivial
  case unknown tag' =>
    cases h
    exact Kind.tag_ne_of_ofTag hk
  case seek =>
    obtain ⟨q, hq, rfl⟩ := h
    obtain ⟨offset, -, ho⟩ := refine_read_ok.1 hq
    split at ho
    next q' hq' =>
      cases ho
      rcases q with ms | _
      · exact (offset_ofOffset? hq').2 ms rfl
      · trivial
    · cases ho
  all_goals
    obtain ⟨x, -, rfl⟩ := h
    trivial

end

/-! ## Records -/

/-- A record as it stands in a frame, its body unread. -/
structure RawRecord where
  tag : UInt16
  version : UInt16
  timestamp : Int64
  body : Bytes
  deriving DecidableEq, Inhabited

namespace RawRecord

def kind (r : RawRecord) : Kind := Kind.ofTag r.tag

def bytes (r : RawRecord) : Bytes :=
  recordHeader r.tag r.version r.timestamp r.body.length.toUInt32 ++ r.body

/-- What a reader leaves of the body. -/
def unread (r : RawRecord) : Bytes :=
  match readFields r.kind r.body with
  | .ok (_, rest) => rest
  | .error _ => []

/-- What a reader takes of the body. -/
def fields (r : RawRecord) : Bytes := r.body.take (r.body.length - r.unread.length)

/-- The places of the flags in the body. -/
def switches (r : RawRecord) : List Nat :=
  match readFields r.kind r.body with
  | .ok (payload, _) => payload.switches
  | .error _ => []

/-- Each flag in the body is 0 or 1. -/
def Settled (r : RawRecord) : Prop :=
  ∀ k ∈ r.switches, ∀ b, r.body[k]? = some b → b = 0 ∨ b = 1

/-- The record that is written for what was read from this one. -/
def normal (r : RawRecord) : RawRecord := { r with body := settle r.switches r.fields }

/-- The record at the front, and the bytes after it. -/
def cut? (bytes : Bytes) : Option (RawRecord × Bytes) :=
  match readRecordHeader bytes with
  | .error _ => none
  | .ok ((tag, version, timestamp, length), rest) =>
    match Layout.take? length.toNat rest with
    | none => none
    | some (body, rest) => some (⟨tag, version, timestamp, body⟩, rest)

/-- The first records of a payload. -/
def cut : Nat → Bytes → List RawRecord
  | 0, _ => []
  | n + 1, bytes =>
    match cut? bytes with
    | none => []
    | some (r, rest) => r :: cut n rest

/-- The records of a frame. -/
def ofFrame (frame : Bytes) : List RawRecord :=
  match readFrameHeader frame with
  | .error _ => []
  | .ok (header, payload) => cut header.count.toNat payload

/-- The frame of some records. -/
def frame (rs : List RawRecord) : Bytes :=
  let payload := (rs.map bytes).flatten
  frameHeader ⟨payload.length.toUInt32, rs.length.toUInt16⟩ ++ payload

/-- The record is read as this message. -/
structure Reads (r : RawRecord) (m : Message) : Prop where
  fields_ok : readFields r.kind r.body = .ok (m.payload, r.unread)
  unread_eq : r.version ≤ schemaVersion → r.unread = []
  version_eq : m.version = r.version
  timestamp_eq : m.timestamp = r.timestamp
  length_le : r.body.length ≤ maxWord32

variable {r : RawRecord} {m : Message}

theorem length_bytes (r : RawRecord) : r.bytes.length = recordHeaderSize + r.body.length := by
  rw [bytes, List.length_append]
  rfl

theorem cut?_bytes (h : r.body.length ≤ maxWord32) (rest : Bytes) :
    cut? (r.bytes ++ rest) = some (r, rest) := by
  simp only [cut?, bytes, List.append_assoc, readRecordHeader_append, toNat_toUInt32 h,
    Layout.take?_append]

theorem cut_flatten {rs : List RawRecord} (h : ∀ r ∈ rs, r.body.length ≤ maxWord32) :
    cut rs.length (rs.map bytes).flatten = rs := by
  induction rs with
  | nil => rfl
  | cons r rs ih =>
    rw [List.forall_mem_cons] at h
    simp only [List.length_cons, List.map_cons, List.flatten_cons, cut, cut?_bytes h.1, ih h.2]

theorem ofFrame_frame {rs : List RawRecord} (h : ∀ r ∈ rs, r.body.length ≤ maxWord32)
    (hn : rs.length ≤ maxBatch) : ofFrame (frame rs) = rs := by
  have hr : ∀ (header : FrameHeader) (rest : Bytes),
      readFrameHeader (frameHeader header ++ rest) = .ok (header, rest) := fun header rest =>
    (Layout.word32_fixed.seq Layout.word16_fixed).readAs (x := (header.length, header.count))
      ⟨trivial, trivial⟩ rfl (fun x => FrameHeader.mk x.1 x.2) rest
  simp only [ofFrame, frame, hr, Framing.toNat_toUInt16 hn, cut_flatten h]

namespace Reads

theorem kind_eq (h : r.Reads m) : m.kind = r.kind := (readFields_ok h.fields_ok).1

theorem regular (h : r.Reads m) : m.payload.Regular := regular_of_readFields h.fields_ok

theorem switches_eq (h : r.Reads m) : r.switches = m.payload.switches := by
  simp only [switches, h.fields_ok]

theorem body_eq (h : r.Reads m) : r.body = r.fields ++ r.unread := by
  obtain ⟨-, raw, hb, -⟩ := readFields_ok h.fields_ok
  have hl : r.body.length - r.unread.length = raw.length := by
    rw [hb, List.length_append, Nat.add_sub_cancel]
  rw [fields, hl, hb, List.take_left' rfl]

theorem writeBody_ok (h : r.Reads m) : writeBody m.payload = .ok r.normal.body := by
  obtain ⟨-, raw, hb, hw⟩ := readFields_ok h.fields_ok
  have hf : r.fields = raw := List.append_cancel_right (h.body_eq.symm.trans hb)
  rw [hw, normal, hf, h.switches_eq]

theorem length_normal (h : r.Reads m) : r.normal.body.length + r.unread.length = r.body.length := by
  rw [normal, length_settle, ← List.length_append, ← h.body_eq]

/-- The message of a record is written as the normal form of the record. -/
theorem writeRecord_ok (h : r.Reads m) : writeRecord m = .ok r.normal.bytes := by
  have hl := h.length_normal
  have hlt := h.length_le
  refine Wire.writeRecord_ok.2 ⟨r.normal.body, h.writeBody_ok, by omega, ?_⟩
  have htag : m.kind.tag = r.tag := by rw [h.kind_eq, kind, Kind.tag_ofTag]
  rw [bytes, htag, h.version_eq, h.timestamp_eq]
  rfl

/-- The bytes of an unknown body are all read. -/
theorem unread_of_notMem (h : r.Reads m) (hk : r.kind ∉ Kind.catalog) : r.unread = [] := by
  have hf := h.fields_ok
  rcases hr : r.kind <;> rw [hr] at hk hf
  case unknown tag =>
    rw [readFields, Except.ok.injEq, Prod.mk.injEq] at hf
    exact hf.2.symm
  all_goals exact absurd (by decide) hk

theorem switches_lt (h : r.Reads m) {k : Nat} (hk : k ∈ r.switches) : k < r.fields.length := by
  have hw := length_writeBody h.writeBody_ok
  rw [normal, length_settle] at hw
  rw [h.switches_eq] at hk
  rw [hw]
  exact Payload.lt_wireSize_of_mem_switches hk

/-- A record is in normal form just if its flags are 0 or 1 and nothing in it is unread. -/
theorem normal_eq_iff (h : r.Reads m) : r.normal = r ↔ r.Settled ∧ r.unread = [] := by
  -- every switch lies within the fields, so it is the same byte of the body
  have hat : ∀ k ∈ r.switches, r.fields[k]? = r.body[k]? := fun k hk => by
    conv_rhs => rw [h.body_eq, List.getElem?_append_left (h.switches_lt hk)]
  have hsettled : settle r.switches r.fields = r.fields ↔ r.Settled :=
    settle_eq_iff.trans (forall₂_congr fun k hk => by rw [hat k hk])
  have hl := h.length_normal
  constructor
  · intro he
    rw [he] at hl
    have hu : r.unread = [] := List.length_eq_zero_iff.1 (by omega)
    have hf : r.fields = r.body := by rw [h.body_eq, hu, List.append_nil]
    exact ⟨hsettled.1 ((congrArg RawRecord.body he).trans hf.symm), hu⟩
  · rintro ⟨hs, hu⟩
    have hf : r.fields = r.body := by rw [h.body_eq, hu, List.append_nil]
    rw [normal, hsettled.2 hs, hf]

end Reads

end RawRecord

open RawRecord

theorem readBody_ok {kind : Kind} {version : UInt16} {body : Bytes} {p : Payload} :
    readBody kind version body = .ok p ↔
      ∃ rest, readFields kind body = .ok (p, rest) ∧ (version ≤ schemaVersion → rest = []) := by
  unfold readBody
  rcases readFields kind body with e | ⟨p', rest⟩
  · simp
  · simp only [Except.ok.injEq, Prod.mk.injEq]
    split_ifs with hv
    · simp only [false_iff, not_exists, not_and]
      rintro _ ⟨-, rfl⟩ hr
      exact hv.2 (hr hv.1)
    · simp only [Except.ok.injEq]
      constructor
      · rintro rfl
        exact ⟨rest, ⟨rfl, rfl⟩, fun hle => by_contra fun hr => hv ⟨hle, hr⟩⟩
      · rintro ⟨_, ⟨rfl, -⟩, -⟩
        rfl

/-- A record that reads was cut out of the input as it stands. -/
theorem readRecord_ok {bytes rest : Bytes} {m : Message} (h : readRecord bytes = .ok (m, rest)) :
    ∃ r : RawRecord, bytes = r.bytes ++ rest ∧ r.Reads m := by
  unfold readRecord at h
  split at h
  · cases h
  next tag version timestamp length mid hh =>
  split at h
  · cases h
  next body rest' ht =>
  split at h
  · cases h
  next payload hp =>
  cases h
  obtain ⟨header, rfl, hw⟩ := (Layout.word16_exact.seq (Layout.word16_exact.seq
    (Layout.int64_exact.seq Layout.word32_exact Layout.int64_fixed) Layout.word16_fixed)
    Layout.word16_fixed).read hh
  obtain ⟨rfl, hl⟩ := Layout.take?_ok ht
  obtain ⟨left, hf, hv⟩ := readBody_ok.1 hp
  have hlen : body.length ≤ maxWord32 := by
    rw [hl]
    exact Nat.le_of_lt_succ length.toNat_lt
  have hu : RawRecord.unread ⟨tag, version, timestamp, body⟩ = left := by
    simp only [RawRecord.unread, RawRecord.kind, hf]
  refine ⟨⟨tag, version, timestamp, body⟩, ?_, ⟨hu ▸ hf, hu ▸ hv, rfl, rfl, hlen⟩⟩
  have hlength : body.length.toUInt32 = length := by simp [hl]
  cases hw
  simp [RawRecord.bytes, recordHeader, hlength]

theorem readRecords_ok {count n : Nat} {bytes : Bytes} {seen ms : List Message}
    (h : readRecords count n bytes seen = .ok ms) :
    ∃ (rs : List RawRecord) (new : List Message), ms = seen.reverse ++ new ∧ rs.length = n ∧
      bytes = (rs.map RawRecord.bytes).flatten ∧ List.Forall₂ Reads rs new := by
  induction n generalizing bytes seen with
  | zero =>
    rcases bytes with _ | ⟨b, bytes⟩ <;> cases h
    exact ⟨[], [], by simp, rfl, rfl, .nil⟩
  | succ n ih =>
    simp only [readRecords] at h
    split at h
    · cases h
    next m rest hm =>
    obtain ⟨r, rfl, hr⟩ := readRecord_ok hm
    obtain ⟨rs, new, rfl, rfl, rfl, hrs⟩ := ih h
    exact ⟨r :: rs, m :: new, by simp, rfl, by simp, .cons hr hrs⟩

/-! ## Frames -/

namespace Framing

variable {f : Framing} {frame : Bytes} {ms : List Message}

theorem decodeHeader_ok {header : FrameHeader} (h : f.decodeHeader frame = .ok header) :
    header.length.toNat ≤ f.limit ∧ ∃ payload, frame = frameHeader header ++ payload := by
  unfold decodeHeader at h
  split at h
  · cases h
  next header' payload hr =>
  split_ifs at h with hl
  cases h
  obtain ⟨x, hx, rfl⟩ := Layout.readAs_ok.1 hr
  obtain ⟨raw, rfl, hw⟩ :=
    (Layout.word32_exact.seq Layout.word16_exact Layout.word32_fixed).read hx
  cases hw
  exact ⟨by omega, payload, rfl⟩

/-- A frame that decodes is the frame of the records that its messages were read from. -/
theorem decode_ok (h : f.decode frame = .ok ms) :
    ∃ rs : List RawRecord, frame = RawRecord.frame rs ∧ List.Forall₂ Reads rs ms ∧
      rs.length ≤ maxBatch ∧ (rs.map RawRecord.bytes).flatten.length ≤ f.limit := by
  unfold decode at h
  split at h
  · cases h
  next header hh =>
  obtain ⟨hlimit, payload, rfl⟩ := decodeHeader_ok hh
  simp only [List.length_append, length_frameHeader] at h
  split_ifs at h with hshort hlong
  rw [List.drop_left' (length_frameHeader header)] at h
  split at h
  · cases h
  next ms' hms =>
  cases h
  obtain ⟨rs, new, rfl, hcount, rfl, hrs⟩ := readRecords_ok hms
  have hlen : (rs.map RawRecord.bytes).flatten.length = header.length.toNat := by omega
  refine ⟨rs, ?_, by simpa using hrs, ?_, hlen ▸ hlimit⟩
  · simp [RawRecord.frame, hlen, hcount]
  · rw [hcount]
    exact Nat.le_of_lt_succ header.count.toNat_lt

/-- What holds of every record that reads holds of all the records of a batch. -/
theorem forall_of_reads {p : RawRecord → Prop} {rs : List RawRecord}
    (h : List.Forall₂ Reads rs ms) (hp : ∀ {r m}, Reads r m → p r) : ∀ r ∈ rs, p r :=
  ((List.forall₂_and_left rs ms).1 (h.imp fun _ _ hr => ⟨hp hr, hr⟩)).1

theorem length_normal_le {rs : List RawRecord} (h : List.Forall₂ Reads rs ms) :
    ((rs.map RawRecord.normal).map RawRecord.bytes).flatten.length ≤
      (rs.map RawRecord.bytes).flatten.length := by
  induction h with
  | nil => exact Nat.le_refl _
  | @cons r _ _ _ hr _ ih =>
    have hl := hr.length_normal
    simp only [List.map_cons, List.flatten_cons, List.length_append, length_bytes]
    omega

/-- What was read from some records is encoded as their normal forms. -/
theorem encode_of_reads {rs : List RawRecord} (h : List.Forall₂ Reads rs ms)
    (hn : rs.length ≤ maxBatch) (hl : (rs.map RawRecord.bytes).flatten.length ≤ f.limit) :
    f.encode ms = .ok (RawRecord.frame (rs.map RawRecord.normal)) := by
  have hrecords : Records ms ((rs.map RawRecord.normal).map RawRecord.bytes) := by
    clear hn hl
    induction h with
    | nil => exact .nil
    | cons hr _ ih => exact .cons hr.writeRecord_ok ih
  have hlen := h.length_eq
  refine encode_ok.2 ⟨by omega, _, hrecords, (length_normal_le h).trans hl, ?_⟩
  simp only [RawRecord.frame, List.length_map, hlen]

theorem regular_of_reads {rs : List RawRecord} (h : List.Forall₂ Reads rs ms) :
    ∀ m ∈ ms, m.payload.Regular := by
  induction h with
  | nil => simp
  | cons hr _ ih => exact List.forall_mem_cons.2 ⟨hr.regular, ih⟩

theorem ofFrame_of_reads {rs : List RawRecord} (h : List.Forall₂ Reads rs ms)
    (hn : rs.length ≤ maxBatch) : ofFrame (RawRecord.frame rs) = rs :=
  ofFrame_frame (forall_of_reads h Reads.length_le) hn

theorem ofFrame_normal {rs : List RawRecord} (h : List.Forall₂ Reads rs ms)
    (hn : rs.length ≤ maxBatch) :
    ofFrame (RawRecord.frame (rs.map RawRecord.normal)) = rs.map RawRecord.normal := by
  refine ofFrame_frame (List.forall_mem_map.2 (forall_of_reads h fun hr => ?_))
    (by rwa [List.length_map])
  have hl := hr.length_normal
  have hle := hr.length_le
  omega

/-- Records are in normal form just if no flag in them is laxer than its writer, and none of them
holds bytes behind the fields of a kind of the catalog. -/
theorem map_normal_eq_iff {rs : List RawRecord} (h : List.Forall₂ Reads rs ms) :
    rs.map RawRecord.normal = rs ↔ ∀ r ∈ rs, r.Settled ∧
      (r.kind ∈ Kind.catalog → schemaVersion < r.version → r.unread = []) := by
  induction h with
  | nil => simp
  | @cons r m _ _ hr _ ih =>
    have hunread : r.unread = [] ↔
        (r.kind ∈ Kind.catalog → schemaVersion < r.version → r.unread = []) := by
      refine ⟨fun hu _ _ => hu, fun hu => ?_⟩
      by_cases hk : r.kind ∈ Kind.catalog
      · by_cases hv : r.version ≤ schemaVersion
        · exact hr.unread_eq hv
        · exact hu hk (UInt16.not_le.1 hv)
      · exact hr.unread_of_notMem hk
    rw [List.map_cons, List.cons.injEq, List.forall_mem_cons, hr.normal_eq_iff, ih, ← hunread]

/-- A batch that was decoded is encoded in a frame that is no longer and decodes to it again: the
frame of the same records in normal form. It is the frame decoded just if each flag there is 0 or 1
and no record of a newer layout holds unread bytes behind the fields of a kind of the catalog. Each
frame is made of its records, and all frames of the batch have the same records in normal form. -/
theorem encode_of_decode (limit : Nat) {frame : Bytes} {batch : List Message}
    (h : (ofLimit limit).decode frame = .ok batch) :
    ∃ normal, (ofLimit limit).encode batch = .ok normal ∧ normal.length ≤ frame.length ∧
      (ofLimit limit).decode normal = .ok batch ∧
      (normal = frame ↔ ∀ r ∈ ofFrame frame, r.Settled ∧
        (r.kind ∈ Kind.catalog → schemaVersion < r.version → r.unread = [])) ∧
      normal = RawRecord.frame ((ofFrame frame).map RawRecord.normal) ∧
      ∀ frame', (ofLimit limit).decode frame' = .ok batch →
        frame' = RawRecord.frame (ofFrame frame') ∧
        (∀ r ∈ ofFrame frame', r.body = r.fields ++ r.unread) ∧
        (ofFrame frame').map RawRecord.normal = (ofFrame frame).map RawRecord.normal := by
  obtain ⟨rs, rfl, hrs, hn, hl⟩ := decode_ok h
  have henc := encode_of_reads hrs hn hl
  obtain ⟨hb, records, hrec, hlen, hnormal⟩ := encode_ok.1 henc
  rw [ofFrame_of_reads hrs hn]
  refine ⟨_, henc, ?_, ?_, ?_, rfl, fun frame' h' => ?_⟩
  · simp only [RawRecord.frame, List.length_append, length_frameHeader]
    exact Nat.add_le_add_left (length_normal_le hrs) _
  · rw [hnormal]
    exact decode_encode hb hrec hlen (regular_of_reads hrs)
  · rw [← map_normal_eq_iff hrs]
    refine ⟨fun he => ?_, fun he => by rw [he]⟩
    rw [← ofFrame_normal hrs hn, he, ofFrame_of_reads hrs hn]
  -- frames of one batch are encoded alike, and what is encoded holds its records in normal form
  · obtain ⟨rs', rfl, hrs', hn', hl'⟩ := decode_ok h'
    have henc' := encode_of_reads hrs' hn' hl'
    rw [henc, Except.ok.injEq] at henc'
    rw [ofFrame_of_reads hrs' hn']
    refine ⟨rfl, forall_of_reads hrs' Reads.body_eq, ?_⟩
    rw [← ofFrame_normal hrs' hn', ← henc', ofFrame_normal hrs hn]

/-- An edge with a flag read from 2, and two bytes behind it that its newer layout explains. -/
theorem encode_of_decode_newer :
    let body : Bytes := [4, 0, 0, 0, 1, 4, 0, 0, 0, 2, 9, 8, 7, 6, 0, 0, 0, 0]
    let layer : Bytes := [1, 0, 0]
    let frame := RawRecord.frame [⟨5, 2, 77, body ++ [2, 0, 0, 0, 5] ++ layer ++ [3, 3]⟩]
    let edge : Edge := ⟨.v4 1, .v4 2, ⟨9, 8, 7, 6⟩, ⟨0⟩, true, 5, true, ""⟩
    (ofLimit 1000).decode frame = .ok [⟨77, 2, .edge edge⟩] ∧
      ∃ normal, (ofLimit 1000).encode [⟨77, 2, .edge edge⟩] = .ok normal ∧ normal ≠ frame ∧
        normal = RawRecord.frame [⟨5, 2, 77, body ++ [1, 0, 0, 0, 5] ++ layer⟩] := by
  intro body layer frame edge
  have h : (ofLimit 1000).decode frame = .ok [⟨77, 2, .edge edge⟩] := by decide +kernel
  obtain ⟨normal, henc, -, -, -, hnormal, -⟩ := encode_of_decode 1000 h
  have he : (ofFrame frame).map RawRecord.normal =
      [⟨5, 2, 77, body ++ [1, 0, 0, 0, 5] ++ layer⟩] := by decide +kernel
  rw [he] at hnormal
  exact ⟨h, normal, henc, by rw [hnormal]; decide +kernel, hnormal⟩

end Framing

end Wire

end EventRelay
