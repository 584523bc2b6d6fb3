import EventRelay.Proofs.NormalForm
import EventRelay.Wire.Reader

/-!
# Where a payload stops decoding

A payload is decoded record by record, and each record is read as it would be alone: reading it
takes its own bytes and looks at none behind them. So a payload is what its first record yields,
before what the bytes behind that record yield as a payload of one message less. A payload that does
not decode is cut in two where it fails. What is in front of the cut decodes to the messages that
are kept, and what is behind it is at fault: no record is read from it, or there are bytes left when
all messages have been read.
-/

namespace EventRelay.Wire

/-! ## One record -/

namespace RawRecord

variable {r : RawRecord} {m : Message}

/-- The message in a record, or what is wrong with the body. -/
def read (r : RawRecord) : Except WireError Message :=
  match readBody r.kind r.version r.body with
  | .error flaw => .error (.malformed r.kind flaw)
  | .ok payload => .ok ⟨r.timestamp, r.version, payload⟩

/-- A record is read as it is alone, whatever follows it. -/
theorem readRecord_bytes (h : r.body.length ≤ maxWord32) (rest : Bytes) :
    readRecord (r.bytes ++ rest) = r.read.map (·, rest) := by
  have header := readRecordHeader_append r.tag r.version r.timestamp r.body.length.toUInt32
  simp only [readRecord, bytes, List.append_assoc, header, toNat_toUInt32 h,
    Layout.take?_append rfl, read, kind]
  rcases readBody (Kind.ofTag r.tag) r.version r.body with flaw | payload <;> rfl

theorem Reads.read (h : r.Reads m) : r.read = .ok m := by
  have payload : readBody r.kind r.version r.body = .ok m.payload :=
    readBody_ok.2 ⟨r.unread, h.fields_ok, h.unread_eq⟩
  rw [RawRecord.read, payload, ← h.version_eq, ← h.timestamp_eq]

end RawRecord

/-- A record that is read is read so whatever follows its bytes. -/
theorem readRecord_local {bytes rest : Bytes} {m : Message}
    (h : readRecord bytes = .ok (m, rest)) : ∃ record, bytes = record ++ rest ∧
      ∀ later, readRecord (record ++ later) = .ok (m, later) := by
  obtain ⟨r, rfl, hr⟩ := readRecord_ok h
  refine ⟨r.bytes, rfl, fun later => ?_⟩
  rw [RawRecord.readRecord_bytes hr.length_le, hr.read]
  rfl

/-! ## Record by record -/

/-- What a payload yields with some messages in front of it. -/
def behind (front : List Message) : Decoded → Decoded
  | .ok ms => .ok (front ++ ms)
  | .error e =>
    .error ⟨front ++ e.decoded, front.length + e.index, front.length + e.count, e.source⟩

theorem behind_behind (front front' : List Message) (result : Decoded) :
    behind front (behind front' result) = behind (front ++ front') result := by
  cases result <;> simp [behind, Nat.add_assoc]

theorem readRecords_seen (n : Nat) (bytes : Bytes) (seen : List Message) :
    readRecords (seen.length + n) n bytes seen =
      behind seen.reverse (readRecords n n bytes []) := by
  induction n generalizing bytes seen with
  | zero => cases bytes <;> simp [readRecords, behind]
  | succ n ih =>
    simp only [readRecords]
    rcases readRecord bytes with e | ⟨m, rest⟩
    · simp [behind]
    · have here := ih rest (m :: seen)
      have first := ih rest [m]
      rw [List.length_cons, Nat.add_right_comm, Nat.add_assoc] at here
      rw [List.length_singleton, Nat.add_comm] at first
      simp only [here, first, behind_behind, List.reverse_cons, List.reverse_nil, List.nil_append]

/-- The first record is read, and what is behind it is a payload of one message less. -/
theorem readRecords_succ (n : Nat) (bytes : Bytes) : readRecords (n + 1) (n + 1) bytes [] =
    match readRecord bytes with
    | .error e => .error ⟨[], 0, n + 1, e⟩
    | .ok (m, rest) => behind [m] (readRecords n n rest []) := by
  rw [readRecords]
  rcases readRecord bytes with e | ⟨m, rest⟩
  · simp
  · have first := readRecords_seen n rest [m]
    rwa [List.length_singleton, Nat.add_comm] at first

/-! ## The cut -/

/-- A payload that decodes is records that are read alone as its messages. -/
theorem readRecords_alone {n : Nat} {bytes : Bytes} {ms : List Message}
    (h : readRecords n n bytes [] = .ok ms) : ms.length = n ∧
      ∃ records : List Bytes, bytes = records.flatten ∧
        List.Forall₂ (fun record m => readRecord record = .ok (m, [])) records ms := by
  obtain ⟨rs, new, rfl, rfl, rfl, reads⟩ := readRecords_ok h
  refine ⟨reads.length_eq.symm, rs.map RawRecord.bytes, rfl, ?_⟩
  refine List.forall₂_map_left_iff.2 (reads.imp fun r m hr => ?_)
  have alone := RawRecord.readRecord_bytes hr.length_le []
  rwa [List.append_nil, hr.read] at alone

/-- A failure tells where a payload of `n` messages is cut: the bytes in front are what is kept, and
the bytes behind are at fault. -/
structure PartialDecode.Cuts (e : PartialDecode) (n : Nat) (bytes : Bytes) : Prop where
  count_eq : e.count = n
  index_eq : e.index = e.decoded.length
  cut : ∃ front rest, bytes = front ++ rest ∧
    readRecords e.index e.index front [] = .ok e.decoded ∧
    (e.index < n ∧ readRecord rest = .error e.source ∨
      e.index = n ∧ rest ≠ [] ∧ e.source = .trailingBytes rest.length)

theorem PartialDecode.Cuts.index_le {e : PartialDecode} {n : Nat} {bytes : Bytes}
    (h : e.Cuts n bytes) : e.index ≤ n := by
  obtain ⟨-, -, -, -, ⟨before, -⟩ | ⟨after, -⟩⟩ := h.cut
  · exact Nat.le_of_lt before
  · exact Nat.le_of_eq after

/-- The records read before the failing one stay in front of the cut. -/
theorem readRecords_cuts {n : Nat} {bytes : Bytes} {e : PartialDecode}
    (h : readRecords n n bytes [] = .error e) : e.Cuts n bytes := by
  induction n generalizing bytes e with
  | zero =>
    cases bytes with
    | nil => cases h
    | cons b bytes =>
      cases h
      exact ⟨rfl, rfl, [], b :: bytes, rfl, rfl, .inr ⟨rfl, by simp, rfl⟩⟩
  | succ n ih =>
    rw [readRecords_succ] at h
    split at h
    · next source hsource =>
      cases h
      exact ⟨rfl, rfl, [], bytes, rfl, rfl, .inl ⟨Nat.zero_lt_succ n, hsource⟩⟩
    · next m rest hm =>
      rcases hrest : readRecords n n rest [] with e' | ms <;> rw [hrest] at h <;> cases h
      obtain ⟨record, rfl, alone⟩ := readRecord_local hm
      obtain ⟨count, index, front, back, rfl, kept, fault⟩ := ih hrest
      refine ⟨?count, ?index, record ++ front, back, ?whole, ?kept, ?fault⟩
      case count => simp [count, Nat.add_comm]
      case index => simp [index, Nat.add_comm]
      case whole => rw [List.append_assoc]
      case kept =>
        simp only [List.length_singleton, Nat.add_comm 1, readRecords_succ, alone, kept, behind]
      case fault =>
        simp only [List.length_singleton, Nat.add_comm 1, Nat.add_lt_add_iff_right,
          Nat.add_right_cancel_iff]
        exact fault

/-- A payload either yields all messages that it announces, and then its bytes are as many records,
each read alone as its message; or it fails at some place. Then the messages kept are those before
the place, and the payload is cut there into bytes that decode to just these messages and bytes at
fault: no record is read from them, for the reason reported, or all messages have been read before,
and the bytes left are reported as such. -/
theorem decodePayload_all_or_cut (bytes : Bytes) (count : UInt16) :
    (∃ ms, decodePayload bytes count = .ok ms ∧ ms.length = count.toNat ∧
      ∃ records : List Bytes, bytes = records.flatten ∧ List.Forall₂ (fun record m =>
        readRecord record = .ok (m, []) ∧ decodePayload record 1 = .ok [m]) records ms) ∨
    ∃ e, decodePayload bytes count = .error e ∧ e.count = count.toNat ∧
      e.index = e.decoded.length ∧ e.index ≤ count.toNat ∧
      ∃ front rest, bytes = front ++ rest ∧
        decodePayload front e.index.toUInt16 = .ok e.decoded ∧
        (e.index < count.toNat ∧ readRecord rest = .error e.source ∨
          e.index = count.toNat ∧ rest ≠ [] ∧ e.source = .trailingBytes rest.length) := by
  rcases h : readRecords count.toNat count.toNat bytes [] with e | ms
  · right
    have cuts := readRecords_cuts h
    obtain ⟨front, rest, whole, kept, fault⟩ := cuts.cut
    have fits : e.index.toUInt16.toNat = e.index :=
      Framing.toNat_toUInt16 (Nat.le_trans cuts.index_le (Nat.le_of_lt_succ count.toNat_lt))
    refine ⟨e, h, cuts.count_eq, cuts.index_eq, cuts.index_le, front, rest, whole, ?_, fault⟩
    rwa [decodePayload, fits]
  · left
    obtain ⟨length, records, whole, alone⟩ := readRecords_alone h
    refine ⟨ms, h, length, records, whole, alone.imp fun record m hm => ⟨hm, ?_⟩⟩
    have one := readRecords_succ 0 record
    rw [hm] at one
    exact one

end EventRelay.Wire
