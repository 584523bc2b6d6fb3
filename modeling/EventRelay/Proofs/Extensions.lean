import EventRelay.Proofs.Boundaries
import EventRelay.Proofs.Delimited
import EventRelay.Proofs.Faults

/-!
# Records that an older reader does not know

Each record of a payload is read on its own, and what is behind it depends only on whether it could
be read. So whoever writes a newer layout may add fields behind those that are known, and records of
tags that are not, and all other records still decode as they did.
-/

namespace EventRelay.Wire

/-! ## What a record adds to a payload -/

/-- The messages that are decoded, all or those in front of the fault. -/
def decodedOf : Decoded → List Message
  | .ok ms => ms
  | .error e => e.decoded

/-- What is decoded when one more record, read as `m`, stands behind the first `k`. -/
def insertAt (k : Nat) (m : Message) : Decoded → Decoded
  | .ok ms => .ok (ms.insertIdx k m)
  | .error e =>
    if e.index < k then .error { e with count := e.count + 1 }
    else .error ⟨e.decoded.insertIdx k m, e.index + 1, e.count + 1, e.source⟩

/-- What is decoded when the record behind the first `k` is read as `m`. -/
def replaceAt (k : Nat) (m : Message) : Decoded → Decoded
  | .ok ms => .ok (ms.set k m)
  | .error e => .error { e with decoded := e.decoded.set k m }

namespace RawRecord

/-- What a record yields in front of a payload of `n` messages. -/
def before (r : RawRecord) (n : Nat) (result : Decoded) : Decoded :=
  match r.read with
  | .error e => .error ⟨[], 0, n + 1, e⟩
  | .ok m => behind [m] result

/-- What records yield in front of a payload of `n` messages. -/
def allBefore : List RawRecord → Nat → Decoded → Decoded
  | [], _, result => result
  | r :: rs, n, result => r.before (rs.length + n) (allBefore rs n result)

variable {r : RawRecord} {rs : List RawRecord} {m : Message} {n : Nat} {result : Decoded}

theorem before_ok (h : r.read = .ok m) : r.before n result = behind [m] result := by
  rw [before, h]

theorem before_error {e : WireError} (h : r.read = .error e) :
    r.before n result = .error ⟨[], 0, n + 1, e⟩ := by
  rw [before, h]

/-- All that the records in front of a payload do to it is done by each on its own. -/
theorem readRecords_allBefore (fits : ∀ r ∈ rs, r.body.length ≤ maxWord32) (n : Nat)
    (rest : Bytes) :
    readRecords (rs.length + n) (rs.length + n) ((rs.map RawRecord.bytes).flatten ++ rest) [] =
      allBefore rs n (readRecords n n rest []) := by
  induction rs with
  | nil => simp [allBefore]
  | cons r rs ih =>
    have later := ih fun x hx => fits x (List.mem_cons_of_mem r hx)
    simp only [List.length_cons, Nat.add_right_comm _ 1, List.map_cons, List.flatten_cons,
      List.append_assoc, readRecords_succ, readRecord_bytes (fits r List.mem_cons_self),
      allBefore, before]
    rcases r.read with e | m
    · rfl
    · exact congrArg (behind [m]) later

/-- Nothing that follows some records changes what is decoded of them. -/
theorem take_allBefore (rs : List RawRecord) (n : Nat) (result result' : Decoded) :
    (decodedOf (allBefore rs n result)).take rs.length =
      (decodedOf (allBefore rs n result')).take rs.length := by
  induction rs with
  | nil => rfl
  | cons r rs ih =>
    rcases h : r.read with e | m
    · simp only [allBefore, before_error h]
    · simp only [allBefore, before_ok h, List.length_cons]
      revert ih
      rcases allBefore rs n result with e | ms <;> rcases allBefore rs n result' with e' | ms' <;>
        exact fun ih => congrArg (m :: ·) ih

theorem insertAt_zero (m : Message) (result : Decoded) :
    insertAt 0 m result = behind [m] result := by
  rcases result with e | ms
  · simp only [insertAt, Nat.not_lt_zero, if_false, List.insertIdx_zero, behind,
      List.singleton_append, List.length_singleton, Nat.add_comm 1]
  · rfl

theorem insertAt_before (k : Nat) (m : Message) :
    insertAt (k + 1) m (r.before n result) = r.before (n + 1) (insertAt k m result) := by
  rcases h : r.read with e | first
  · simp [before_error h, insertAt]
  · rw [before_ok h, before_ok h]
    rcases result with e | ms
    · simp only [behind, insertAt, List.length_singleton, Nat.add_comm 1,
        Nat.add_lt_add_iff_right]
      split_ifs
      · rfl
      · simp [Nat.add_comm]
    · rfl

theorem insertAt_allBefore (m : Message) :
    insertAt rs.length m (allBefore rs n result) = allBefore rs (n + 1) (behind [m] result) := by
  induction rs with
  | nil => exact insertAt_zero m result
  | cons r rs ih => rw [allBefore, List.length_cons, insertAt_before, ih, allBefore, Nat.add_assoc]

theorem replaceAt_before (k : Nat) (m : Message) :
    replaceAt (k + 1) m (r.before n result) = r.before n (replaceAt k m result) := by
  rcases h : r.read with e | first
  · rw [before_error h, before_error h]
    rfl
  · rw [before_ok h, before_ok h]
    rcases result with e | ms <;> rfl

theorem replaceAt_allBefore (first m : Message) :
    replaceAt rs.length m (allBefore rs n (behind [first] result)) =
      allBefore rs n (behind [m] result) := by
  induction rs with
  | nil => rcases result with e | ms <;> rfl
  | cons r rs ih => rw [allBefore, List.length_cons, replaceAt_before, ih, allBefore]

/-! ## Newer records -/

/-- The record with more bytes behind its body. -/
def lengthen (r : RawRecord) (more : Bytes) : RawRecord := { r with body := r.body ++ more }

/-- A record of an unknown tag is read as its bytes, whatever they are. -/
theorem read_unknown (unknown : r.kind ∉ Kind.catalog) :
    r.read = .ok ⟨r.timestamp, r.version, .unknown r.tag r.body⟩ := by
  have kind : r.kind = .unknown r.tag := by
    have tag := Kind.tag_ofTag r.tag
    rw [RawRecord.kind] at unknown ⊢
    rcases h : Kind.ofTag r.tag <;> rw [h] at unknown tag
    case unknown => rw [← tag, Kind.tag]
    all_goals exact absurd (by decide) unknown
  simp [read, readBody, kind, readFields]

/-- Bytes behind the fields of a newer layout are passed over. -/
theorem read_lengthen (known : r.kind ∈ Kind.catalog) (newer : schemaVersion < r.version)
    (h : r.read = .ok m) (more : Bytes) : (r.lengthen more).read = .ok m := by
  rw [read] at h
  split at h
  · cases h
  next payload hp =>
  cases h
  obtain ⟨rest, fields, -⟩ := readBody_ok.1 hp
  obtain ⟨front, whole, takes⟩ := (readFields_delimited known).takes fields
  have longer := takes.append (rest ++ more)
  rw [← List.append_assoc, ← whole] at longer
  have body : readBody r.kind r.version (r.body ++ more) = .ok payload :=
    readBody_ok.2 ⟨rest ++ more, longer, fun current => absurd newer (UInt16.not_lt.2 current)⟩
  simp only [read, lengthen, kind] at body ⊢
  rw [body]

end RawRecord

open RawRecord

/-! ## Payloads and frames -/

/-- The records, one after the other. -/
def RawRecord.joined (rs : List RawRecord) : Bytes := (rs.map RawRecord.bytes).flatten

/-- What bytes more in a newer record do to a payload. -/
structure Grows (ahead : List RawRecord) (r : RawRecord) (more rest : Bytes) (count : UInt16) :
    Prop where
  known : r.kind ∈ Kind.catalog → ∀ m, r.read = .ok m →
    decodePayload (joined ahead ++ ((r.lengthen more).bytes ++ rest)) count =
      decodePayload (joined ahead ++ (r.bytes ++ rest)) count
  unknown : r.kind ∉ Kind.catalog →
    decodePayload (joined ahead ++ ((r.lengthen more).bytes ++ rest)) count =
      replaceAt ahead.length ⟨r.timestamp, r.version, .unknown r.tag (r.body ++ more)⟩
        (decodePayload (joined ahead ++ (r.bytes ++ rest)) count)
  ahead : (decodedOf (decodePayload (joined ahead ++ ((r.lengthen more).bytes ++ rest)) count)).take
      ahead.length =
    (decodedOf (decodePayload (joined ahead ++ (r.bytes ++ rest)) count)).take ahead.length

section Payloads

variable {ahead : List RawRecord} {r : RawRecord} {count count' : UInt16}

/-- A payload is what the records in front yield with the payload behind them. -/
theorem decodePayload_joined (fits : ∀ r ∈ ahead, r.body.length ≤ maxWord32)
    (counts : count'.toNat = ahead.length + count.toNat) (rest : Bytes) :
    decodePayload (joined ahead ++ rest) count' =
      allBefore ahead count.toNat (decodePayload rest count) := by
  rw [decodePayload, counts, joined, readRecords_allBefore fits, decodePayload]

/-- The record behind some others does to a payload what it yields alone. -/
theorem decodePayload_at (fits : ∀ r ∈ ahead, r.body.length ≤ maxWord32)
    (hr : r.body.length ≤ maxWord32) {n : Nat} (counts : count.toNat = ahead.length + (n + 1))
    (rest : Bytes) : decodePayload (joined ahead ++ (r.bytes ++ rest)) count =
      allBefore ahead (n + 1) (r.before n (readRecords n n rest [])) := by
  have alone : ∀ x ∈ [r], x.body.length ≤ maxWord32 := List.forall_mem_singleton.2 hr
  have one := readRecords_allBefore alone n rest
  simp only [List.length_singleton, Nat.add_comm 1, List.map_cons, List.map_nil,
    List.flatten_singleton, allBefore, List.length_nil, Nat.zero_add] at one
  rw [decodePayload, counts, joined, readRecords_allBefore fits, one]

/-- Records that are read alike are alike to all others. -/
theorem decodePayload_congr (fits : ∀ r ∈ ahead, r.body.length ≤ maxWord32) {r' : RawRecord}
    (hr : r.body.length ≤ maxWord32) (hr' : r'.body.length ≤ maxWord32)
    (within : ahead.length < count.toNat) (same : r'.read = r.read) (rest : Bytes) :
    decodePayload (joined ahead ++ (r'.bytes ++ rest)) count =
      decodePayload (joined ahead ++ (r.bytes ++ rest)) count := by
  obtain ⟨n, counts⟩ := Nat.exists_eq_add_of_lt within
  rw [decodePayload_at fits hr counts, decodePayload_at fits hr' counts, before, before, same]

/-- Bytes more in a newer record change its own message at most. -/
theorem grows {more : Bytes} (fits : ∀ r ∈ ahead, r.body.length ≤ maxWord32)
    (longer : (r.lengthen more).body.length ≤ maxWord32) (within : ahead.length < count.toNat)
    (newer : schemaVersion < r.version) (rest : Bytes) : Grows ahead r more rest count := by
  have shorter : r.body.length ≤ maxWord32 :=
    Nat.le_trans (List.prefix_append r.body more).length_le longer
  obtain ⟨n, counts⟩ := Nat.exists_eq_add_of_lt within
  refine ⟨fun known m hm => ?known, fun unknown => ?unknown, ?ahead⟩
  case known =>
    refine decodePayload_congr fits shorter longer within ?_ rest
    rw [read_lengthen known newer hm, hm]
  case unknown =>
    have unknown' : (r.lengthen more).kind ∉ Kind.catalog := unknown
    rw [decodePayload_at fits longer counts, decodePayload_at fits shorter counts,
      before_ok (read_unknown unknown), before_ok (read_unknown unknown'), replaceAt_allBefore]
    rfl
  case ahead =>
    rw [decodePayload_at fits longer counts, decodePayload_at fits shorter counts]
    exact take_allBefore ahead (n + 1) _ _

/-- A record of an unknown tag adds its own message and nothing else. -/
theorem decodePayload_insert (fits : ∀ r ∈ ahead, r.body.length ≤ maxWord32)
    (hr : r.body.length ≤ maxWord32) (unknown : r.kind ∉ Kind.catalog)
    (within : ahead.length ≤ count.toNat) (counts : count'.toNat = count.toNat + 1)
    (rest : Bytes) :
    decodePayload (joined ahead ++ (r.bytes ++ rest)) count' =
      insertAt ahead.length ⟨r.timestamp, r.version, .unknown r.tag r.body⟩
        (decodePayload (joined ahead ++ rest) count) := by
  obtain ⟨n, hn⟩ := Nat.exists_eq_add_of_le within
  rw [decodePayload_at fits hr (n := n) (by omega), before_ok (read_unknown unknown),
    decodePayload, hn, joined, readRecords_allBefore fits, insertAt_allBefore]

end Payloads

/-- A body that a known kind accepts in the current layout tells where it ends: more bytes are
reported as unread in the current layout and passed over in a newer one, and fewer are truncated in
every layout.

So each record of a payload decodes on its own. Bytes more in a newer record leave what is decoded
as it was, but for the record's own message if it is of an unknown tag; also where the record did
not read, all in front of it stays. A record of an unknown tag adds its own message, wherever it
stands, and moves the place of a fault behind it by one. A whole frame is decoded as its payload. -/
theorem known_bodies_end_and_extend (limit : Nat) :
    (∀ kind ∈ Kind.catalog, ∀ version ≤ schemaVersion, ∀ body payload,
      readBody kind version body = .ok payload → EndsItself kind body payload) ∧
    (∀ (ahead : List RawRecord) (rest : Bytes) (count count' : UInt16),
      (∀ r ∈ ahead, r.body.length ≤ maxWord32) → count'.toNat = ahead.length + count.toNat →
      decodePayload (joined ahead ++ rest) count' =
        allBefore ahead count.toNat (decodePayload rest count)) ∧
    (∀ (ahead : List RawRecord) (r : RawRecord) (more rest : Bytes) (count : UInt16),
      (∀ r ∈ ahead, r.body.length ≤ maxWord32) → (r.lengthen more).body.length ≤ maxWord32 →
      ahead.length < count.toNat → schemaVersion < r.version →
      Grows ahead r more rest count) ∧
    (∀ (ahead : List RawRecord) (r : RawRecord) (rest : Bytes) (count count' : UInt16),
      (∀ r ∈ ahead, r.body.length ≤ maxWord32) → r.body.length ≤ maxWord32 →
      r.kind ∉ Kind.catalog → ahead.length ≤ count.toNat → count'.toNat = count.toNat + 1 →
      decodePayload (joined ahead ++ (r.bytes ++ rest)) count' =
        insertAt ahead.length ⟨r.timestamp, r.version, .unknown r.tag r.body⟩
          (decodePayload (joined ahead ++ rest) count)) ∧
    ∀ frame : RawFrame, frame.Whole (Framing.ofLimit limit) →
      (Framing.ofLimit limit).decode frame.bytes =
        (decodePayload frame.payload frame.header.count).mapError PartialDecode.toError :=
  ⟨fun _ known _ current _ _ h => endsItself_of_readBody known current h,
    fun _ rest _ _ fits counts => decodePayload_joined fits counts rest,
    fun _ _ _ rest _ fits longer within newer => grows fits longer within newer rest,
    fun _ _ rest _ _ fits hr unknown within counts =>
      decodePayload_insert fits hr unknown within counts rest,
    fun _ whole => Framing.decode_bytes whole⟩

/-- Two bytes more in a newer status, and a record of an unknown tag in front of it. -/
theorem known_bodies_end_and_extend_status :
    let hello : RawRecord := ⟨28, 1, 5, [0, 1]⟩
    let status : RawRecord := ⟨1, 2, 6, [0]⟩
    let unknown : RawRecord := ⟨4242, 9, 7, [1, 2, 3]⟩
    let greeted : Message := ⟨5, 1, .hello 1⟩
    let fine : Message := ⟨6, 2, .status .ok⟩
    let frame : RawFrame := ⟨⟨54, 3⟩, joined [hello, unknown, status]⟩
    EndsItself .hello [0, 1] (.hello 1) ∧
      decodePayload (joined [hello, status]) 2 = .ok [greeted, fine] ∧
      decodePayload (joined [hello, status.lengthen [8, 8]]) 2 = .ok [greeted, fine] ∧
      (Framing.ofLimit 1000).decode frame.bytes =
        .ok [greeted, ⟨7, 9, .unknown 4242 [1, 2, 3]⟩, fine] := by
  intro hello status unknown greeted fine frame
  obtain ⟨ends, alone, grows, insert, whole⟩ := known_bodies_end_and_extend 1000
  have two : decodePayload (joined [hello, status]) 2 = .ok [greeted, fine] := by
    have single : decodePayload status.bytes 1 = .ok [fine] := by decide +kernel
    have first := alone [hello] status.bytes 1 2 (by decide) (by decide)
    rwa [single] at first
  have longer := (grows [hello] status [8, 8] [] 2 (by decide) (by decide) (by decide)
    (by decide)).known (by decide) fine (by decide)
  have more := insert [hello] unknown status.bytes 2 3 (by decide) (by decide) (by decide)
    (by decide) (by decide)
  have framed := whole frame ⟨by decide, by decide⟩
  refine ⟨ends .hello (by decide) 1 (by decide) _ _ (by decide), two, longer.trans two, ?_⟩
  rw [framed]
  exact congrArg _ (more.trans (congrArg _ two))

end EventRelay.Wire
