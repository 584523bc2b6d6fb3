import EventRelay.Proofs.Slices

/-!
# What is left of a dropped batch

A batch of which a message cannot be encoded is reported as dropped, but the frames written before
the failure stay. How much that is depends on the fault. A field that is too long shows as soon as
its message is written, before the frame is complete; so nothing is left of a batch that fits into
the count of one frame. A message that is too large by itself only shows when the batch has been
halved down to it, and by then all that precedes it is out. Other batches are never touched.
-/

namespace EventRelay.Wire

/-- Where one record cannot be written, what follows is not looked at. -/
theorem writeRecords_append_error {e : WireError} (more : List Message) :
    ∀ {batch : List Message} {written : List Bytes}, writeRecords batch written = .error e →
      writeRecords (batch ++ more) written = .error e
  | [], _, h => by cases h
  | m :: batch, written, h => by
    rw [List.cons_append]
    rw [writeRecords] at h ⊢
    rcases hm : writeRecord m with e' | record <;> rw [hm] at h
    · exact h
    · exact writeRecords_append_error more h

theorem writeRecord_error {m : Message} {e : WireError} (h : writeRecord m = .error e) :
    (∃ size max, e = .frameTooLarge size max) ∨ ∃ field, e = .fieldTooLong field := by
  unfold writeRecord at h
  split at h
  · cases h
    exact .inr ⟨_, rfl⟩
  · dsimp only at h
    split_ifs at h
    cases h
    exact .inl ⟨_, _, rfl⟩

/-- Nothing is written of two parts just if nothing is of the first, for a first part that goes out
whole leaves something. -/
theorem Frames.written_andThen_eq_nil {first second : Frames}
    (some : first.failure = none → first.written ≠ []) :
    (first.andThen fun _ => second).written = [] ↔ first.written = [] := by
  rcases hfail : first.failure with _ | e
  · simp [Frames.andThen, hfail, some hfail]
  · simp [Frames.andThen, hfail]

namespace Framing

variable {f : Framing} {batch : List Message}

/-- A batch that can be counted fails for a field just if its records do. -/
theorem encode_fieldTooLong_iff (hcount : batch.length ≤ maxBatch) {field : Overlong} :
    f.encode batch = .error (.fieldTooLong field) ↔
      writeRecords batch [] = .error (.fieldTooLong field) := by
  rw [encode, if_neg (Nat.not_lt.2 hcount)]
  rcases writeRecords batch [] with e | payload
  · rfl
  · dsimp only
    split_ifs <;> simp

/-- A batch that can be counted is refused for a size or for a field. -/
theorem encode_error_cases (hcount : batch.length ≤ maxBatch) {e : WireError}
    (h : f.encode batch = .error e) :
    (∃ size max, e = .frameTooLarge size max) ∨ ∃ field, e = .fieldTooLong field := by
  rw [encode, if_neg (Nat.not_lt.2 hcount)] at h
  rcases hw : writeRecords batch [] with e' | payload <;> rw [hw] at h
  · cases h
    obtain ⟨m, -, he⟩ := writeRecords_error hw
    exact writeRecord_error he
  · dsimp only at h
    split_ifs at h
    cases h
    exact .inl ⟨_, _, rfl⟩

/-- All of a batch is only written with at least one frame. -/
theorem written_ne_nil (some : batch ≠ []) (written : (f.frames batch).failure = none) :
    (f.frames batch).written ≠ [] := by
  obtain ⟨slices, rest, split, encodes, ending⟩ := frames_sliced f batch
  rw [written] at ending
  obtain rfl : rest = [] := ending
  intro none
  rw [none] at encodes
  cases encodes
  exact some split.symm

/-- The batch fails before a frame of it is complete: its first message has no frame of its own, or
a field is too long among the messages that one frame can hold. -/
def Blocked (f : Framing) (batch : List Message) : Prop :=
  (∃ e, f.encode (batch.take 1) = .error e) ∨
    ∃ field, f.encode (batch.take maxBatch) = .error (.fieldTooLong field)

theorem blocked_take {n : Nat} (pos : 0 < n) (le : n ≤ maxBatch)
    (fields : ∀ field, f.encode (batch.take n) = .error (.fieldTooLong field) ↔
      f.encode (batch.take maxBatch) = .error (.fieldTooLong field)) :
    f.Blocked (batch.take n) ↔ f.Blocked batch := by
  rw [Blocked, Blocked, List.take_take, List.take_take, Nat.min_eq_left pos, Nat.min_eq_right le]
  simp only [fields]

/-- Nothing is written of a batch just if it fails before its first frame is complete. -/
theorem written_eq_nil_iff (some : batch ≠ []) :
    (f.frames batch).written = [] ↔ f.Blocked batch := by
  have pos := List.length_pos_of_ne_nil some
  fun_induction frames f batch with
  | case1 batch hlong ihtake ihdrop =>
    have htake : batch.take maxBatch ≠ [] := by simp [maxBatch, some]
    refine (Frames.written_andThen_eq_nil (written_ne_nil htake)).trans
      ((ihtake htake (List.length_pos_of_ne_nil htake)).trans ?_)
    exact blocked_take (by decide) (Nat.le_refl _) fun field => Iff.rfl
  | case2 batch hshort frame hframe =>
    have hcount := Nat.not_lt.1 hshort
    refine iff_of_false (List.cons_ne_nil _ _) ?_
    rintro (⟨e, he⟩ | ⟨field, hfield⟩)
    · obtain ⟨m, rest, rfl⟩ := List.exists_cons_of_ne_nil some
      obtain ⟨own, hown⟩ := Apart.of_encode hframe m List.mem_cons_self
      simp [hown] at he
    · rw [List.take_of_length_le hcount, hframe] at hfield
      cases hfield
  | case3 batch hshort size max hlarge hmany ihtake ihdrop =>
    have hcount := Nat.not_lt.1 hshort
    have hhalf : 0 < batch.length / 2 := by omega
    have htake : batch.take (batch.length / 2) ≠ [] := by
      simp only [ne_eq, List.take_eq_nil_iff, some, or_false]
      omega
    refine (Frames.written_andThen_eq_nil (written_ne_nil htake)).trans
      ((ihtake htake (List.length_pos_of_ne_nil htake)).trans ?_)
    refine blocked_take hhalf (by omega) fun field => iff_of_false (fun hfield => ?_) ?_
    · -- the fault would have shown in the whole batch already
      rw [encode_fieldTooLong_iff (by rw [List.length_take]; omega)] at hfield
      have whole := writeRecords_append_error (batch.drop (batch.length / 2)) hfield
      rw [List.take_append_drop, ← encode_fieldTooLong_iff (f := f) hcount, hlarge] at whole
      cases whole
    · rw [List.take_of_length_le hcount, hlarge]
      exact fun same => by cases same
  | case4 batch hshort size max hlarge hfew =>
    refine iff_of_true rfl (.inl ⟨.frameTooLarge size max, ?_⟩)
    rwa [List.take_of_length_le (Nat.not_lt.1 hfew)]
  | case5 batch hshort e hother herror =>
    have hcount := Nat.not_lt.1 hshort
    refine iff_of_true rfl (.inr ?_)
    rw [List.take_of_length_le hcount]
    rcases encode_error_cases hcount herror with ⟨size, max, rfl⟩ | ⟨field, rfl⟩
    · exact absurd rfl (hother _ _)
    · exact ⟨field, herror⟩

theorem encodeInto_of_failure {e : WireError} (h : (f.frames batch).failure = some e)
    (out : Bytes) : (f.encodeInto batch out).2 = .error e := by
  rw [encodeInto, h]

/-- A frame has at least its header. -/
theorem Encodes.flatten_eq_nil_iff {parts : List (List Message)} {frames : List Bytes}
    (h : f.Encodes parts frames) : frames.flatten = [] ↔ frames = [] := by
  cases h with
  | nil => simp
  | @cons part frame parts frames hpart _ =>
    obtain ⟨-, records, -, -, rfl⟩ := encode_ok.1 hpart
    have header := length_frameHeader ⟨records.flatten.length.toUInt32, part.length.toUInt16⟩
    refine iff_of_false (fun none => ?_) (List.cons_ne_nil _ _)
    have none := congrArg List.length none
    simp only [List.flatten_cons, List.length_append, header, headerSize, List.length_nil] at none
    omega

end Framing

/-- Batches are encoded one behind the other. -/
theorem writeFrames_eq_foldl (f : Framing) (batches : List (List Message)) :
    writeFrames f batches =
      (batches.filter (!·.isEmpty)).foldl (fun out batch => (f.encodeInto batch out).1) [] := by
  simp only [Framing.encodeInto, List.foldl_append_eq_append, List.nil_append]
  rfl

/-- The batches that are not empty are encoded one behind the other, and what each adds is what it
is encoded as by itself, whatever becomes of the others. All of a batch that can be encoded is
written. Of one that cannot, the frames of a strict prefix are, and the error is the one of a
message behind it alone. Nothing is left of the batch just if its first message has no frame of its
own, or a field is too long among as many messages as one frame can hold. -/
theorem Sink.leaves_prefix (limit : Nat) {s : Sink} (taking : s.failure = none)
    (batches : List (List Message)) :
    let f := Framing.ofLimit limit
    let queued := batches.filter (!·.isEmpty)
    let written := queued.foldl (fun out batch => (f.encodeInto batch out).1) []
    s.writeFrames f batches = ({ s with bytes := s.bytes ++ written }, .ok written.length) ∧
    written = (queued.map fun batch => (f.encodeInto batch []).1).flatten ∧
    ∀ batch ∈ batches, batch ≠ [] → ∃ slices rest frames, slices.flatten ++ rest = batch ∧
      f.Encodes slices frames ∧ (f.encodeInto batch []).1 = frames.flatten ∧
      match (f.encodeInto batch []).2 with
      | .ok n => n = frames.length ∧ rest = []
      | .error e => (∃ m ∈ rest, f.encode [m] = .error e) ∧
        ((f.encodeInto batch []).1 = [] ↔ (∃ e, f.encode (batch.take 1) = .error e) ∨
          ∃ field, f.encode (batch.take 65535) = .error (.fieldTooLong field)) := by
  intro f queued written
  have whole : written = Wire.writeFrames f batches := (writeFrames_eq_foldl f batches).symm
  refine ⟨?_, ?_, fun batch _ some => ?_⟩
  · rw [whole]
    exact writeFrames_eq taking batches
  · rw [whole]
    rfl
  · obtain ⟨slices, rest, split, encodes, ending⟩ := Framing.frames_sliced f batch
    refine ⟨slices, rest, (f.frames batch).written, split, encodes, rfl, ?_⟩
    rw [Framing.encodeInto]
    rcases hfail : (f.frames batch).failure with _ | e <;> rw [hfail] at ending
    · exact ⟨rfl, ending⟩
    · refine ⟨ending, ?_⟩
      rw [List.nil_append, encodes.flatten_eq_nil_iff]
      exact Framing.written_eq_nil_iff some

/-- Within twenty bytes a seek has no frame. Behind another message it leaves that one written, and
in front of it nothing. -/
theorem Sink.leaves_prefix_either_way :
    let f := Framing.ofLimit 20
    let ack : Message := ⟨1, 1, .status .ack⟩
    let seek : Message := ⟨2, 1, .seek .eof⟩
    (({} : Sink).writeFrames f [[ack, seek], [], [seek, ack]]).1.bytes =
        (f.encodeInto [ack, seek] []).1 ++ (f.encodeInto [seek, ack] []).1 ∧
      (f.encodeInto [ack, seek] []).1 ≠ [] ∧ (f.encodeInto [seek, ack] []).1 = [] := by
  intro f ack seek
  obtain ⟨wrote, apart, each⟩ := leaves_prefix 20 (s := {}) rfl [[ack, seek], [], [seek, ack]]
  have refused : f.encode [seek] = .error (.frameTooLarge 24 20) := by
    simp only [f, seek]
    cbv
  have behind : (f.encodeInto [ack, seek] []).2 = .error (.frameTooLarge 24 20) := by
    refine Framing.encodeInto_of_failure ?_ []
    simp only [f, ack, seek]
    cbv
  have before : (f.encodeInto [seek, ack] []).2 = .error (.frameTooLarge 24 20) := by
    refine Framing.encodeInto_of_failure ?_ []
    simp only [f, ack, seek]
    cbv
  obtain ⟨_, _, _, -, -, -, ackFirst⟩ := each [ack, seek] (by simp) (by simp)
  obtain ⟨_, _, _, -, -, -, seekFirst⟩ := each [seek, ack] (by simp) (by simp)
  rw [behind] at ackFirst
  rw [before] at seekFirst
  refine ⟨?_, fun nothing => ?_, seekFirst.2.2 (.inl ⟨_, refused⟩)⟩
  · rw [wrote, apart]
    simp [f]
  · rcases ackFirst.2.1 nothing with ⟨e, he⟩ | ⟨field, hfield⟩
    · have alone : f.encode ([ack, seek].take 1) = .ok (frameHeader ⟨17, 1⟩ ++
          recordHeader 1 1 1 1 ++ [2]) := by
        simp only [f, ack]
        cbv
      rw [alone] at he
      cases he
    · have whole : f.encode ([ack, seek].take 65535) = .error (.frameTooLarge 41 20) := by
        simp only [f, ack, seek]
        cbv
      rw [whole] at hfield
      cases hfield

/-- Of a batch that is dropped for its second message the first one is written all the same. -/
theorem Sink.writes_of_dropped :
    let f := Framing.ofLimit 20
    let dropped : List Message := [⟨1, 1, .status .ok⟩, ⟨2, 1, .seek .eof⟩]
    let batches : List (List Message) := [dropped, [⟨3, 1, .status .ack⟩]]
    let encoded := batches.filter fun batch => !batch.isEmpty && (f.encodeInto batch []).2.isOk
    (f.encodeInto dropped []).2 = .error (.frameTooLarge 24 20) ∧
      (({} : Sink).writeFrames f batches).1.bytes ≠
        (encoded.map fun batch => (f.encodeInto batch []).1).flatten := by
  intro f dropped batches encoded
  have failed : (f.encodeInto dropped []).2 = .error (.frameTooLarge 24 20) := by
    refine Framing.encodeInto_of_failure ?_ []
    simp only [f, dropped]
    cbv
  have written : (({} : Sink).writeFrames f batches).1.bytes.length = 46 := by
    simp only [f, batches, dropped]
    cbv
  have other : (f.encodeInto [⟨3, 1, .status .ack⟩] []).1.length = 23 := by
    simp only [f]
    cbv
  have least : (encoded.map fun batch => (f.encodeInto batch []).1).flatten.length ≤ 23 := by
    simp only [encoded, batches, List.filter_cons, failed, Except.isOk, Except.toBool,
      Bool.and_false, Bool.false_eq_true, if_false, List.filter_nil]
    split_ifs
    · simp [other]
    · simp
  refine ⟨failed, fun same => ?_⟩
  rw [← same, written] at least
  exact absurd least (by decide)

end EventRelay.Wire
