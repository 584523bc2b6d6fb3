import EventRelay.Proofs.Coalesced

/-!
# A batch as frames of its slices

A batch is cut in two as long as it has too many messages for one frame or is too large for the
limit, and its halves are written one behind the other. Wherever the cuts come to lie, what is
written are whole frames of consecutive slices. They stop short of the end only where a slice holds
a message that has no frame of its own: then nothing of that slice is written, and the error is the
one of that message alone.
-/

namespace EventRelay.Wire

/-- Where one record cannot be written, this is the error of the batch. -/
theorem writeRecords_error {e : WireError} : ∀ {batch : List Message} {written : List Bytes},
    writeRecords batch written = .error e → ∃ m ∈ batch, writeRecord m = .error e
  | [], _, h => by cases h
  | m :: batch, written, h => by
    rw [writeRecords] at h
    rcases hm : writeRecord m with e' | record
    · rw [hm] at h
      cases h
      exact ⟨m, by simp, hm⟩
    · rw [hm] at h
      obtain ⟨m', hm', he⟩ := writeRecords_error h
      exact ⟨m', by simp [hm'], he⟩

namespace Framing

variable {f : Framing} {batch : List Message}

theorem encode_singleton_error {m : Message} {e : WireError} (h : writeRecord m = .error e) :
    f.encode [m] = .error e := by
  simp [encode, maxBatch, writeRecords, h]

/-- A batch that can be counted is refused for its size, or for a message that is refused alone. -/
theorem encode_error (hcount : batch.length ≤ maxBatch) {e : WireError}
    (h : f.encode batch = .error e) :
    (∃ size, e = .frameTooLarge size f.limit) ∨ ∃ m ∈ batch, f.encode [m] = .error e := by
  rw [encode, if_neg (Nat.not_lt.2 hcount)] at h
  rcases hw : writeRecords batch [] with e' | payload
  · rw [hw] at h
    cases h
    obtain ⟨m, hm, he⟩ := writeRecords_error hw
    exact .inr ⟨m, hm, encode_singleton_error he⟩
  · rw [hw] at h
    dsimp only at h
    split_ifs at h
    cases h
    exact .inl ⟨_, rfl⟩

theorem encode_nil : f.encode [] = .ok (frameHeader ⟨0, 0⟩) :=
  encode_ok.2 ⟨Nat.zero_le _, [], .nil, Nat.zero_le _, rfl⟩

/-- These are frames of consecutive slices of the batch, and of all of it unless writing has failed.
Then it is for a message behind these slices, and with the error of that message alone. -/
def Sliced (f : Framing) (batch : List Message) (frames : Frames) : Prop :=
  ∃ slices rest, slices.flatten ++ rest = batch ∧ f.Encodes slices frames.written ∧
    match frames.failure with
    | none => rest = []
    | some e => ∃ m ∈ rest, f.encode [m] = .error e

theorem Sliced.one {frame : Bytes} (h : f.encode batch = .ok frame) :
    f.Sliced batch ⟨[frame], none⟩ :=
  ⟨[batch], [], by simp, .cons h .nil, rfl⟩

theorem Sliced.refused {m : Message} (hm : m ∈ batch) {e : WireError}
    (h : f.encode [m] = .error e) : f.Sliced batch ⟨[], some e⟩ :=
  ⟨[], batch, rfl, .nil, m, hm, h⟩

theorem Sliced.andThen {n : Nat} {first second : Frames} (h : f.Sliced (batch.take n) first)
    (h' : f.Sliced (batch.drop n) second) : f.Sliced batch (first.andThen fun _ => second) := by
  obtain ⟨slices, rest, split, encodes, ending⟩ := h
  obtain ⟨slices', rest', split', encodes', ending'⟩ := h'
  have whole : slices.flatten ++ rest ++ (slices'.flatten ++ rest') = batch := by
    rw [split, split', List.take_append_drop]
  rcases hfail : first.failure with _ | e <;> rw [hfail] at ending
  · obtain rfl : rest = [] := ending
    refine ⟨slices ++ slices', rest', ?_, ?_, ?_⟩
    · rw [← whole, List.flatten_append, List.append_nil, List.append_assoc]
    · rw [Frames.andThen, hfail]
      exact List.rel_append encodes encodes'
    · rw [Frames.andThen, hfail]
      exact ending'
  · -- the second part is not begun
    obtain ⟨m, hm, he⟩ := ending
    refine ⟨slices, rest ++ (slices'.flatten ++ rest'), ?_, ?_, ?_⟩
    · rw [← whole, List.append_assoc]
    · rw [Frames.andThen, hfail]
      exact encodes
    · rw [Frames.andThen, hfail]
      dsimp only
      rw [hfail]
      exact ⟨m, List.mem_append_left _ hm, he⟩

/-- Whatever is written of a batch is cut from its front, slice by slice. -/
theorem frames_sliced (f : Framing) (batch : List Message) : f.Sliced batch (f.frames batch) := by
  fun_induction frames f batch with
  | case1 batch hlong ihtake ihdrop => exact ihtake.andThen ihdrop
  | case2 batch hshort frame hframe => exact .one hframe
  | case3 batch hshort size max hlarge hmany ihtake ihdrop => exact ihtake.andThen ihdrop
  | case4 batch hshort size max hlarge hfew =>
    -- a batch that cannot be halved is a single message, for the empty one has a frame
    have single : batch.length = 1 := by
      have some : batch ≠ [] := by
        rintro rfl
        rw [encode_nil] at hlarge
        cases hlarge
      have := List.length_pos_of_ne_nil some
      omega
    obtain ⟨m, rfl⟩ := List.length_eq_one_iff.1 single
    exact .refused (List.mem_singleton_self m) hlarge
  | case5 batch hshort e hother herror =>
    rcases encode_error (Nat.not_lt.1 hshort) herror with ⟨size, rfl⟩ | ⟨m, hm, he⟩
    · exact absurd rfl (hother _ _)
    · exact .refused hm he

/-- A frame keeps to both limits. -/
theorem length_le_of_encode {frame : Bytes} (h : f.encode batch = .ok frame) :
    batch.length ≤ maxBatch ∧ frame.length ≤ headerSize + f.limit := by
  obtain ⟨count, records, -, limit, rfl⟩ := encode_ok.1 h
  rw [List.length_append, length_frameHeader]
  exact ⟨count, Nat.add_le_add_left limit _⟩

/-- A batch is written behind what is there as whole frames of consecutive slices within both
limits. All of it is just if each message has a frame of its own, and of the empty batch that is a
header. Else the frames are those of a strict prefix, and the error is the one of a message behind
it alone. -/
theorem encodeInto_slices (f : Framing) (batch : List Message) (out : Bytes) :
    ((∃ n, (f.encodeInto batch out).2 = .ok n) ↔ ∀ m ∈ batch, ∃ frame, f.encode [m] = .ok frame) ∧
    f.encodeInto [] out = (out ++ frameHeader ⟨0, 0⟩, .ok 1) ∧
    ∃ slices rest frames, slices.flatten ++ rest = batch ∧
      (f.encodeInto batch out).1 = out ++ frames.flatten ∧
      List.Forall₂ (fun slice frame => f.encode slice = .ok frame ∧ slice.length ≤ 65535 ∧
        frame.length ≤ headerSize + f.limit) slices frames ∧
      match (f.encodeInto batch out).2 with
      | .ok n => n = frames.length ∧ rest = []
      | .error e => ∃ m ∈ rest, f.encode [m] = .error e := by
  refine ⟨?_, ?_, ?_⟩
  · rw [← Apart, ← failure_frames_iff, encodeInto]
    rcases (f.frames batch).failure with _ | e <;> simp
  · rw [encodeInto, frames_of_encode encode_nil]
    simp
  · obtain ⟨slices, rest, split, encodes, ending⟩ := frames_sliced f batch
    refine ⟨slices, rest, (f.frames batch).written, split, rfl, ?_, ?_⟩
    · exact encodes.imp fun slice frame h => ⟨h, length_le_of_encode h⟩
    · rw [encodeInto]
      rcases hfail : (f.frames batch).failure with _ | e <;> rw [hfail] at ending
      · exact ⟨rfl, ending⟩
      · exact ending

/-- Of two messages the second has no frame within twenty bytes. The first is written. -/
example :
    (Framing.ofLimit 20).encodeInto [⟨1, 1, .status .ok⟩, ⟨2, 1, .seek .eof⟩] [255] =
      ([255] ++ frameHeader ⟨17, 1⟩ ++ recordHeader 1 1 1 1 ++ [0],
        .error (.frameTooLarge 24 20)) := by
  cbv

end Framing

end EventRelay.Wire
