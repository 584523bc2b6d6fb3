import EventRelay.Proofs.Coalesced
import EventRelay.Proofs.Recorded

/-!
# Runs are passed on in one frame

A frame that decodes bounds what its batch comes to when it is encoded: the messages can be counted,
their fields fit, and their records together are no longer than the payload that came in. Every part
of the batch is bounded with it. So a run of events that came in one frame goes out in one frame
again, to everybody who watches the live feed, and that frame is no longer than the one it came in.
-/

namespace EventRelay

namespace Wire

/-- The record that is written for a message is no longer than one that it was read from. -/
theorem RawRecord.Reads.recordSize_le {r : RawRecord} {m : Message} (h : r.Reads m) :
    m.recordSize ≤ r.bytes.length := by
  have written := length_writeBody h.writeBody_ok
  have body := h.length_normal
  rw [length_bytes, Message.recordSize]
  omega

theorem sum_recordSize_le {rs : List RawRecord} {ms : List Message}
    (h : List.Forall₂ RawRecord.Reads rs ms) :
    (ms.map (·.recordSize)).sum ≤ (rs.map RawRecord.bytes).flatten.length := by
  induction h with
  | nil => exact Nat.le_refl _
  | cons hr _ ih =>
    simp only [List.map_cons, List.sum_cons, List.flatten_cons, List.length_append]
    exact Nat.add_le_add hr.recordSize_le ih

namespace Framing

variable {f : Framing} {size : Nat} {batch part : List Message} {frame : Bytes}

/-- The batch fits into one frame of at most so many bytes, and can be read back. -/
structure Holds (f : Framing) (size : Nat) (batch : List Message) : Prop where
  count : batch.length ≤ maxBatch
  fits : ∀ m ∈ batch, m.payload.Fits
  regular : ∀ m ∈ batch, m.payload.Regular
  limit : (batch.map (·.recordSize)).sum ≤ f.limit
  size : headerSize + (batch.map (·.recordSize)).sum ≤ size

theorem holds_of_decode (h : f.decode frame = .ok batch) : f.Holds frame.length batch := by
  obtain ⟨rs, rfl, reads, count, limit⟩ := decode_ok h
  have sum := sum_recordSize_le reads
  refine ⟨?_, fits_of_reads reads, regular_of_reads reads, sum.trans limit, ?_⟩
  · rw [← reads.length_eq]
    exact count
  · rw [RawRecord.frame, List.length_append, length_frameHeader]
    exact Nat.add_le_add_left sum _

theorem Holds.sublist (h : f.Holds size batch) (hs : part.Sublist batch) : f.Holds size part := by
  have sum : (part.map (·.recordSize)).sum ≤ (batch.map (·.recordSize)).sum :=
    (hs.map _).sum_le_sum fun _ _ => Nat.zero_le _
  exact ⟨hs.length_le.trans h.count, fun m hm => h.fits m (hs.subset hm),
    fun m hm => h.regular m (hs.subset hm), sum.trans h.limit,
    (Nat.add_le_add_left sum _).trans h.size⟩

theorem decode_of_encode (regular : ∀ m ∈ batch, m.payload.Regular)
    (h : f.encode batch = .ok frame) : f.decode frame = .ok batch := by
  obtain ⟨count, records, hrecords, limit, rfl⟩ := encode_ok.1 h
  exact decode_encode count hrecords limit regular

theorem Holds.encode (h : f.Holds size batch) :
    ∃ frame, f.encode batch = .ok frame ∧ frame.length ≤ size ∧ f.decode frame = .ok batch := by
  obtain ⟨frame, hframe⟩ := encode_ok_iff.2 ⟨h.count, h.fits, h.limit⟩
  refine ⟨frame, hframe, ?_, decode_of_encode h.regular hframe⟩
  obtain ⟨-, records, hrecords, -, rfl⟩ := encode_ok.1 hframe
  rw [List.length_append, length_frameHeader, length_records hrecords]
  exact h.size

end Framing

/-- What is written for a batch that has a frame is the frame. -/
theorem writeFrames_of_encode {f : Framing} {batch : List Message} {frame : Bytes}
    (some : batch ≠ []) (h : f.encode batch = .ok frame) : writeFrames f [batch] = frame := by
  rw [writeFrames_cons, if_neg some, Framing.frames_of_encode h]
  simp [writeFrames]

end Wire

namespace Run

variable {batch : List Message} {runs : List Run}

/-- The runs that a batch is cut into are parts of it. -/
theorem Cuts.sublist (h : Cuts batch runs) {run : Run} (hr : run ∈ runs) :
    run.messages.Sublist batch := by
  rw [← h.messages, List.flatMap]
  exact List.sublist_flatten_of_mem (List.mem_map_of_mem hr)

end Run

namespace Relay

open Wire

/-- A frame that decodes is cut into runs of events, each as long as can be, and other messages.
Each run goes out in one frame, which is no longer than the one that it came in and decodes to the
run; and it does so to everybody whose stream plays live and who keeps up, behind what is queued
already. -/
theorem forwards_runs (limit : Nat) {frame : Bytes} {batch : List Message}
    (h : (Framing.ofLimit limit).decode frame = .ok batch) :
    Run.Cuts batch (Run.ofBatch batch) ∧ ∀ run, .data run ∈ Run.ofBatch batch →
      ∃ forwarded, (Framing.ofLimit limit).frames run = ⟨[forwarded], none⟩ ∧
        forwarded.length ≤ frame.length ∧
        (Framing.ofLimit limit).decode forwarded = .ok run ∧
        (∀ sink : Sink, sink.failure = none → sink.writeFrames (.ofLimit limit) [run] =
          ({ sink with bytes := sink.bytes ++ forwarded }, .ok forwarded.length)) ∧
        ∀ r : Relay, r.Orderly → ∀ s < r.sessions.length, ∀ t < r.sessions.length,
          r.Addressed t → (r.hub.connection t).closed = false → (r.hub.connection t).HasRoom →
            let r' := r.step (.handle s (.data run))
            (r'.hub.connection t).queue = (r.hub.connection t).queue ++ [run] ∧
            writeFrames (.ofLimit limit) (r'.hub.connection t).queue =
              writeFrames (.ofLimit limit) (r.hub.connection t).queue ++ forwarded := by
  have cuts := Run.ofBatch_cuts batch
  refine ⟨cuts, fun run hrun => ?_⟩
  have some : run ≠ [] := (cuts.cut _ hrun).1
  obtain ⟨forwarded, encoded, length, decoded⟩ :=
    ((Framing.holds_of_decode h).sublist (cuts.sublist hrun)).encode
  have written := writeFrames_of_encode some encoded
  refine ⟨forwarded, Framing.frames_of_encode encoded, length, decoded, fun sink up => ?_,
    fun r orderly s hs t ht addressed opened room => ?_⟩
  · rw [Sink.writeFrames_eq up, written]
  · have queued := (orderly.tended.hears hs some).queued t ht addressed opened room
    have queue : ((r.step (.handle s (.data run))).hub.connection t).queue =
        (r.hub.connection t).queue ++ [run] := by rw [queued]
    refine ⟨queue, ?_⟩
    rw [queue, writeFrames_append, written]

/-- An edge of a newer layout and a node that has gone, with a request behind them. The one who
watches with room for a single batch is written a frame without the bytes that nobody here reads. -/
theorem forwards_runs_newer :
    let edge : Message := ⟨77, 2, .edge ⟨.v4 1, .v4 2, ⟨9, 8, 7, 6⟩, ⟨0⟩, true, 5, true, ""⟩⟩
    let gone : Message := ⟨-3, 1, .nodeStatus ⟨.v4 1, .disconnect⟩⟩
    let body : Bytes := [4, 0, 0, 0, 1, 4, 0, 0, 0, 2, 9, 8, 7, 6, 0, 0, 0, 0]
    let frame := RawRecord.frame [⟨5, 2, 77, body ++ [2, 0, 0, 0, 5, 1, 0, 0, 3, 3]⟩,
      ⟨9, 1, -3, [4, 0, 0, 0, 1, 1]⟩, ⟨21, 1, 0, []⟩]
    let f := Framing.ofLimit 90
    let r := (start ⟨.memory, fun _ => false⟩ ⟨10, 250, by decide, by decide⟩ 0 false).steps
      [.accept 4, .accept 1, .handle 0 (.control (.current 0 .start)),
        .handle 1 (.control (.current 0 (.subscribeStream 1)))]
    let r' := r.step (.handle 0 (.data [edge, gone]))
    f.decode frame = .ok [edge, gone, ⟨0, 1, .start⟩] ∧
      .data [edge, gone] ∈ Run.ofBatch [edge, gone, ⟨0, 1, .start⟩] ∧ r.Orderly ∧ r.Addressed 1 ∧
      (r.hub.connection 1).closed = false ∧ (r.hub.connection 1).HasRoom ∧
      f.decode (writeFrames f (r'.hub.connection 1).queue) = .ok [edge, gone] ∧
      (writeFrames f (r'.hub.connection 1).queue).length ≤ frame.length := by
  intro edge gone body frame f r r'
  have decoded : f.decode frame = .ok [edge, gone, ⟨0, 1, .start⟩] := by decide +kernel
  have cut : .data [edge, gone] ∈ Run.ofBatch [edge, gone, ⟨0, 1, .start⟩] := by decide
  have orderly : r.Orderly := by
    refine ⟨_, _, _, _, _, ?_, ?_, rfl⟩
    · decide
    · decide
  have addressed : r.Addressed 1 := ⟨0, by decide⟩
  have opened : (r.hub.connection 1).closed = false := by decide
  have room : (r.hub.connection 1).HasRoom := by decide
  have empty : (r.hub.connection 1).queue = [] := by decide
  obtain ⟨forwarded, -, length, same, -, sent⟩ := (forwards_runs 90 decoded).2 _ cut
  obtain ⟨-, written⟩ := sent r orderly 0 (by decide) 1 (by decide) addressed opened room
  have alone : writeFrames f (r'.hub.connection 1).queue = forwarded := by
    rw [written, empty]
    rfl
  exact ⟨decoded, cut, orderly, addressed, opened, room, alone ▸ same, alone ▸ length⟩

end Relay

end EventRelay
