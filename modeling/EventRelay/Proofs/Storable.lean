import EventRelay.Proofs.RoundTrip
import EventRelay.Proofs.Contents

/-!
# Every storable event has a row

An event is storable if it is of a data kind and its texts and lists can be counted. However long
these are, its frame stays far within the limit of a row, so a batch of such events is never
refused.
-/

namespace EventRelay

open Wire

/-- An event of a data kind whose texts and lists can be counted. -/
structure Message.Storable (m : Message) : Prop where
  isData : m.isData = true
  fits : m.payload.Fits

theorem Address.wireSize_le (a : Address) : a.wireSize ≤ 17 := by
  cases a <;> simp [wireSize]

theorem Address.sum_wireSize_le (as : List Address) :
    (as.map (·.wireSize)).sum ≤ 17 * as.length := by
  induction as with
  | nil => simp
  | cons a as ih =>
    have := a.wireSize_le
    simp only [List.map_cons, List.sum_cons, List.length_cons]
    omega

/-- No event comes near the limit of a frame: the longest lists as many neighbors as can be
counted. -/
theorem Message.Storable.recordSize_le {m : Message} (h : m.Storable) :
    m.recordSize ≤ defaultLimit := by
  obtain ⟨hd, htexts, hlists⟩ := h
  unfold Message.isData Message.kind at hd
  unfold Message.recordSize recordHeaderSize defaultLimit
  cases hp : m.payload <;> rw [hp] at hd htexts hlists <;>
    simp only [Payload.kind, Kind.isData, Bool.false_eq_true] at hd <;>
    simp only [Payload.texts, Payload.listLengths, maxFieldLength, List.forall_mem_cons,
      List.not_mem_nil, false_implies, implies_true, and_true] at htexts hlists <;>
    simp only [Payload.wireSize]
  case test n => omega
  case gps g =>
    have := g.node.wireSize_le
    omega
  case label l =>
    have := l.node.wireSize_le
    omega
  case edge e =>
    have := e.node1.wireSize_le
    have := e.node2.wireSize_le
    omega
  case color c =>
    have := c.node.wireSize_le
    omega
  case connectivity c =>
    have := c.node.wireSize_le
    have := Address.sum_wireSize_le c.neighbors
    omega
  case dataPoint d =>
    have := d.node.wireSize_le
    omega
  case nodeStatus n =>
    have := n.node.wireSize_le
    omega

namespace TableStore

theorem exists_encode {m : Message} (h : m.Storable) : ∃ row, encode m = .ok row := by
  obtain ⟨frame, hf⟩ : ∃ frame, Framing.standard.encode [m] = .ok frame :=
    Framing.encode_ok_iff.2 ⟨by simp [maxBatch], by simpa using h.fits,
      by simpa [Framing.standard] using h.recordSize_le⟩
  exact ⟨(m.timestamp, m.kind.tag, frame), by simp only [encode, h.isData, if_true, hf]⟩

theorem exists_encodeAll : ∀ {ms : List Message}, (∀ m ∈ ms, m.Storable) →
    ∃ rows, encodeAll ms = .ok rows
  | [], _ => ⟨[], rfl⟩
  | m :: ms, h => by
    rw [List.forall_mem_cons] at h
    obtain ⟨row, first⟩ := exists_encode h.1
    obtain ⟨rows, others⟩ := exists_encodeAll h.2
    exact ⟨row :: rows, by simp only [encodeAll, first, others]⟩

/-- A batch of storable events is not refused. -/
theorem appendBatch_storable (s : TableStore) {ms : List Message} (h : ∀ m ∈ ms, m.Storable) :
    (s.appendBatch ms).2 = none := by
  obtain ⟨rows, encoded⟩ := exists_encodeAll h
  rw [appendBatch, encoded]

end TableStore

end EventRelay
