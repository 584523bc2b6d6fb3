import EventRelay.Proofs.Layouts

/-!
# Bodies of every kind read back

Each layout of the catalog is faithful, so each payload whose texts and lists are short enough is
written, in a known number of bytes, and read back as itself. Two payloads are not: an unknown one
under a tag of the catalog, and a seek to a negative time.
-/

namespace EventRelay

/-- The texts of a payload. -/
@[simp] def Payload.texts : Payload → List String
  | .test n => [n.text]
  | .label l => [l.text, l.layer]
  | .edge e => [e.layer]
  | .color c => [c.layer]
  | .connectivity c => [c.layer]
  | .dataPoint d => [d.name]
  | .listStreams streams => streams.map (·.description)
  | .streamDescription d => [d]
  | _ => []

/-- The lengths of the lists of a payload, in items. -/
@[simp] def Payload.listLengths : Payload → List Nat
  | .test n => [n.ints.length]
  | .connectivity c => [c.neighbors.length]
  | .dataPoint d => [d.points.length]
  | .listStreams streams => [streams.length]
  | _ => []

/-- No text and no list is longer than its count can tell. -/
def Payload.Fits (p : Payload) : Prop :=
  (∀ s ∈ p.texts, s.utf8ByteSize ≤ Wire.maxFieldLength) ∧
    ∀ n ∈ p.listLengths, n ≤ Wire.maxFieldLength

/-- The kinds of the catalog. -/
def Kind.catalog : List Kind :=
  [status, test, gps, label, edge, color, connectivity, dataPoint, nodeStatus, seek, start, stop,
    speed, playbackTimeRange, listStreams, subscribeStream, streamDescription, hello]

/-- Neither an unknown payload under a tag of the catalog nor a seek to a negative time. -/
def Payload.Regular : Payload → Prop
  | .seek (.time ms) => 0 ≤ ms
  | .unknown tag _ => ∀ k ∈ Kind.catalog, k.tag ≠ tag
  | _ => True

def Address.wireSize : Address → Nat
  | .v4 _ => 5
  | .v6 .. => 17

/-- The length of the body of a payload. -/
@[simp] def Payload.wireSize : Payload → Nat
  | .status _ => 1
  | .test n => (2 + n.text.utf8ByteSize) + (2 + 4 * n.ints.length)
  | .gps g => g.node.wireSize + 24
  | .label l => l.node.wireSize + (2 + l.text.utf8ByteSize) + 17 + (2 + l.layer.utf8ByteSize)
  | .edge e => e.node1.wireSize + e.node2.wireSize + 14 + (2 + e.layer.utf8ByteSize)
  | .color c => c.node.wireSize + 12 + (2 + c.layer.utf8ByteSize)
  | .connectivity c =>
    c.node.wireSize + (2 + c.layer.utf8ByteSize) + (2 + (c.neighbors.map (·.wireSize)).sum)
  | .dataPoint d => d.node.wireSize + (2 + d.name.utf8ByteSize) + (2 + 8 * d.points.length)
  | .nodeStatus n => n.node.wireSize + 1
  | .seek _ => 8
  | .start | .stop => 0
  | .speed _ => 4
  | .playbackTimeRange .. => 16
  | .listStreams streams => 2 + (streams.map fun s => 4 + (2 + s.description.utf8ByteSize)).sum
  | .subscribeStream _ => 4
  | .streamDescription d => 2 + d.utf8ByteSize
  | .hello _ => 2
  | .unknown _ body => body.length

theorem Kind.ofTag_of_notMem {tag : UInt16} (h : ∀ k ∈ Kind.catalog, k.tag ≠ tag) :
    Kind.ofTag tag = .unknown tag := by
  have hne : ∀ k ∈ Kind.catalog, tag.toNat ≠ k.tag.toNat := fun k hk he =>
    h k hk (UInt16.toNat_inj.1 he.symm)
  simp only [Kind.catalog, List.forall_mem_cons, Kind.tag, UInt16.reduceToNat] at hne
  unfold Kind.ofTag
  split <;> first | rfl | (exfalso; omega)

theorem Payload.ofTag_kind {p : Payload} (h : p.Regular) : Kind.ofTag p.kind.tag = p.kind := by
  cases p with
  | unknown tag body => exact Kind.ofTag_of_notMem h
  | _ => rfl

namespace Wire.Layout

theorem int32_fixed : int32.Fixed 4 := word32_fixed.as fun _ => rfl
theorem int64_fixed : int64.Fixed 8 := word64_fixed.as fun _ => rfl
theorem binary32_fixed : binary32.Fixed 4 := word32_fixed.as fun _ => rfl
theorem binary64_fixed : binary64.Fixed 8 := word64_fixed.as fun _ => rfl

theorem flag_fixed : flag.Fixed 1 := byte_fixed.as fun b => by cases b <;> rfl

theorem color_fixed : color.Fixed 4 :=
  ((byte_fixed.seq (byte_fixed.seq (byte_fixed.seq byte_fixed))).as fun _ => rfl).congr
    (fun _ => by simp) (fun _ _ => by simp) fun _ => rfl

theorem status_fixed : status.Fixed 1 :=
  byte_fixed.refine.congr (fun _ => Iff.rfl) (fun s _ => ⟨trivial, by cases s <;> rfl⟩) fun _ => rfl

theorem nodeEvent_fixed : nodeEvent.Fixed 1 :=
  byte_fixed.refine.congr (fun _ => Iff.rfl) (fun e _ => ⟨trivial, by cases e <;> rfl⟩) fun _ => rfl

theorem ofOffset?_offset {p : Position} (h : (Payload.seek p).Regular) :
    Position.ofOffset? p.offset = some p := by
  cases p with
  | eof => rfl
  | time ms =>
    have hms : 0 ≤ ms := h
    have hne : ms ≠ -1 := by
      rintro rfl
      exact absurd hms (by decide)
    simp [Position.ofOffset?, Position.offset, hne, hms]

theorem position_faithful :
    position.Faithful (fun _ => True) (fun p => (Payload.seek p).Regular) fun _ => 8 :=
  int64_fixed.refine.congr (fun _ => Iff.rfl)
    (fun p hp => ⟨trivial, by simp [ofOffset?_offset hp]⟩) fun _ => rfl

theorem read_write_address {a : Address} {b : Bytes} (hw : address.write a = .ok b) (rest : Bytes) :
    address.read (b ++ rest) = .ok (a, rest) := by
  cases a with
  | v4 number =>
    cases hw
    simp only [address, byte, List.cons_append, List.nil_append, if_pos]
    exact word32_fixed.readAs trivial rfl Address.v4 rest
  | v6 high low =>
    cases hw
    have hr := (word64_fixed.seq word64_fixed).readAs (x := (high, low)) ⟨trivial, trivial⟩ rfl
      (fun x => Address.v6 x.1 x.2) rest
    simp only [address, byte, octets6, List.cons_append, List.nil_append, hr]
    rfl

theorem length_write_address {a : Address} {b : Bytes} (hw : address.write a = .ok b) :
    b.length = a.wireSize := by
  cases a <;> cases hw <;> rfl

theorem address_faithful :
    address.Faithful (fun _ => True) (fun _ => True) Address.wireSize where
  writes_iff a := by cases a <;> exact ⟨fun _ => trivial, fun _ => ⟨_, rfl⟩⟩
  length_write := length_write_address
  read_write _ := read_write_address

/-! ## The kinds -/

theorem sum_map_const {α : Type} (xs : List α) (n : Nat) :
    (xs.map fun _ => n).sum = n * xs.length := by
  induction xs with
  | nil => rfl
  | cons x xs ih =>
    simp only [List.map_cons, List.sum_cons, ih, List.length_cons, Nat.mul_succ]
    omega

theorem note_faithful : note.Faithful (fun n => (Payload.test n).Fits) (fun _ => True)
    fun n => (Payload.test n).wireSize :=
  (((text_faithful _).seq (int32_fixed.counted _)).as fun _ => rfl).congr
    (fun n => by simp [Payload.Fits]) (fun _ _ => by simp)
    fun n => by simp only [Payload.wireSize, sum_map_const]

theorem gps_faithful : gps.Faithful (fun g => (Payload.gps g).Fits) (fun _ => True)
    fun g => (Payload.gps g).wireSize :=
  ((address_faithful.seq (binary64_fixed.seq (binary64_fixed.seq binary64_fixed))).as
    fun _ => rfl).congr
    (fun g => by simp [Payload.Fits]) (fun _ _ => by simp)
    fun g => by simp

theorem label_faithful : label.Faithful (fun l => (Payload.label l).Fits) (fun _ => True)
    fun l => (Payload.label l).wireSize :=
  ((address_faithful.seq ((text_faithful _).seq (binary32_fixed.seq (color_fixed.seq
    (color_fixed.seq (word32_fixed.seq (flag_fixed.seq (text_faithful _)))))))).as
    fun _ => rfl).congr
    (fun l => by simp [Payload.Fits]) (fun _ _ => by simp)
    fun l => by simp only [Payload.wireSize]; omega

theorem edge_faithful : edge.Faithful (fun e => (Payload.edge e).Fits) (fun _ => True)
    fun e => (Payload.edge e).wireSize :=
  ((address_faithful.seq (address_faithful.seq (color_fixed.seq (binary32_fixed.seq
    (flag_fixed.seq (word32_fixed.seq (flag_fixed.seq (text_faithful _)))))))).as
    fun _ => rfl).congr
    (fun e => by simp [Payload.Fits]) (fun _ _ => by simp)
    fun e => by simp only [Payload.wireSize]; omega

theorem nodeColor_faithful : nodeColor.Faithful (fun c => (Payload.color c).Fits) (fun _ => True)
    fun c => (Payload.color c).wireSize :=
  ((address_faithful.seq (color_fixed.seq (word32_fixed.seq (word32_fixed.seq
    (text_faithful _))))).as fun _ => rfl).congr
    (fun c => by simp [Payload.Fits]) (fun _ _ => by simp)
    fun c => by simp only [Payload.wireSize]; omega

theorem connectivity_faithful :
    connectivity.Faithful (fun c => (Payload.connectivity c).Fits) (fun _ => True)
      fun c => (Payload.connectivity c).wireSize :=
  ((address_faithful.seq ((text_faithful _).seq (address_faithful.counted _))).as
    fun _ => rfl).congr
    (fun c => by simp [Payload.Fits]) (fun _ _ => by simp)
    fun c => (Nat.add_assoc ..).symm

theorem dataPoint_faithful :
    dataPoint.Faithful (fun d => (Payload.dataPoint d).Fits) (fun _ => True)
      fun d => (Payload.dataPoint d).wireSize :=
  ((address_faithful.seq ((text_faithful _).seq (binary64_fixed.counted _))).as
    fun _ => rfl).congr
    (fun d => by simp [Payload.Fits]) (fun _ _ => by simp)
    fun d => by simp only [Payload.wireSize, sum_map_const]; omega

theorem nodeStatus_faithful :
    nodeStatus.Faithful (fun n => (Payload.nodeStatus n).Fits) (fun _ => True)
      fun n => (Payload.nodeStatus n).wireSize :=
  ((address_faithful.seq nodeEvent_fixed).as fun _ => rfl).congr
    (fun n => by simp [Payload.Fits]) (fun _ _ => by simp)
    fun n => by simp

theorem streamList_faithful :
    streamList.Faithful (fun s => (Payload.listStreams s).Fits) (fun _ => True)
      fun s => (Payload.listStreams s).wireSize :=
  (((word32_fixed.seq (text_faithful _)).as fun _ => rfl).counted _).congr
    (fun s => by
      rw [and_comm]
      simp [Payload.Fits])
    (fun _ _ => by simp) fun s => rfl

end Wire.Layout

namespace Wire

open Layout

theorem writeBody_ok_iff (p : Payload) : (∃ b, writeBody p = .ok b) ↔ p.Fits := by
  have htrue : ∀ q : Payload, q.texts = [] → q.listLengths = [] → (True ↔ q.Fits) :=
    fun q ht hl => by rw [Payload.Fits, ht, hl]; simp
  cases p with
  | status s => exact (status_fixed.writes_iff s).trans (htrue _ rfl rfl)
  | test n => exact note_faithful.writes_iff n
  | gps g => exact gps_faithful.writes_iff g
  | label l => exact label_faithful.writes_iff l
  | edge e => exact edge_faithful.writes_iff e
  | color c => exact nodeColor_faithful.writes_iff c
  | connectivity c => exact connectivity_faithful.writes_iff c
  | dataPoint d => exact dataPoint_faithful.writes_iff d
  | nodeStatus n => exact nodeStatus_faithful.writes_iff n
  | seek q => exact (position_faithful.writes_iff q).trans (htrue _ rfl rfl)
  | start => exact (iff_of_true ⟨[], rfl⟩ trivial).trans (htrue _ rfl rfl)
  | stop => exact (iff_of_true ⟨[], rfl⟩ trivial).trans (htrue _ rfl rfl)
  | speed s => exact (binary32_fixed.writes_iff s).trans (htrue _ rfl rfl)
  | playbackTimeRange min max =>
    exact ((int64_fixed.seq int64_fixed).writes_iff (min, max)).trans
      ((and_self_iff).trans (htrue _ rfl rfl))
  | listStreams streams => exact streamList_faithful.writes_iff streams
  | subscribeStream uid => exact (word32_fixed.writes_iff uid).trans (htrue _ rfl rfl)
  | streamDescription d =>
    exact ((text_faithful _).writes_iff d).trans
      (by simp [Payload.Fits])
  | hello version => exact (word16_fixed.writes_iff version).trans (htrue _ rfl rfl)
  | unknown tag body => exact (iff_of_true ⟨body, rfl⟩ trivial).trans (htrue _ rfl rfl)

theorem length_writeBody {p : Payload} {b : Bytes} (h : writeBody p = .ok b) :
    b.length = p.wireSize := by
  cases p with
  | status s => exact status_fixed.length_write h
  | test n => exact note_faithful.length_write h
  | gps g => exact gps_faithful.length_write h
  | label l => exact label_faithful.length_write h
  | edge e => exact edge_faithful.length_write h
  | color c => exact nodeColor_faithful.length_write h
  | connectivity c => exact connectivity_faithful.length_write h
  | dataPoint d => exact dataPoint_faithful.length_write h
  | nodeStatus n => exact nodeStatus_faithful.length_write h
  | seek q => exact position_faithful.length_write h
  | start => cases h; rfl
  | stop => cases h; rfl
  | speed s => exact binary32_fixed.length_write h
  | playbackTimeRange min max => exact (int64_fixed.seq int64_fixed).length_write h
  | listStreams streams => exact streamList_faithful.length_write h
  | subscribeStream uid => exact word32_fixed.length_write h
  | streamDescription d => exact (text_faithful _).length_write h
  | hello version => exact word16_fixed.length_write h
  | unknown tag body => cases h; rfl

/-- The body of a payload reads back to its end. -/
theorem readFields_writeBody {p : Payload} {b : Bytes} (hp : p.Regular)
    (h : writeBody p = .ok b) : readFields p.kind b = .ok (p, []) := by
  rw [← List.append_nil b]
  cases p with
  | status s => exact status_fixed.readAs trivial h _ _
  | test n => exact note_faithful.readAs trivial h _ _
  | gps g => exact gps_faithful.readAs trivial h _ _
  | label l => exact label_faithful.readAs trivial h _ _
  | edge e => exact edge_faithful.readAs trivial h _ _
  | color c => exact nodeColor_faithful.readAs trivial h _ _
  | connectivity c => exact connectivity_faithful.readAs trivial h _ _
  | dataPoint d => exact dataPoint_faithful.readAs trivial h _ _
  | nodeStatus n => exact nodeStatus_faithful.readAs trivial h _ _
  | seek q => exact position_faithful.readAs hp h _ _
  | start => cases h; rfl
  | stop => cases h; rfl
  | speed s => exact binary32_fixed.readAs trivial h _ _
  | playbackTimeRange min max =>
    exact (int64_fixed.seq int64_fixed).readAs ⟨trivial, trivial⟩ h _ _
  | listStreams streams => exact streamList_faithful.readAs trivial h _ _
  | subscribeStream uid => exact word32_fixed.readAs trivial h _ _
  | streamDescription d => exact (text_faithful _).readAs trivial h _ _
  | hello version => exact word16_fixed.readAs trivial h _ _
  | unknown tag body => cases h; simp [readFields, Payload.kind]

theorem readBody_writeBody {p : Payload} {b : Bytes} (hp : p.Regular) (h : writeBody p = .ok b)
    (version : UInt16) : readBody p.kind version b = .ok p := by
  simp [readBody, readFields_writeBody hp h]

end Wire

end EventRelay
