import EventRelay.Proofs.Forwarded
import EventRelay.Proofs.Operations
import EventRelay.Settings

/-!
# What becomes of replies

Every request that asks for a reply gets one. Most replies are as short as a status, or no longer
than the request was, and so go out wherever the request came in. The listing of the streams grows
with the catalog and with the descriptions, each of which came in a frame of its own. It goes out as
long as it fits into one frame, and a batch of replies is written as a whole just if all listings in
it do.
-/

namespace EventRelay

open Wire

/-- It is to be answered. -/
def Payload.asks : Payload → Bool
  | .hello _ | .playbackTimeRange .. | .listStreams _ | .subscribeStream _
  | .streamDescription _ => true
  | _ => false

/-! ## Descriptions -/

namespace Hub

variable {h : Hub} {op : Operation}

/-- Each description is short enough to be listed. -/
def Terse (h : Hub) : Prop := ∀ text ∈ h.descriptions, text.utf8ByteSize ≤ maxFieldLength

theorem Terse.apply (ht : h.Terse) (serves : op.Serves (·.utf8ByteSize ≤ maxFieldLength)) :
    (h.apply op).Terse := by
  unfold Terse
  rw [descriptions_apply]
  cases op with
  | create =>
    simp only [List.forall_mem_append, List.forall_mem_singleton]
    exact ⟨ht, Nat.zero_le _⟩
  | describe i text =>
    intro text' hm
    obtain ⟨j, hj, rfl⟩ := List.mem_iff_getElem.1 hm
    rw [List.getElem_modify]
    split_ifs
    · exact serves
    · exact ht _ (List.getElem_mem _)
  | _ => exact ht

/-- The streams as a session is told. -/
def listing (h : Hub) : Message := h.stamp (.listStreams h.listStreams)

theorem Terse.listStreams (ht : h.Terse) :
    ∀ s ∈ h.listStreams, s.description.utf8ByteSize ≤ maxFieldLength := by
  intro s hs
  obtain ⟨e, -, rfl⟩ := List.mem_map.1 hs
  dsimp only
  rw [part_eq_getD (·.description), ← Hub.descriptions, List.getD_eq_getElem?_getD]
  rcases he : h.descriptions[e.2]? with _ | text
  · exact Nat.zero_le _
  · exact ht text (List.mem_of_getElem? he)

end Hub

/-! ## Replies -/

/-- A message that is no listing, and can be sent alone and read back. -/
structure Message.Sendable (m : Message) (limit : Nat) : Prop where
  other : ∀ streams, m.payload ≠ .listStreams streams
  fits : m.payload.Fits
  regular : m.payload.Regular
  recordSize : m.recordSize ≤ limit

theorem Hub.sendable_status {limit : Nat} (least : 17 ≤ limit) (h : Hub) (status : Status) :
    (h.stamp (.status status)).Sendable limit :=
  ⟨by rintro _ ⟨⟩, by simp [Payload.Fits, Hub.stamp, Message.current], trivial, least⟩

namespace Desk

/-- A control message is answered once if it is to be answered, and otherwise not. -/
theorem length_handleControl (d : Desk) (m : Message) :
    (d.handleControl m).2.length = if m.payload.asks then 1 else 0 := by
  obtain ⟨timestamp, version, payload⟩ := m
  cases payload <;> rfl

theorem reply_subscribe (d : Desk) (uid : UInt32) :
    ∃ (h : Hub) (status : Status), (d.subscribe uid).2 = h.stamp (.status status) := by
  unfold Desk.subscribe
  split
  · exact ⟨_, _, rfl⟩
  split
  · exact ⟨_, _, rfl⟩
  · dsimp only
    split_ifs
    · exact ⟨_, _, rfl⟩
    · exact ⟨_, _, rfl⟩

/-- A reply lists the streams, or it can be sent where the run came in. -/
theorem reply_handleRun {d : Desk} {run : Run} {limit : Nat} (least : 17 ≤ limit)
    (room : ∀ q ∈ run.messages, q.recordSize ≤ limit) {m : Message}
    (hm : m ∈ (d.handleRun run).2) :
    m = d.hub.listing ∨ m.Sendable limit := by
  cases run with
  | data events =>
    rw [Desk.handleRun, Desk.handleData] at hm
    split_ifs at hm
    · cases hm
    · dsimp only at hm
      split_ifs at hm
      · rw [List.mem_singleton.1 hm]
        exact .inr (Hub.sendable_status least _ .nack)
      · cases hm
  | control q =>
    obtain ⟨timestamp, version, payload⟩ := q
    have size := room _ (List.mem_singleton_self _)
    cases payload with
    | hello version =>
      rw [List.mem_singleton.1 hm]
      split_ifs
      · exact .inr ⟨by rintro _ ⟨⟩, by simp [Payload.Fits, Hub.stamp, Message.current], trivial,
          size⟩
      · exact .inr (Hub.sendable_status least _ .nack)
    | playbackTimeRange =>
      rw [List.mem_singleton.1 hm]
      exact .inr ⟨by rintro _ ⟨⟩,
        by simp [Payload.Fits, Hub.rangeMessage, Hub.stamp, Message.current], trivial, size⟩
    | listStreams => exact .inl (List.mem_singleton.1 hm)
    | subscribeStream uid =>
      obtain ⟨h, status, reply⟩ := d.reply_subscribe uid
      have same : m = (d.subscribe uid).2 := List.mem_singleton.1 hm
      rw [same, reply]
      exact .inr (Hub.sendable_status least h status)
    | streamDescription text =>
      rw [List.mem_singleton.1 hm]
      exact .inr (Hub.sendable_status least _ .ack)
    | _ => cases hm

end Desk

namespace Wire.Framing

variable {f : Framing} {m : Message} {h : Hub}

/-- It is no listing of streams, or one that goes into a frame of its own: there are not too many
streams to be counted, and each takes its uid, the length of its description, and that. -/
def Lists (f : Framing) (m : Message) : Prop :=
  ∀ streams, m.payload = .listStreams streams → streams.length ≤ 65535 ∧
    18 + (streams.map fun s => 6 + s.description.utf8ByteSize).sum ≤ f.limit

theorem encode_singleton_listStreams_iff {streams : List StreamInfo}
    (hm : m.payload = .listStreams streams) : (∃ frame, f.encode [m] = .ok frame) ↔
      (∀ s ∈ streams, s.description.utf8ByteSize ≤ 65535) ∧ streams.length ≤ 65535 ∧
        18 + (streams.map fun s => 6 + s.description.utf8ByteSize).sum ≤ f.limit := by
  have size : m.recordSize = 18 + (streams.map fun s => 6 + s.description.utf8ByteSize).sum := by
    simp only [Message.recordSize, hm, Payload.wireSize, recordHeaderSize, ← Nat.add_assoc,
      Nat.reduceAdd]
  rw [encode_singleton_iff, size, hm, Payload.Fits, and_assoc]
  simp [maxFieldLength]

/-- Whatever goes into a frame of its own is short enough if it is a listing. -/
theorem lists_of_encode {frame : Bytes} (h : f.encode [m] = .ok frame) : f.Lists m :=
  fun _ hm => ((encode_singleton_listStreams_iff hm).1 ⟨frame, h⟩).2

theorem encode_listing (terse : h.Terse) (lists : f.Lists h.listing) :
    ∃ frame, f.encode [h.listing] = .ok frame :=
  (encode_singleton_listStreams_iff rfl).2 ⟨terse.listStreams, lists _ rfl⟩

/-- What is written of a batch decodes to its parts. -/
theorem decode_writeFrames {batch : List Message} (apart : f.Apart batch)
    (regular : ∀ m ∈ batch, m.payload.Regular) : ∃ parts frames, Parts batch parts ∧
      List.Forall₂ (fun part frame => f.decode frame = .ok part) parts frames ∧
      writeFrames f [batch] = frames.flatten := by
  have aparts : ∀ batch' ∈ [batch], f.Apart batch' := List.forall_mem_singleton.2 apart
  obtain ⟨groups, frames, groupParts, encodes, written⟩ := writeFrames_parts aparts
  obtain ⟨parts, _, whole, none, rfl⟩ := List.forall₂_cons_left_iff.1 groupParts
  cases none
  rw [List.flatten_singleton] at encodes
  have regulars : ∀ part ∈ parts, ∀ m ∈ part, m.payload.Regular := fun part hpart m hm =>
    regular m (whole.flatten_eq ▸ List.mem_flatten_of_mem hpart hm)
  have both := (List.forall₂_and_left parts frames).2 ⟨regulars, encodes⟩
  exact ⟨parts, frames, whole, both.imp fun _ _ hp => decode_of_encode hp.1 hp.2, written⟩

end Wire.Framing

/-! ## The relay -/

theorem Message.fromWire_of_decode {f : Framing} {frame : Bytes} {batch : List Message}
    (h : f.decode frame = .ok batch) : ∀ m ∈ batch, m.FromWire := by
  unfold Framing.decode at h
  split at h
  · cases h
  dsimp only at h
  split_ifs at h
  split at h
  · cases h
  · next decoded =>
    cases h
    exact fun m hm => ⟨_, _, _, decoded, hm⟩

namespace Relay

open Hub

/-- What a session handles was read from a payload. -/
def Act.FromWire : Act → Prop
  | .handle _ run => ∀ m ∈ run.messages, m.FromWire
  | _ => True

section Replies

variable {r : Relay}

theorem fromWire_frame {f : Framing} {frame : Bytes} {batch : List Message} {s : SessionId}
    (h : f.decode frame = .ok batch) : ∀ act ∈ Relay.frame s batch, act.FromWire := by
  intro act ha
  obtain ⟨run, hrun, rfl⟩ := List.mem_map.1 ha
  exact fun m hm => Message.fromWire_of_decode h m
    (((Run.ofBatch_cuts batch).sublist hrun).subset hm)

theorem terse_steps {acts : List Act} (terse : r.hub.Terse) (wire : ∀ act ∈ acts, act.FromWire) :
    (r.steps acts).hub.Terse := by
  refine (leads_steps fun act ha text ht => ?_).keeps (fun _ _ serves ht => ht.apply serves) terse
  have read := wire act ha
  unfold Act.texts at ht
  split at ht
  · exact (read _ (List.mem_singleton_self _)).fits.1 text ht
  · cases ht

theorem mem_gather {f : Relay → Act → List Message} {m : Message} : ∀ {acts : List Act} {r : Relay},
    m ∈ gather f r acts → ∃ before act, before ++ [act] <+: acts ∧ m ∈ f (r.steps before) act
  | act :: acts, r, hm => by
    rcases List.mem_append.1 hm with now | later
    · exact ⟨[], act, by simp, now⟩
    · obtain ⟨before, act', front, hm⟩ := mem_gather later
      exact ⟨act :: before, act', by simpa using front, hm⟩

/-- What a frame is answered with lists the streams, or it can be sent where the frame came in. -/
theorem reply_handleBatch {f : Framing} {frame : Bytes} {batch : List Message} {s : SessionId}
    (least : 17 ≤ f.limit) (hs : s < r.sessions.length) (h : f.decode frame = .ok batch)
    {m : Message} (hm : m ∈ (r.handleBatch s batch).2) :
    (∃ before, before <+: Relay.frame s batch ∧ m = (r.steps before).hub.listing) ∨
      m.Sendable f.limit := by
  rw [handleBatch_eq_frame hs] at hm
  obtain ⟨before, act, front, answer⟩ := mem_gather hm
  obtain ⟨run, hrun, rfl⟩ := List.mem_map.1 (front.subset (by simp : act ∈ before ++ [act]))
  have room : ∀ q ∈ run.messages, q.recordSize ≤ f.limit := fun q hq =>
    (List.le_sum_of_mem (List.mem_map_of_mem
      (((Run.ofBatch_cuts batch).sublist hrun).subset hq))).trans (Framing.holds_of_decode h).limit
  refine (Desk.reply_handleRun least room answer).imp_left fun listing => ?_
  exact ⟨before, (List.prefix_append ..).trans front, listing⟩

end Replies

/-- A session of a relay that has handled nothing but what was read from payloads sends a frame
that decodes. It is answered run by run, and each control message that asks for a reply gets one.
Every reply goes into a frame, but for a listing of the streams of the catalog that is too long for
one. Just if there is no such listing, all replies are written: in frames that decode to parts of
them. -/
theorem writes_replies (limit : Nat) (least : 17 ≤ limit) (archive : Archive)
    (config : ReplayConfig) (epoch : Int64) (readOnly : Bool) (acts : List Act)
    (wire : ∀ act ∈ acts, act.FromWire) {s : SessionId}
    (hs : s < ((start archive config epoch readOnly).steps acts).sessions.length) {frame : Bytes}
    {batch : List Message} (h : (Framing.ofLimit limit).decode frame = .ok batch) :
    let f := Framing.ofLimit limit
    let r := (start archive config epoch readOnly).steps acts
    let replies := (r.handleBatch s batch).2
    (Run.Cuts batch (Run.ofBatch batch) ∧ replies = gather answers r (Relay.frame s batch) ∧
      ∀ (r : Relay) (m : Message),
        (r.answers (.handle s (.control m))).length = if m.payload.asks then 1 else 0) ∧
    (∀ m ∈ replies, ∀ streams, m.payload = .listStreams streams →
      ∃ before, before <+: Relay.frame s batch ∧ streams = (r.steps before).hub.listStreams) ∧
    (∀ m ∈ replies, (∃ frame, f.encode [m] = .ok frame) ↔ f.Lists m) ∧
    ((f.frames replies).failure = none ↔ ∀ m ∈ replies, f.Lists m) ∧
    ((∀ m ∈ replies, f.Lists m) → ∃ parts frames, Framing.Parts replies parts ∧
      List.Forall₂ (fun part frame => f.decode frame = .ok part) parts frames ∧
      writeFrames f [replies] = frames.flatten) := by
  intro f r replies
  have least' : 17 ≤ f.limit := le_min least (by decide)
  have cases' := fun m (hm : m ∈ replies) => reply_handleBatch least' hs h hm
  have terse : ∀ before, before <+: Relay.frame s batch → (r.steps before).hub.Terse :=
    fun before front => terse_steps (terse_steps nofun wire) fun act ha =>
      fromWire_frame h act (front.subset ha)
  have encodes : ∀ m ∈ replies, (∃ frame, f.encode [m] = .ok frame) ↔ f.Lists m := by
    intro m hm
    rcases cases' m hm with ⟨before, front, rfl⟩ | sendable
    · exact ⟨fun ⟨_, he⟩ => Framing.lists_of_encode he, Framing.encode_listing (terse before front)⟩
    · have alone := Framing.encode_singleton_iff.2 ⟨sendable.fits, sendable.recordSize⟩
      exact iff_of_true alone fun streams he => absurd he (sendable.other streams)
  have regular : ∀ m ∈ replies, m.payload.Regular := by
    intro m hm
    rcases cases' m hm with ⟨before, -, rfl⟩ | sendable
    · exact trivial
    · exact sendable.regular
  refine ⟨⟨Run.ofBatch_cuts batch, ?_, fun r m => (r.desk s).length_handleControl m⟩,
    fun m hm streams he => ?_, encodes, ?_, fun lists => ?_⟩
  · exact congrArg Prod.snd (handleBatch_eq_frame hs batch)
  · rcases cases' m hm with ⟨before, front, rfl⟩ | sendable
    · exact ⟨before, front, (Payload.listStreams.inj he).symm⟩
    · exact absurd he (sendable.other streams)
  · rw [Framing.failure_frames_iff]
    exact forall₂_congr encodes
  · exact Framing.decode_writeFrames (fun m hm => (encodes m hm).2 (lists m hm)) regular

/-- A greeting and a request for the streams, of which there is one. No frame is large enough for
both replies, so they are written in two. -/
theorem writes_replies_described :
    let f := Framing.ofLimit 40
    let r := (start ⟨.memory, fun _ => false⟩ ⟨10, 250, by decide, by decide⟩ 0 false).steps
      [.accept 4, .handle 0 (.control ⟨0, 1, .streamDescription "ab"⟩)]
    let replies := (r.handleBatch 0 [⟨0, 1, .hello protocolVersion⟩, ⟨0, 1, .listStreams []⟩]).2
    replies = [.current 0 (.hello protocolVersion), .current 0 (.listStreams [⟨1, "ab"⟩])] ∧
      (f.frames replies).failure = none ∧ ∃ parts frames, Framing.Parts replies parts ∧
        List.Forall₂ (fun part frame => f.decode frame = .ok part) parts frames ∧
        writeFrames f [replies] = frames.flatten := by
  intro f r replies
  have wire : ∀ act ∈ [Act.accept 4, .handle 0 (.control ⟨0, 1, .streamDescription "ab"⟩)],
      act.FromWire := by
    have read : decodePayload (RawRecord.bytes ⟨27, 1, 0, [0, 2, 97, 98]⟩) 1 =
        .ok [⟨0, 1, .streamDescription "ab"⟩] := by decide +kernel
    refine List.forall_mem_cons.2 ⟨trivial, List.forall_mem_singleton.2 fun m hm => ?_⟩
    rw [List.mem_singleton.1 hm]
    exact ⟨_, _, _, read, List.mem_singleton_self _⟩
  have decoded : f.decode (RawRecord.frame [⟨28, 1, 0, [0, 1]⟩, ⟨25, 1, 0, [0, 0]⟩]) =
      .ok [⟨0, 1, .hello protocolVersion⟩, ⟨0, 1, .listStreams []⟩] := by decide +kernel
  have answered : replies =
      [.current 0 (.hello protocolVersion), .current 0 (.listStreams [⟨1, "ab"⟩])] := by
    decide +kernel
  obtain ⟨-, -, -, all, written⟩ := writes_replies 40 (by decide) ⟨.memory, fun _ => false⟩
    ⟨10, 250, by decide, by decide⟩ 0 false _ wire (s := 0) (by decide) decoded
  have lists : ∀ m ∈ replies, f.Lists m := by
    rw [answered]
    refine List.forall_mem_cons.2 ⟨nofun, List.forall_mem_singleton.2 fun streams he => ?_⟩
    rw [← Payload.listStreams.inj he]
    decide
  exact ⟨answered, all.2 lists, written lists⟩

/-- With a limit that settings allow, and that both requests and every status keep, a session starts
its stream and asks for the streams. The listing that it is answered with has no frame, and nothing
is written. -/
theorem listing_unsent :
    let settings : Settings := { maxMessageSize := 18 }
    let f := settings.framing
    let r := (start ⟨.memory, fun _ => false⟩ settings.replay 0 false).steps
      [.accept 4, .handle 0 (.control ⟨0, 1, .start⟩)]
    let replies := (r.handleBatch 0 [⟨0, 1, .listStreams []⟩]).2
    settings.flaw? = none ∧ f.decode (RawRecord.frame [⟨21, 1, 0, []⟩]) = .ok [⟨0, 1, .start⟩] ∧
      f.decode (RawRecord.frame [⟨25, 1, 0, [0, 0]⟩]) = .ok [⟨0, 1, .listStreams []⟩] ∧
      replies = [.current 0 (.listStreams [⟨1, ""⟩])] ∧
      f.encode replies = .error (.frameTooLarge 24 18) ∧ writeFrames f [replies] = [] := by
  intro settings f r replies
  have answered : replies = [.current 0 (.listStreams [⟨1, ""⟩])] := by decide +kernel
  have refused : f.encode [.current 0 (.listStreams [⟨1, ""⟩])] =
      .error (.frameTooLarge 24 18) := by decide +kernel
  have unsent : f.frames [.current 0 (.listStreams [⟨1, ""⟩])] =
      ⟨[], some (.frameTooLarge 24 18)⟩ := by
    rw [Framing.frames, refused]
    rfl
  refine ⟨by decide +kernel, by decide +kernel, by decide +kernel, answered, ?_, ?_⟩
  · rw [answered, refused]
  · rw [answered, writeFrames_cons, unsent]
    rfl

end Relay

end EventRelay
