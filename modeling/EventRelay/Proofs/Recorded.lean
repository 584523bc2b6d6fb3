import EventRelay.Proofs.HandOff
import EventRelay.Proofs.Heard
import EventRelay.Proofs.Inert
import EventRelay.Proofs.Insertion
import EventRelay.Proofs.NormalForm
import Mathlib.Data.List.Chain

/-!
# What is recorded

Frames are cut into runs of events and single messages of other kinds. While the relay records, the
store is the log of all runs but those that were refused, in the order in which they were handled;
nothing else that happens adds to it or takes from it. A run that came in as bytes can always be
stored. Whether or not a run is stored, it is broadcast.
-/

namespace EventRelay

/-! ## Cutting a frame into runs -/

namespace Run

def messages : Run → List Message
  | data events => events
  | control m => [m]

def IsData : Run → Prop
  | data _ => True
  | control _ => False

/-- Some events, or a message that is none. -/
def Cut : Run → Prop
  | data events => events ≠ [] ∧ ∀ m ∈ events, m.isData = true
  | control m => m.isData = false

instance : DecidablePred Cut
  | data _ => inferInstanceAs (Decidable (_ ∧ _))
  | control _ => inferInstanceAs (Decidable (_ = _))

/-- A batch falls into these runs, and no two runs of events come one after the other. -/
structure Cuts (batch : List Message) (runs : List Run) : Prop where
  messages : runs.flatMap messages = batch
  cut : ∀ run ∈ runs, run.Cut
  maximal : runs.IsChain fun a b => ¬(a.IsData ∧ b.IsData)

section Cuts

variable {m : Message} {ms events : List Message} {runs : List Run}

theorem Cuts.extend (h : Cuts ms (.data events :: runs)) (hd : m.isData = true) :
    Cuts (m :: ms) (.data (m :: events) :: runs) where
  messages := congrArg (m :: ·) h.messages
  cut := by
    obtain ⟨⟨-, data⟩, rest⟩ := List.forall_mem_cons.1 h.cut
    exact List.forall_mem_cons.2 ⟨⟨nofun, List.forall_mem_cons.2 ⟨hd, data⟩⟩, rest⟩
  maximal := List.isChain_cons.2 (List.isChain_cons.1 h.maximal)

theorem Cuts.begin (h : Cuts ms runs) (hd : m.isData = true)
    (apart : ∀ run ∈ runs.head?, ¬run.IsData) : Cuts (m :: ms) (.data [m] :: runs) where
  messages := congrArg (m :: ·) h.messages
  cut := List.forall_mem_cons.2 ⟨⟨nofun, by simpa using hd⟩, h.cut⟩
  maximal := List.isChain_cons.2 ⟨fun run hrun both => apart run hrun both.2, h.maximal⟩

theorem Cuts.single (h : Cuts ms runs) (hd : m.isData = false) :
    Cuts (m :: ms) (.control m :: runs) where
  messages := congrArg (m :: ·) h.messages
  cut := List.forall_mem_cons.2 ⟨hd, h.cut⟩
  maximal := List.isChain_cons.2 ⟨fun _ _ both => both.1, h.maximal⟩

end Cuts

theorem ofBatch_cuts : ∀ batch : List Message, Cuts batch (ofBatch batch)
  | [] => ⟨rfl, nofun, .nil⟩
  | m :: ms => by
    have rest := ofBatch_cuts ms
    rw [ofBatch]
    split_ifs with hd
    · split
      · next events runs he => exact (he ▸ rest).extend hd
      · next runs apart =>
        refine rest.begin hd fun run hrun => ?_
        cases run with
        | data events =>
          obtain ⟨runs', he⟩ := List.head?_eq_some_iff.1 hrun
          exact absurd he (apart events runs')
        | control m => exact id
    · exact rest.single (by simpa using hd)

end Run

/-! ## Messages that came in as bytes -/

/-- The message was decoded from a payload. -/
def Message.FromWire (m : Message) : Prop :=
  ∃ bytes count ms, Wire.decodePayload bytes count = .ok ms ∧ m ∈ ms

theorem Wire.fits_of_reads {rs : List RawRecord} {ms : List Message}
    (h : List.Forall₂ RawRecord.Reads rs ms) : ∀ m ∈ ms, m.payload.Fits := by
  induction h with
  | nil => nofun
  | cons hr _ ih =>
    exact List.forall_mem_cons.2 ⟨(writeBody_ok_iff _).1 ⟨_, hr.writeBody_ok⟩, ih⟩

/-- What could be read can be written again. -/
theorem Message.FromWire.fits {m : Message} (h : m.FromWire) : m.payload.Fits := by
  obtain ⟨bytes, count, ms, hdecode, hm⟩ := h
  obtain ⟨rs, new, rfl, -, -, reads⟩ := Wire.readRecords_ok hdecode
  exact Wire.fits_of_reads reads m hm

theorem Message.FromWire.storable {m : Message} (h : m.FromWire) (hd : m.isData = true) :
    m.Storable := ⟨hd, h.fits⟩

/-! ## The store -/

namespace Desk

open Hub

theorem archive_onStream (d : Desk) {f : Hub → StreamId → Hub}
    (confined : ∀ h i, Confined i h (f h i)) : (d.onStream f).hub.archive = d.hub.archive :=
  (confined _ _).archive.trans (Relay.archive_streamFor d)

theorem archive_leave (d : Desk) (i : StreamId) : (d.leave i).hub.archive = d.hub.archive := by
  unfold Desk.leave removeIfAbandoned
  have left := (confined_removeSubscriber d.hub i d.session.connection).archive
  dsimp only
  split_ifs
  · exact left
  · exact left

theorem archive_subscribe (d : Desk) (uid : UInt32) :
    (d.subscribe uid).1.hub.archive = d.hub.archive := by
  unfold Desk.subscribe
  split
  · rfl
  split
  · exact archive_addSubscriber ..
  · dsimp only
    split_ifs
    · rfl
    · exact (archive_addSubscriber ..).trans (archive_leave d _)

theorem archive_handleControl (d : Desk) (m : Message) :
    (d.handleControl m).1.hub.archive = d.hub.archive := by
  obtain ⟨timestamp, version, payload⟩ := m
  cases payload with
  | start => exact d.archive_onStream confined_startStream
  | stop => exact d.archive_onStream confined_stopStream
  | seek p => exact d.archive_onStream (confined_seekStream · · p)
  | speed x => exact d.archive_onStream (confined_setSpeed · · x)
  | subscribeStream uid => exact d.archive_subscribe uid
  | streamDescription text => exact d.archive_onStream (confined_describe · · text)
  | _ => rfl

theorem archive_disconnect (d : Desk) : d.disconnect.hub.archive = d.hub.archive := by
  unfold Desk.disconnect
  split
  · rfl
  · exact archive_leave ..

end Desk

/-! ## The broadcast -/

namespace Connection

variable {c : Connection} {batch : List Message}

theorem mem_queue_send (h : batch ∈ c.queue) : batch ∈ (c.send batch).1.queue := by
  unfold send close
  split_ifs
  · exact h
  · exact h
  · exact List.mem_append_left _ h
  · exact h

/-- Sent as often as may be, a batch is queued where there was room for it. -/
theorem mem_queue_of_room (opened : c.closed = false) (room : c.HasRoom) :
    ∀ n : Nat, batch ∈ ((fun x => (send x batch).1)^[n + 1] c).queue
  | 0 => by
    rw [Function.iterate_one, send_of_room opened room]
    exact List.mem_append_right _ (List.mem_singleton_self _)
  | n + 1 => by
    rw [Function.iterate_succ_apply']
    exact mem_queue_send (mem_queue_of_room opened room n)

end Connection

namespace Hub

variable {h : Hub} {c : ConnId}

/-- A connection has been sent a batch `n` times. -/
def Resent (n : Nat) (c : ConnId) (batch : List Message) (h h' : Hub) : Prop :=
  h'.connection c = (fun x => (Connection.send x batch).1)^[n] (h.connection c)

theorem Resent.trans {m n : Nat} {batch : List Message} {h' h'' : Hub}
    (h₁ : Resent m c batch h h') (h₂ : Resent n c batch h' h'') : Resent (n + m) c batch h h'' := by
  rw [Resent, h₂, h₁, Function.iterate_add_apply]

theorem resent_sendTo (d : ConnId) (batch : List Message) :
    ∃ n, Resent n c batch h (h.sendTo d batch).1 ∧ (d = c → h.isAlive c = true → 0 < n) := by
  by_cases hd : d = c
  · subst hd
    by_cases ha : h.isAlive d = true
    · exact ⟨1, (sendTo_self ha batch).1, fun _ _ => Nat.one_pos⟩
    · refine ⟨0, ?_, fun _ alive => absurd alive ha⟩
      rw [sendTo, if_pos (by simpa using ha)]
      rfl
  · exact ⟨0, sendTo_ne hd batch, fun he => absurd he hd⟩

theorem resent_sendAll (batch : List Message) : ∀ (cs : List ConnId) (h : Hub), ∃ n,
    Resent n c batch h (h.sendAll batch cs).1 ∧ (c ∈ cs → h.isAlive c = true → 0 < n)
  | [], _ => ⟨0, rfl, nofun⟩
  | d :: cs, h => by
    obtain ⟨m, sent, first⟩ := resent_sendTo (h := h) (c := c) d batch
    obtain ⟨n, more, later⟩ := resent_sendAll batch cs (h.sendTo d batch).1
    refine ⟨n + m, sent.trans more, fun hc ha => ?_⟩
    rcases List.mem_cons.1 hc with rfl | hc
    · exact Nat.add_pos_right n (first rfl ha)
    · exact Nat.add_pos_left (later hc ((hushed_sendTo d batch).alive.trans ha)) m

theorem resent_send (i : StreamId) (batch : List Message) : ∃ n,
    Resent n c batch h (h.send i batch).1 ∧ (c ∈ h.audience i → 0 < n) := by
  obtain ⟨n, sent, pos⟩ := resent_sendAll (c := c) batch (h.stream i).subscribers h
  exact ⟨n, sent, fun hc => pos (Confined.mem_audience.1 hc).1 (Confined.mem_audience.1 hc).2⟩

theorem resent_sendStreams (batch : List Message) : ∀ (is : List StreamId) (h : Hub), ∃ n,
    Resent n c batch h (h.sendStreams batch is).1 ∧ ∀ i ∈ is, c ∈ h.audience i → 0 < n
  | [], _ => ⟨0, rfl, nofun⟩
  | j :: is, h => by
    obtain ⟨m, sent, first⟩ := resent_send (h := h) (c := c) j batch
    obtain ⟨n, more, later⟩ := resent_sendStreams batch is (h.send j batch).1
    refine ⟨n + m, sent.trans more, fun i hi hc => ?_⟩
    by_cases hj : i = j
    · exact Nat.add_pos_right n (first (hj ▸ hc))
    · have confined := confined_send h j batch
      have still : c ∈ (h.send j batch).1.audience i := by
        rw [Confined.mem_audience, confined.others i hj, confined.alive]
        exact Confined.mem_audience.1 hc
      exact Nat.add_pos_left (later i ((List.mem_cons.1 hi).resolve_left hj) still) m

theorem connections_unsubscribeAll : ∀ (is : List StreamId) (h : Hub),
    (is.foldl unsubscribeIfIdle h).connections = h.connections
  | [], _ => rfl
  | _ :: is, _ => (connections_unsubscribeAll is _).trans silent_unsubscribeIfIdle.connections

/-- Whoever watches a stream of the live set, and has room, is queued what is broadcast. -/
theorem mem_queue_broadcast {batch : List Message} (some : batch ≠ []) {e : UInt32 × StreamId}
    (he : e ∈ h.live) (hc : c ∈ h.audience e.2) (opened : (h.connection c).closed = false)
    (room : (h.connection c).HasRoom) :
    batch ∈ ((h.broadcast batch).connection c).queue := by
  obtain ⟨n, sent, pos⟩ := resent_sendStreams (c := c) batch (h.live.map (·.2)) h
  have same : (h.broadcast batch).connection c =
      (h.sendStreams batch (h.live.map (·.2))).1.connection c := by
    rw [broadcast, if_neg some, connection, connections_unsubscribeAll]
    rfl
  obtain ⟨k, rfl⟩ := Nat.exists_eq_succ_of_ne_zero
    (Nat.pos_iff_ne_zero.1 (pos e.2 (List.mem_map_of_mem he) hc))
  rw [same, sent]
  exact Connection.mem_queue_of_room opened room k

end Hub

namespace Relay

/-- What is not a run of events leaves the store as it is. -/
theorem store_step (r : Relay) {act : Act} (other : ∀ s run, act ≠ .handle s (.data run)) :
    (r.step act).hub.archive.store = r.hub.archive.store := by
  cases act with
  | handle s run =>
    cases run with
    | data events => exact absurd rfl (other s events)
    | control m => exact congrArg Archive.store ((r.desk s).archive_handleControl m)
  | disconnect s => exact congrArg Archive.store (r.desk s).archive_disconnect
  | tick i =>
    rw [step]
    split
    · rfl
    · exact congrArg Archive.store (Hub.confined_fire r.hub i _).archive
  | late i epoch => exact congrArg Archive.store (Hub.confined_fire r.hub i epoch).archive
  | _ => rfl

/-- The acts of a frame: its runs, one by one. -/
def frame (s : SessionId) (batch : List Message) : List Act := (Run.ofBatch batch).map (.handle s)

/-- What an act is answered with. -/
def answers (r : Relay) : Act → List Message
  | .handle s run => ((r.desk s).handleRun run).2
  | _ => []

/-- An act is answered with a refusal. -/
def refuses (r : Relay) (act : Act) : Bool :=
  (r.answers act).any fun m => m.payload = .status .nack

/-- The events of an act that is not refused. -/
def recorded (r : Relay) (act : Act) : List Message := if r.refuses act then [] else act.events

/-- Runs are as they are cut from frames. -/
def Act.Cut : Act → Prop
  | .handle _ run => run.Cut
  | _ => True

instance : DecidablePred Act.Cut
  | .handle _ run => inferInstanceAs (Decidable run.Cut)
  | .accept _ | .disconnect _ | .vanish _ | .reply .. | .drain _ | .close _ | .dropWriter _
  | .drop _ | .tick _ | .late .. | .wait _ | .fail .. => inferInstanceAs (Decidable True)

section Step

variable {r : Relay} {s : SessionId} {run : List Message}

theorem refuses_data (r : Relay) (s : SessionId) (run : List Message) :
    r.refuses (.handle s (.data run)) =
      (!r.readOnly && (r.hub.archive.appendBatch run).2.isSome) := by
  have desk : (r.desk s).readOnly = r.readOnly := rfl
  rw [refuses, answers, Desk.handleRun, Desk.handleData, desk]
  cases r.readOnly
  · rcases hb : (r.desk s).hub.archive.appendBatch run with ⟨archive, e⟩
    have hub : r.hub.archive.appendBatch run = (archive, e) := hb
    rw [hub]
    cases e <;> simp [Desk.nack, Hub.stamp, Message.current]
  · rfl

theorem hub_step_data (r : Relay) (s : SessionId) (run : List Message) :
    (r.step (.handle s (.data run))).hub =
      (if r.readOnly then r.hub else r.hub.stored run).broadcast run := by
  rw [step, Desk.handleRun, Desk.handleData_eq]
  rfl

theorem archive_step_data (r : Relay) (s : SessionId) (run : List Message) :
    (r.step (.handle s (.data run))).hub.archive =
      if r.readOnly then r.hub.archive else (r.hub.archive.appendBatch run).1 := by
  rw [hub_step_data, Hub.inert_archive.broadcast]
  split_ifs <;> rfl

theorem store_refused (data : ∀ m ∈ run, m.isData = true)
    (refused : r.refuses (.handle s (.data run)) = true) :
    (r.step (.handle s (.data run))).hub.archive.store = r.hub.archive.store := by
  rw [refuses_data, Bool.and_eq_true, Bool.not_eq_true'] at refused
  obtain ⟨writable, failed⟩ := refused
  rw [archive_step_data, writable, if_neg Bool.false_ne_true]
  unfold Archive.appendBatch at failed ⊢
  split_ifs at failed ⊢
  · rfl
  · exact Store.appendBatch_refused data (Option.isSome_iff_ne_none.1 failed)

theorem store_taken (numbered : r.hub.archive.store.Numbered) (writable : r.readOnly = false)
    (taken : r.refuses (.handle s (.data run)) = false) :
    (r.step (.handle s (.data run))).hub.archive.store.Numbered ∧
      (r.step (.handle s (.data run))).hub.archive.store.events =
        r.hub.archive.store.events ++ run := by
  rw [refuses_data, writable, Bool.not_false, Bool.true_and, Option.isSome_eq_false_iff,
    Option.isNone_iff_eq_none] at taken
  rw [archive_step_data, writable, if_neg Bool.false_ne_true]
  unfold Archive.appendBatch at taken ⊢
  split_ifs at taken ⊢
  obtain ⟨still, events⟩ := numbered.appendBatch run
  exact ⟨still, by rw [events, Store.accepted_of_appendBatch taken]⟩

/-- An act adds to the store what it brings, unless it is refused. -/
theorem step_recorded {act : Act} (numbered : r.hub.archive.store.Numbered)
    (writable : r.readOnly = false) (cut : act.Cut) :
    (r.step act).hub.archive.store.Numbered ∧
      (r.step act).hub.archive.store.events = r.hub.archive.store.events ++ r.recorded act := by
  by_cases data : ∃ s run, act = .handle s (.data run)
  · obtain ⟨s, run, rfl⟩ := data
    rcases taken : r.refuses (.handle s (.data run)) with _ | _
    · rw [recorded, taken, if_neg Bool.false_ne_true]
      exact store_taken numbered writable taken
    · rw [recorded, taken, if_pos rfl, List.append_nil, store_refused cut.2 taken]
      exact ⟨numbered, rfl⟩
  · have other : ∀ s run, act ≠ .handle s (.data run) := fun s run he => data ⟨s, run, he⟩
    have none : act.events = [] := by
      unfold Act.events
      split
      · next s run => exact absurd rfl (other s run)
      · rfl
    rw [store_step r other, recorded, none, ite_self, List.append_nil]
    exact ⟨numbered, rfl⟩

theorem steps_recorded : ∀ {acts : List Act} {r : Relay}, r.hub.archive.store.Numbered →
    r.readOnly = false → (∀ act ∈ acts, act.Cut) →
    (r.steps acts).hub.archive.store.events =
      r.hub.archive.store.events ++ gather recorded r acts
  | [], _, _, _, _ => (List.append_nil _).symm
  | act :: acts, r, numbered, writable, cut => by
    rw [List.forall_mem_cons] at cut
    obtain ⟨still, events⟩ := step_recorded numbered writable cut.1
    have rest := steps_recorded still ((readOnly_step r act).trans writable) cut.2
    rw [gather, ← List.append_assoc, ← events]
    exact rest

theorem store_step_readOnly (r : Relay) (readOnly : r.readOnly = true) (act : Act) :
    (r.step act).hub.archive.store = r.hub.archive.store := by
  by_cases data : ∃ s run, act = .handle s (.data run)
  · obtain ⟨s, run, rfl⟩ := data
    rw [archive_step_data, if_pos readOnly]
  · exact store_step r fun s run he => data ⟨s, run, he⟩

theorem store_steps_readOnly : ∀ (acts : List Act) {r : Relay}, r.readOnly = true →
    (r.steps acts).hub.archive.store = r.hub.archive.store
  | [], _, _ => rfl
  | act :: acts, r, readOnly =>
    (store_steps_readOnly acts ((readOnly_step r act).trans readOnly)).trans
      (store_step_readOnly r readOnly act)

/-- What came in as bytes is refused only by a store that fails. -/
theorem refuses_fromWire (data : ∀ m ∈ run, m.isData = true) (wire : ∀ m ∈ run, m.FromWire)
    (up : r.hub.archive.failing .append = false) :
    r.refuses (.handle s (.data run)) = false := by
  have ok := r.hub.archive.store.appendBatch_storable fun m hm => (wire m hm).storable (data m hm)
  rw [refuses_data, Archive.appendBatch, up, if_neg Bool.false_ne_true]
  simp [ok]

theorem readOnly_steps : ∀ (acts : List Act) (r : Relay), (r.steps acts).readOnly = r.readOnly
  | [], _ => rfl
  | act :: acts, r => (readOnly_steps acts _).trans (readOnly_step r act)

end Step

/-! ### Frames -/

section Frames

variable {r : Relay} {s : SessionId}

theorem replies_handleRuns : ∀ (runs : List Run) {r : Relay}, s < r.sessions.length →
    ((r.desk s).handleRuns runs).2 = gather answers r (runs.map (.handle s))
  | [], _, _ => rfl
  | run :: runs, r, hs => by
    have there : s < (r.step (.handle s run)).sessions.length := by
      rwa [step, put, List.length_set]
    have same : (r.step (.handle s run)).desk s = ((r.desk s).handleRun run).1 :=
      desk_put hs (Desk.readOnly_handleRun _ run)
    have rest := replies_handleRuns runs there
    rw [same] at rest
    rw [Desk.handleRuns, List.map_cons, gather, ← rest]
    rfl

theorem handleBatch_eq_frame (hs : s < r.sessions.length) (batch : List Message) :
    r.handleBatch s batch = (r.steps (frame s batch), gather answers r (frame s batch)) :=
  Prod.ext (handleBatch_eq_steps hs batch) (replies_handleRuns _ hs)

/-- A message handled on its own is a frame of one. -/
theorem handle_eq_handleBatch (r : Relay) (s : SessionId) (m : Message) :
    r.handle s m = r.handleBatch s [m] := by
  simp only [handle, handleBatch, Desk.handle, Desk.handleBatch, Run.ofBatch]
  split_ifs <;> simp [Desk.handleRuns, Desk.handleRun]

end Frames

/-- What holds of every act, whatever came before it. -/
structure Records (r : Relay) (act : Act) : Prop where
  /-- Nothing but a run of events changes the store. -/
  other : (∀ s run, act ≠ .handle s (.data run)) →
    (r.step act).hub.archive.store = r.hub.archive.store
  /-- A refused run leaves nothing of it in the store. -/
  refused : ∀ s run, act = .handle s (.data run) → r.refuses act = true →
    (r.step act).hub.archive.store = r.hub.archive.store
  /-- A relay that does not record refuses no run. -/
  readOnly : ∀ s run, act = .handle s (.data run) → r.readOnly = true → r.refuses act = false
  /-- A run that came in as bytes is not refused, as long as the store is in order. -/
  wire : ∀ s run, act = .handle s (.data run) → (∀ m ∈ run, m.FromWire) →
    r.hub.archive.failing .append = false → r.refuses act = false
  /-- Every run is broadcast, and so is queued to all who watch a live stream and have room. -/
  broadcast : ∀ s run, act = .handle s (.data run) →
    (r.step act).hub = ({ r.hub with archive := (r.step act).hub.archive } : Hub).broadcast run ∧
    ∀ e ∈ r.hub.live, ∀ c ∈ r.hub.audience e.2, (r.hub.connection c).closed = false →
      (r.hub.connection c).HasRoom → run ∈ ((r.step act).hub.connection c).queue

theorem records (r : Relay) {act : Act} (cut : act.Cut) : r.Records act where
  other := r.store_step
  refused := by
    rintro s run rfl refused
    exact store_refused cut.2 refused
  readOnly := by
    rintro s run rfl readOnly
    rw [refuses_data, readOnly]
    rfl
  wire := by
    rintro s run rfl wire up
    exact refuses_fromWire cut.2 wire up
  broadcast := by
    rintro s run rfl
    have hub : (r.step (.handle s (.data run))).hub =
        ({ r.hub with archive := (r.step (.handle s (.data run))).hub.archive } : Hub).broadcast
          run := by
      rw [archive_step_data, hub_step_data]
      split_ifs <;> rfl
    refine ⟨hub, fun e he c hc opened room => ?_⟩
    rw [hub]
    exact Hub.mem_queue_broadcast cut.1 he hc opened room

/-- While a relay records, its store holds, in order of insertion, what it held at first and then
all runs of events that were not refused, in the order in which they were handled. Read-only, it
never changes. -/
theorem store_is_log (archive : Archive) (config : ReplayConfig) (epoch : Int64) (readOnly : Bool)
    (numbered : archive.store.Numbered) (acts : List Act) (cut : ∀ act ∈ acts, act.Cut) :
    let r := start archive config epoch readOnly
    (readOnly = false → (r.steps acts).hub.archive.store.events =
      archive.store.events ++ gather recorded r acts) ∧
    (readOnly = true → (r.steps acts).hub.archive.store = archive.store) ∧
    (∀ before act after, acts = before ++ act :: after →
      (r.steps before).readOnly = readOnly ∧ (r.steps before).Records act) ∧
    ∀ (r : Relay) (s : SessionId) (batch : List Message), s < r.sessions.length →
      Run.Cuts batch (Run.ofBatch batch) ∧
      r.handleBatch s batch = (r.steps (frame s batch), gather answers r (frame s batch)) ∧
      ∀ m, r.handle s m = r.handleBatch s [m] := by
  refine ⟨fun writable => steps_recorded numbered writable cut, fun closed =>
    store_steps_readOnly acts closed, fun before act after he => ⟨readOnly_steps before _, ?_⟩,
    fun r s batch hs => ⟨Run.ofBatch_cuts batch, handleBatch_eq_frame hs batch, ?_⟩⟩
  · exact records _ (cut act (by simp [he]))
  · exact handle_eq_handleBatch r s

/-- A frame of two events with a greeting between them, and an event that comes while the store is
out of order. The later of the two is the earlier by time. -/
theorem store_is_log_refused :
    let event (t : Int64) (name : String) : Message := .current t (.test ⟨name, []⟩)
    let acts : List Act := .accept 4 ::
      frame 0 [event 9 "a", .current 0 (.hello protocolVersion), event 3 "b"] ++
        [.fail .append true, .handle 0 (.data [event 5 "c"]), .fail .append false]
    let r := start ⟨.memory, fun _ => false⟩ ⟨1, 250, by decide, by decide⟩ 0 false
    Store.memory.Numbered ∧ (∀ act ∈ acts, act.Cut) ∧
      (r.steps acts).hub.archive.store.events = [event 9 "a", event 3 "b"] := by
  intro event acts r
  have cut : ∀ act ∈ acts, act.Cut := by decide
  have empty : Store.memory.events = [] := Store.Holds.memory.events_eq.2
  have recorded : gather recorded r acts = [event 9 "a", event 3 "b"] := by decide
  refine ⟨Store.numbered_memory, cut, ?_⟩
  rw [(store_is_log _ _ _ _ Store.numbered_memory acts cut).1 rfl, empty, recorded]
  rfl

end Relay

end EventRelay
