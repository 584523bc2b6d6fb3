import EventRelay.Proofs.Recorded
import EventRelay.Proofs.Recut

/-!
# A frame, or its messages one at a time

The events of a frame wait for the next control message, and are stored and broadcast together.
Handled one at a time, the messages of the frame come to the same, as long as the store takes the
events and the queues have room for as many batches: only the queues are cut in other places then.
-/

namespace EventRelay

/-! ## The store -/

namespace OrderedStore

theorem appendBatch_append (ns : List Message) : ∀ {ms : List Message} {s : OrderedStore},
    (s.appendBatch ms).2 = none → s.appendBatch (ms ++ ns) = (s.appendBatch ms).1.appendBatch ns
  | [], _, _ => rfl
  | m :: ms, s, ok => by
    rw [appendBatch] at ok ⊢
    rw [List.cons_append, appendBatch]
    cases hs : s.append m with
    | error e =>
      rw [hs] at ok
      cases ok
    | ok s' =>
      rw [hs] at ok
      exact appendBatch_append ns ok

end OrderedStore

namespace TableStore

theorem encodeAll_append {ns : List Message} {more : List (Int64 × UInt16 × Wire.Bytes)}
    (hn : encodeAll ns = .ok more) : ∀ {ms : List Message} {rows},
    encodeAll ms = .ok rows → encodeAll (ms ++ ns) = .ok (rows ++ more)
  | [], rows, hm => by
    cases hm
    exact hn
  | m :: ms, rows, hm => by
    rw [encodeAll] at hm
    rw [List.cons_append, encodeAll]
    split at hm
    · cases hm
    · split at hm
      · cases hm
      · next he =>
        cases hm
        rw [encodeAll_append hn he]
        rfl

theorem appendBatch_of_encodeAll {s : TableStore} {ms : List Message}
    {rows : List (Int64 × UInt16 × Wire.Bytes)} (he : encodeAll ms = .ok rows) :
    s.appendBatch ms =
      (rows.foldl (fun s (ts, tag, record) => s.insert ts tag record) s, none) := by
  rw [appendBatch, he]

theorem encodeAll_of_none {s : TableStore} {ms : List Message}
    (ok : (s.appendBatch ms).2 = none) : ∃ rows, encodeAll ms = .ok rows := by
  cases he : encodeAll ms with
  | ok rows => exact ⟨rows, rfl⟩
  | error e =>
    rw [appendBatch, he] at ok
    cases ok

theorem appendBatch_append {s : TableStore} {ms ns : List Message}
    (hm : (s.appendBatch ms).2 = none) (hn : ((s.appendBatch ms).1.appendBatch ns).2 = none) :
    s.appendBatch (ms ++ ns) = (s.appendBatch ms).1.appendBatch ns := by
  obtain ⟨rows, he⟩ := encodeAll_of_none hm
  obtain ⟨more, he'⟩ := encodeAll_of_none hn
  rw [appendBatch_of_encodeAll (encodeAll_append he' he), appendBatch_of_encodeAll he,
    appendBatch_of_encodeAll he', List.foldl_append]

end TableStore

namespace Archive

variable {a : Archive} {m : Message} {ms ns : List Message}

/-- The store takes the message. -/
def Accepts (a : Archive) (m : Message) : Prop := (a.appendBatch [m]).2 = none

instance (a : Archive) : DecidablePred a.Accepts :=
  fun _ => inferInstanceAs (Decidable (_ = none))

/-- A batch that is taken may be appended in two parts. -/
theorem appendBatch_append (hm : (a.appendBatch ms).2 = none)
    (hn : ((a.appendBatch ms).1.appendBatch ns).2 = none) :
    a.appendBatch (ms ++ ns) = (a.appendBatch ms).1.appendBatch ns := by
  unfold appendBatch at hm hn ⊢
  split_ifs at hm hn ⊢ with failing
  rcases hs : a.store with s | s
  · rw [hs] at hm hn
    simp only [Store.appendBatch] at hm hn ⊢
    rw [OrderedStore.appendBatch_append ns hm]
  · rw [hs] at hm hn
    simp only [Store.appendBatch] at hm hn ⊢
    rw [TableStore.appendBatch_append hm hn]

/-- What is stored makes no difference to what is taken. -/
theorem accepts_appendBatch : (a.appendBatch ms).1.Accepts m ↔ a.Accepts m := by
  unfold Accepts appendBatch
  split_ifs with failing
  · rfl
  · rcases a.store with s | s
    · simp only [Store.appendBatch, OrderedStore.appendBatch, OrderedStore.append]
      split_ifs <;> rfl
    · simp only [Store.appendBatch, TableStore.appendBatch, TableStore.encodeAll]
      cases TableStore.encode m <;> rfl

end Archive

/-! ## A run of events -/

namespace Connection

variable {x x' : Connection}

theorem Recut.roomy (hr : x.Recut x') (roomy : x.Roomy) : x'.Roomy := by
  obtain ⟨same, fewer, -⟩ := hr
  obtain ⟨queue, rfl⟩ : ∃ queue, x' = { x with queue } := ⟨_, same⟩
  exact fun opened => Nat.lt_of_le_of_lt fewer (roomy opened)

end Connection

namespace Hub

variable {h h' : Hub} {readOnly : Bool} {run ys zs : List Message}

/-- A run of events has come in. In read-only mode it is not stored. -/
def receive (h : Hub) (readOnly : Bool) (run : List Message) : Hub :=
  (if readOnly then h else h.stored run).broadcast run

theorem Recut.archive (hr : h.Recut h') : h'.archive = h.archive := by
  rw [hr.hub]

theorem Recut.roomy (hr : h.Recut h') (roomy : h.Roomy) : h'.Roomy :=
  fun c reached => (hr.connections c).roomy (roomy c (hr.reaches.1 reached))

theorem receive_eq_fanOut (hf : h.Fanned) (some : run ≠ []) (readOnly : Bool) :
    h.receive readOnly run = (if readOnly then h else h.stored run).fanOut run := by
  cases readOnly with
  | true => exact broadcast_eq_fanOut hf some
  | false => exact broadcast_eq_fanOut (h := h.stored run) ⟨hf.nodup, hf.one, hf.live, hf.keys⟩ some

theorem Recut.receive (hr : h.Recut h') (hf : h.Fanned) (roomy : h.Roomy) (some : run ≠ [])
    (readOnly : Bool) : (h.receive readOnly run).Recut (h'.receive readOnly run) := by
  rw [receive_eq_fanOut hf some, receive_eq_fanOut (hr.fanned hf) some]
  cases readOnly with
  | true => exact hr.fanOut roomy run
  | false => exact (hr.stored run).fanOut roomy run

theorem archive_receive (h : Hub) (readOnly : Bool) (run : List Message) :
    (h.receive readOnly run).archive =
      if readOnly then h.archive else (h.archive.appendBatch run).1 := by
  rw [receive, inert_archive.broadcast]
  split_ifs <;> rfl

/-- Two runs of events in turn, or both as one. -/
theorem recut_receive_append (hf : h.Fanned) (hy : ys ≠ []) (hz : zs ≠ [])
    (hf' : (h.receive readOnly ys).Fanned) (roomy : (h.receive readOnly ys).Roomy)
    (taken : readOnly = false → (h.archive.appendBatch ys).2 = none)
    (taken' : readOnly = false → ((h.archive.appendBatch ys).1.appendBatch zs).2 = none) :
    ((h.receive readOnly ys).receive readOnly zs).Recut (h.receive readOnly (ys ++ zs)) := by
  have both : ys ++ zs ≠ [] := List.append_ne_nil_of_left_ne_nil hy zs
  rw [receive_eq_fanOut hf' hz, receive_eq_fanOut hf both]
  rw [receive_eq_fanOut hf hy] at roomy ⊢
  cases readOnly with
  | true => exact recut_fanOut_append ys zs roomy
  | false =>
    have stored := congrArg Prod.fst (Archive.appendBatch_append (taken rfl) (taken' rfl))
    have same : ((h.stored ys).fanOut ys).stored zs = (h.stored (ys ++ zs)).fanOut ys := by
      rw [Hub.stored, Hub.stored, Hub.stored, stored]
      rfl
    have roomy' : ((h.stored (ys ++ zs)).fanOut ys).Roomy := roomy
    exact same ▸ recut_fanOut_append ys zs roomy'

end Hub

/-- The run that a message makes on its own. -/
def Run.single (m : Message) : Run := if m.isData then .data [m] else .control m

namespace Relay

open Hub

variable {r r' : Relay} {s : SessionId} {m : Message} {ms run : List Message}

/-- Handles messages one at a time; the replies are in their order. -/
def handleEach (r : Relay) (s : SessionId) : List Message → Relay × List Message
  | [] => (r, [])
  | m :: ms =>
    let (r, replies) := r.handle s m
    let (r, more) := handleEach r s ms
    (r, replies ++ more)

theorem handleEach_append (ns : List Message) : ∀ (ms : List Message) (r : Relay),
    r.handleEach s (ms ++ ns) = (((r.handleEach s ms).1.handleEach s ns).1,
      (r.handleEach s ms).2 ++ ((r.handleEach s ms).1.handleEach s ns).2)
  | [], _ => rfl
  | m :: ms, r => by
    rw [List.cons_append, handleEach, handleEach]
    dsimp only
    rw [handleEach_append ns ms, List.append_assoc]

theorem handleEach_singleton (r : Relay) (s : SessionId) (m : Message) :
    r.handleEach s [m] = r.handle s m := by
  simp [handleEach]

theorem handle_eq (r : Relay) (s : SessionId) (m : Message) : r.handle s m =
    (r.step (.handle s (.single m)), r.answers (.handle s (.single m))) := by
  rw [handle, Desk.handle, step, answers, Run.single]
  split_ifs <;> rfl

theorem Apiece.handle (hr : r.Apiece) (hs : s < r.sessions.length) (m : Message) :
    (r.handle s m).1.Apiece := by
  rw [handle_eq]
  exact hr.step (show r.Ready (.handle s _) from hs)

theorem sessions_handle (r : Relay) (s : SessionId) (m : Message) :
    (r.handle s m).1.sessions.length = r.sessions.length := by
  rw [handle_eq, step]
  exact List.length_set

theorem Apiece.handleEach : ∀ (ms : List Message) {r : Relay}, r.Apiece → s < r.sessions.length →
    (r.handleEach s ms).1.Apiece ∧ s < (r.handleEach s ms).1.sessions.length ∧
      (r.handleEach s ms).1.readOnly = r.readOnly
  | [], _, hr, hs => ⟨hr, hs, rfl⟩
  | m :: ms, r, hr, hs => by
    obtain ⟨apiece, known, readOnly⟩ := Apiece.handleEach ms (hr.handle hs m)
      (sessions_handle r s m ▸ hs)
    refine ⟨apiece, known, readOnly.trans ?_⟩
    rw [handle_eq]
    exact readOnly_step r _

/-- Events change the hub only. -/
theorem step_receive (hs : s < r.sessions.length) (run : List Message) :
    r.step (.handle s (.data run)) = { r with hub := r.hub.receive r.readOnly run } := by
  have same := congrArg Relay.sessions (put_desk hs)
  rw [step, Desk.handleRun, Desk.handleData_eq]
  change ({ r with hub := _, sessions := (r.put s (r.desk s)).sessions } : Relay) = _
  rw [same]
  rfl

theorem answers_data (r : Relay) (s : SessionId) (run : List Message)
    (taken : r.readOnly = false → (r.hub.archive.appendBatch run).2 = none) :
    r.answers (.handle s (.data run)) = [] := by
  have desk : (r.desk s).readOnly = r.readOnly := rfl
  have hub : (r.desk s).hub = r.hub := rfl
  rw [answers, Desk.handleRun, Desk.handleData, desk, hub]
  cases writes : r.readOnly with
  | true => rfl
  | false => simp [taken writes]

/-- Relays that differ in how queues are cut. -/
structure Recut (r r' : Relay) : Prop where
  hub : r.hub.Recut r'.hub
  sessions : r'.sessions = r.sessions
  readOnly : r'.readOnly = r.readOnly

/-- Each event of these messages is taken by the store and finds room in every queue that it comes
to, when the messages are handled one at a time. -/
def Smooth (r : Relay) (s : SessionId) : List Message → Prop
  | [] => True
  | m :: ms =>
    (m.isData = true → (r.readOnly = false → r.hub.archive.Accepts m) ∧ r.hub.Roomy) ∧
      Smooth (r.handle s m).1 s ms

theorem smooth_append {ns : List Message} : ∀ {ms : List Message} {r : Relay},
    r.Smooth s (ms ++ ns) ↔ r.Smooth s ms ∧ (r.handleEach s ms).1.Smooth s ns
  | [], _ => by simp [Smooth, handleEach]
  | m :: ms, r => by
    rw [List.cons_append, Smooth, Smooth, smooth_append, and_assoc]
    rfl

/-- A run of events: each on its own, or all together. -/
theorem Recut.data (hr : r.Apiece) (alike : r.Recut r') (hs : s < r.sessions.length)
    (data : ∀ m ∈ run, m.isData = true) (some : run ≠ []) (smooth : r.Smooth s run) :
    (r.handleEach s run).1.Recut (r'.step (.handle s (.data run))) ∧
      (r.handleEach s run).2 = [] ∧
      (r.readOnly = false → (r'.hub.archive.appendBatch run).2 = none) := by
  induction run using List.reverseRecOn with
  | nil => exact absurd rfl some
  | append_singleton ys z ih =>
    obtain ⟨before, now, -⟩ := smooth_append.1 smooth
    rw [List.forall_mem_append, List.forall_mem_singleton] at data
    obtain ⟨taken, roomy⟩ := now data.2
    obtain ⟨apiece, known, readOnly⟩ := hr.handleEach ys hs
    have hs' : s < r'.sessions.length := alike.sessions.symm ▸ hs
    have single : Run.single z = .data [z] := if_pos data.2
    rw [handleEach_append, handleEach_singleton, handle_eq, single, step_receive known, readOnly]
    rw [readOnly] at taken
    rw [step_receive hs', alike.readOnly]
    rcases eq_or_ne ys [] with rfl | hy
    · have taken' : r.readOnly = false → (r'.hub.archive.appendBatch [z]).2 = none :=
        alike.hub.archive ▸ taken
      refine ⟨⟨alike.hub.receive hr.fanned roomy (List.cons_ne_nil z []) _, alike.sessions, rfl⟩,
        ?_, taken'⟩
      exact answers_data r s [z] taken
    · obtain ⟨same, quiet, stored⟩ := ih data.1 hy before
      rw [step_receive hs', alike.readOnly] at same
      have archive : r.readOnly = false → (r.handleEach s ys).1.hub.archive =
          (r'.hub.archive.appendBatch ys).1 := fun writes => by
        rw [← same.hub.archive, archive_receive, writes]
        rfl
      have taken' : r.readOnly = false →
          ((r'.hub.archive.appendBatch ys).1.appendBatch [z]).2 = none :=
        fun writes => archive writes ▸ taken writes
      refine ⟨⟨?_, same.sessions, rfl⟩, ?_, fun writes => ?_⟩
      · refine (same.hub.receive apiece.fanned roomy (List.cons_ne_nil z []) _).trans ?_
        exact recut_receive_append (alike.hub.fanned hr.fanned) hy (List.cons_ne_nil z [])
          (same.hub.fanned apiece.fanned) (same.hub.roomy roomy) stored taken'
      · rw [quiet, List.nil_append]
        exact answers_data _ s [z] (readOnly.symm ▸ taken)
      · exact (congrArg Prod.snd (Archive.appendBatch_append (stored writes) (taken' writes))).trans
          (taken' writes)

theorem Recut.put {d d' : Desk} (alike : r.Recut r') (hd : d.Recut d') (s : SessionId) :
    (r.put s d).Recut (r'.put s d') where
  hub := hd.hub
  sessions := by
    rw [Relay.put, Relay.put, alike.sessions, hd.session]
  readOnly := alike.readOnly

theorem Recut.desk (alike : r.Recut r') (s : SessionId) : (r.desk s).Recut (r'.desk s) where
  hub := alike.hub
  session := congrArg (·.getD s default) alike.sessions
  readOnly := alike.readOnly

/-- A run: its messages one at a time, or together. -/
theorem Recut.step (hr : r.Apiece) (alike : r.Recut r') (hs : s < r.sessions.length) {run : Run}
    (cut : run.Cut) (smooth : r.Smooth s run.messages) :
    (r.handleEach s run.messages).1.Recut (r'.step (.handle s run)) ∧
      (r.handleEach s run.messages).2 = r'.answers (.handle s run) := by
  cases run with
  | data events =>
    obtain ⟨same, quiet, taken⟩ := alike.data hr hs cut.2 cut.1 smooth
    exact ⟨same, quiet.trans (answers_data r' s events (alike.readOnly ▸ taken)).symm⟩
  | control m =>
    have single : Run.single m = .control m := if_neg (Bool.eq_false_iff.1 cut)
    obtain ⟨same, told⟩ := (alike.desk s).handleControl m
    rw [Run.messages, handleEach_singleton, handle_eq, single]
    exact ⟨alike.put same s, told.symm⟩

theorem Recut.runs : ∀ {runs : List Run} {r r' : Relay}, r.Apiece → r.Recut r' →
    s < r.sessions.length → (∀ run ∈ runs, run.Cut) → r.Smooth s (runs.flatMap Run.messages) →
      (r.handleEach s (runs.flatMap Run.messages)).1.Recut (r'.steps (runs.map (.handle s))) ∧
        (r.handleEach s (runs.flatMap Run.messages)).2 = gather answers r' (runs.map (.handle s))
  | [], _, _, _, alike, _, _, _ => ⟨alike, rfl⟩
  | run :: runs, r, r', hr, alike, hs, cut, smooth => by
    rw [List.forall_mem_cons] at cut
    rw [List.flatMap_cons, smooth_append] at smooth
    obtain ⟨apiece, known, -⟩ := hr.handleEach run.messages hs
    obtain ⟨same, told⟩ := alike.step hr hs cut.1 smooth.1
    obtain ⟨rest, told'⟩ := Recut.runs apiece same known cut.2 smooth.2
    rw [List.flatMap_cons, handleEach_append]
    exact ⟨rest, congrArg₂ (· ++ ·) told told'⟩

/-! ## Room in queues -/

/-- The connection is reached by an event among these messages, when they are handled one at a
time. -/
def Addresses (r : Relay) (s : SessionId) : List Message → ConnId → Prop
  | [], _ => False
  | m :: ms, c => m.isData = true ∧ r.hub.Reaches c ∨ (r.handle s m).1.Addresses s ms c

instance decidableAddresses (s : SessionId) : ∀ (ms : List Message) (r : Relay) (c : ConnId),
    Decidable (r.Addresses s ms c)
  | [], _, _ => inferInstanceAs (Decidable False)
  | m :: ms, r, c =>
    have : Decidable ((r.handle s m).1.Addresses s ms c) := decidableAddresses s ms _ c
    inferInstanceAs (Decidable (m.isData = true ∧ r.hub.Reaches c ∨ _))

/-- A message queues at most one batch to a connection, and opens none. -/
theorem connection_handle (hr : r.Apiece) (hs : s < r.sessions.length) (m : Message) (c : ConnId) :
    let x := r.hub.connection c
    let x' := (r.handle s m).1.hub.connection c
    x'.capacity = x.capacity ∧ (x'.closed = false → x.closed = false) ∧
      x'.queue.length ≤ x.queue.length + 1 := by
  intro x x'
  have either : x' = x ∨ x' = (x.send [m]).1 := by
    change (r.handle s m).1.hub.connection c = _ ∨ (r.handle s m).1.hub.connection c = _
    rw [handle_eq, Run.single]
    split_ifs
    · rw [step_receive hs, receive_eq_fanOut hr.fanned (List.cons_ne_nil m []), connection_fanOut]
      cases r.readOnly <;> split_ifs <;> first | exact .inr rfl | exact .inl rfl
    · have same := (r.desk s).connections_handleControl m
      exact .inl (congrArg (·.getD c default) same)
  rcases either with same | sent
  · rw [same]
    exact ⟨rfl, id, Nat.le_succ _⟩
  · rw [sent]
    by_cases takes : x.Takes
    · rw [Connection.send_of_takes takes]
      exact ⟨rfl, id, by simp⟩
    · rw [(Connection.send_of_not_takes takes _).1]
      exact ⟨rfl, nofun, Nat.le_succ _⟩

theorem archive_handle (hs : s < r.sessions.length) (m : Message) :
    (r.handle s m).1.hub.archive = r.hub.archive ∨
      (r.handle s m).1.hub.archive = (r.hub.archive.appendBatch [m]).1 := by
  rw [handle_eq, Run.single]
  split_ifs
  · rw [step_receive hs, archive_receive]
    split_ifs
    · exact .inl rfl
    · exact .inr rfl
  · exact .inl ((r.desk s).archive_handleControl m)

theorem Apiece.known_handle (hr : r.Apiece) (hs : s < r.sessions.length) (m : Message) :
    (r.handle s m).1.hub.connections.length = r.hub.connections.length := by
  rw [(hr.handle hs m).length, sessions_handle, hr.length]

/-- Room for as many batches as there are messages is room for each in its turn. -/
theorem Apiece.smooth : ∀ {ms : List Message} {r : Relay}, r.Apiece → s < r.sessions.length →
    (r.readOnly = false → ∀ m ∈ ms, m.isData = true → r.hub.archive.Accepts m) →
    (∀ c < r.hub.connections.length, r.Addresses s ms c → (r.hub.connection c).closed = false →
      (r.hub.connection c).queue.length + ms.length ≤ (r.hub.connection c).capacity) →
    r.Smooth s ms
  | [], _, _, _, _, _ => trivial
  | m :: ms, r, hr, hs, taken, room => by
    refine ⟨fun data => ⟨fun writes => taken writes m List.mem_cons_self data, ?now⟩, ?later⟩
    case now =>
      intro c hc opened
      have := room c hc.known (.inl ⟨data, hc⟩) opened
      rw [List.length_cons] at this
      omega
    case later =>
      refine Apiece.smooth (hr.handle hs m) (sessions_handle r s m ▸ hs) ?_ ?_
      · intro writes n hn data
        rw [handle_eq] at writes
        have before := taken ((readOnly_step r _).symm.trans writes) n (List.mem_cons_of_mem m hn)
          data
        rcases archive_handle hs m with same | stored
        · rwa [same]
        · rw [stored]
          exact Archive.accepts_appendBatch.2 before
      · intro c known addressed opened
        obtain ⟨capacity, closed, queued⟩ := connection_handle hr hs m c
        have := room c (hr.known_handle hs m ▸ known) (.inr addressed) (closed opened)
        rw [List.length_cons] at this
        omega

/-- A frame and its messages one at a time. Whatever has happened to the relay before, as long as
the store takes every event, and every queue that an event comes to has room for as many batches as
there are messages, both get the same replies and leave the same sessions and the same hub; and to
every connection the same messages are queued, in as many batches or fewer. -/
theorem Attained.frame_as_each (h : r.Attained) (hs : s < r.sessions.length) (ms : List Message)
    (taken : r.readOnly = false → ∀ m ∈ ms, m.isData = true →
      (r.hub.archive.appendBatch [m]).2 = none)
    (room : ∀ c < r.hub.connections.length, r.Addresses s ms c →
      (r.hub.connection c).closed = false →
      (r.hub.connection c).queue.length + ms.length ≤ (r.hub.connection c).capacity) :
    let each := r.handleEach s ms
    let frame := r.handleBatch s ms
    frame.2 = each.2 ∧ frame.1.sessions = each.1.sessions ∧ frame.1.readOnly = each.1.readOnly ∧
      frame.1.hub = { each.1.hub with connections := frame.1.hub.connections } ∧
      frame.1.hub.connections.length = each.1.hub.connections.length ∧
      ∀ c, let x := each.1.hub.connection c
        let x' := frame.1.hub.connection c
        x' = { x with queue := x'.queue } ∧ x'.queue.flatten = x.queue.flatten ∧
          x'.queue.length ≤ x.queue.length := by
  intro each frame
  have smooth := h.apiece.smooth hs taken room
  obtain ⟨messages, cut, -⟩ := Run.ofBatch_cuts ms
  rw [← messages] at smooth
  obtain ⟨alike, told⟩ := Recut.runs h.apiece ⟨.refl _, rfl, rfl⟩ hs cut smooth
  rw [messages] at alike told
  have whole : frame = (r.steps (Relay.frame s ms), gather answers r (Relay.frame s ms)) :=
    handleBatch_eq_frame hs ms
  rw [whole]
  exact ⟨told.symm, alike.sessions, alike.readOnly, alike.hub.hub, alike.hub.length, fun c =>
    ⟨(alike.hub.connections c).same, (alike.hub.connections c).messages,
      (alike.hub.connections c).fewer⟩⟩

/-- Between two events the sender joins the stream that they are sent on to. -/
theorem Attained.frame_as_each_joining :
    let event (t : Int64) : Message := .current t (.test ⟨"a", []⟩)
    let ms := [event 1, event 2, .current 0 (.subscribeStream 1), event 3]
    let r := (start ⟨.memory, fun _ => false⟩ ⟨10, 250, by decide, by decide⟩ 0 false).steps
      [.accept 4, .accept 4, .handle 0 (.control (.current 0 .start))]
    r.Attained ∧
      ((r.handleEach 1 ms).1.hub.connection 0).queue = [[event 1], [event 2], [event 3]] ∧
      ((r.handleBatch 1 ms).1.hub.connection 0).queue.flatten = [event 1, event 2, event 3] ∧
      ((r.handleBatch 1 ms).1.hub.connection 1).queue.flatten = [event 3] := by
  intro event ms r
  have attained : r.Attained := ⟨_, _, _, _, _, by decide, rfl⟩
  have taken : ∀ m ∈ ms, m.isData = true → (r.hub.archive.appendBatch [m]).2 = none := by
    decide +kernel
  have room : ∀ c < r.hub.connections.length, r.Addresses 1 ms c →
      (r.hub.connection c).closed = false →
      (r.hub.connection c).queue.length + ms.length ≤ (r.hub.connection c).capacity := by
    decide +kernel
  obtain ⟨-, -, -, -, -, queues⟩ :=
    frame_as_each attained (by decide) ms (fun _ => taken) room
  have first : ((r.handleEach 1 ms).1.hub.connection 0).queue =
      [[event 1], [event 2], [event 3]] := by decide +kernel
  have second : ((r.handleEach 1 ms).1.hub.connection 1).queue = [[event 3]] := by decide +kernel
  refine ⟨attained, first, ?_, ?_⟩
  · rw [(queues 0).2.1, first]
    rfl
  · rw [(queues 1).2.1, second]
    rfl

end Relay

end EventRelay
