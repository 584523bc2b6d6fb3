import EventRelay.Proofs.Transitions

/-!
# Operations of the hub

All that happens to a relay comes down to operations of its hub. Streams are created, joined, left
and removed, directed and described, events are broadcast, timers go off, and the surroundings of
the hub change: its store, its connections and the time. What every such operation keeps is kept by
every run of them, and so by every run of the relay.
-/

namespace EventRelay

namespace Hub

inductive Operation where
  | create
  | remove (uid : UInt32)
  | removeIfAbandoned (i : StreamId)
  | control (i : StreamId) (request : Control)
  | describe (i : StreamId) (description : String)
  | join (i : StreamId) (c : ConnId)
  | leave (i : StreamId) (c : ConnId)
  | broadcast (batch : List Message)
  | fire (i : StreamId) (epoch : Nat)
  | surround (archive : Archive) (connections : List Connection) (now : Instant)

def apply (h : Hub) : Operation → Hub
  | .create => h.createStream.1
  | .remove uid => (h.removeStream uid).1
  | .removeIfAbandoned i => (h.removeIfAbandoned i).1
  | .control i request => h.control i request
  | .describe i description => h.describe i description
  | .join i c => h.addSubscriber i c
  | .leave i c => h.removeSubscriber i c
  | .broadcast batch => h.broadcast batch
  | .fire i epoch => h.fire i epoch
  | .surround archive connections now => { h with archive, connections, now }

/-- A stream that is abandoned is removed like any other, and one that is not stays. -/
theorem apply_removeIfAbandoned (h : Hub) (i : StreamId) :
    h.apply (.removeIfAbandoned i) = h.apply (.remove (h.stream i).uid) ∨
      h.apply (.removeIfAbandoned i) = h := by
  unfold apply removeIfAbandoned
  dsimp only
  split_ifs
  · exact .inl rfl
  · exact .inr rfl

def applyAll (h : Hub) (ops : List Operation) : Hub := ops.foldl apply h

@[simp] theorem applyAll_nil (h : Hub) : h.applyAll [] = h := rfl

@[simp] theorem applyAll_cons (h : Hub) (op : Operation) (ops : List Operation) :
    h.applyAll (op :: ops) = (h.apply op).applyAll ops := rfl

theorem applyAll_append (h : Hub) (ops ops' : List Operation) :
    h.applyAll (ops ++ ops') = (h.applyAll ops).applyAll ops' := List.foldl_append

/-! ## What operations leave alone -/

section Static

variable {α β : Type*} {part : Hub → α}

/-- A part of the hub that depends neither on what streams play and send nor on who joins them, nor
on the surroundings. -/
structure Static (part : Hub → α) : Prop extends Inert part where
  enrol : ∀ h i c, part (enrol h i c) = part h
  surround : ∀ (h : Hub) archive connections now,
    part { h with archive, connections, now } = part h

/-- It changes which streams there are, or how they are called. -/
def Operation.Edits : Operation → Prop
  | .create | .remove _ | .removeIfAbandoned _ | .describe .. => True
  | _ => False

theorem Inert.control (inert : Inert part) (h : Hub) (i : StreamId) (request : Control) :
    part (h.control i request) = part h := by
  cases request with
  | start => exact inert.startStream h i
  | stop => exact inert.stopStream h i
  | seek p => exact inert.seekStream h i p
  | speed x => exact inert.setSpeed h i x

theorem Static.addSubscriber (static : Static part) (h : Hub) (i : StreamId) (c : ConnId) :
    part (h.addSubscriber i c) = part h := by
  have resumed (m : Hub) : part (if (m.stream i).playing then m.play i else m) = part m := by
    split_ifs
    · exact static.play m i
    · rfl
  unfold Hub.addSubscriber
  refine (resumed _).trans ?_
  split_ifs
  · rfl
  · exact static.enrol h i c

theorem Static.apply (static : Static part) (h : Hub) {op : Operation} (plain : ¬op.Edits) :
    part (h.apply op) = part h := by
  cases op with
  | control i request => exact static.control h i request
  | join i c => exact static.addSubscriber h i c
  | leave i c => exact static.removeSubscriber h i c
  | broadcast batch => exact static.broadcast h batch
  | fire i epoch => exact static.fire h i epoch
  | surround archive connections now => exact static.surround h archive connections now
  | _ => exact absurd trivial plain

theorem static_catalog : Static catalog where
  toInert := inert_catalog
  enrol _ _ _ := rfl
  surround _ _ _ _ := rfl

theorem static_nextUid : Static nextUid where
  replay _ _ _ := rfl
  setLive _ _ _ := rfl
  setPlaying _ _ _ := rfl
  subscribers _ _ _ := rfl
  listing _ _ := rfl
  connections _ _ := rfl
  enrol _ _ _ := rfl
  surround _ _ _ _ := rfl

/-- A part of every stream that depends neither on what it plays nor on who has joined it. -/
theorem static_map {part : Stream → β} (inert : Inert fun h => h.streams.map part)
    (enrolled : ∀ s subscribers joins, part { s with subscribers, joins } = part s) :
    Static fun h => h.streams.map part where
  toInert := inert
  enrol h i c := map_modifyStream (fun s => enrolled s (s.subscribers ++ [c]) (s.joins + 1)) h i
  surround _ _ _ _ := rfl

theorem static_uids : Static fun h => h.streams.map (·.uid) :=
  static_map (inert_map (fun _ _ => rfl) (fun _ _ => rfl) (fun _ _ => rfl) fun _ _ => rfl)
    fun _ _ _ => rfl

/-- What the streams are called. -/
def descriptions (h : Hub) : List String := h.streams.map (·.description)

theorem static_descriptions : Static descriptions :=
  static_map (inert_map (fun _ _ => rfl) (fun _ _ => rfl) (fun _ _ => rfl) fun _ _ => rfl)
    fun _ _ _ => rfl

theorem descriptions_apply (h : Hub) (op : Operation) : (h.apply op).descriptions =
    match op with
    | .create => h.descriptions ++ [""]
    | .describe i text => h.descriptions.modify i fun _ => text
    | _ => h.descriptions := by
  cases op with
  | create => exact List.map_append
  | remove uid => rfl
  | removeIfAbandoned i =>
    rcases h.apply_removeIfAbandoned i with removed | same
    · rw [removed]
      rfl
    · rw [same]
  | describe i text =>
    refine List.ext_getElem? fun j => ?_
    simp only [descriptions, apply, describe, modifyStream, List.getElem?_map, List.getElem?_modify]
    cases h.streams[j]? with
    | none => rfl
    | some s => split_ifs <;> rfl
  | _ => exact static_descriptions.apply h id

/-- Streams are never forgotten. -/
theorem streams_apply (h : Hub) (op : Operation) :
    h.streams.length ≤ (h.apply op).streams.length := by
  by_cases edits : op.Edits
  · cases op with
    | create =>
      rw [apply, streams_createStream]
      exact Nat.le_succ _
    | remove uid => exact Nat.le_refl _
    | removeIfAbandoned i =>
      rcases h.apply_removeIfAbandoned i with removed | same
      · exact (congrArg (·.streams.length) removed).ge
      · exact (congrArg (·.streams.length) same).ge
    | describe i text => exact (List.length_modify ..).ge
    | _ => exact edits.elim
  · have same := congrArg List.length (static_uids.apply h edits)
    rw [List.length_map, List.length_map] at same
    exact same.ge

end Static

/-! ## Runs of operations -/

/-- Operations of this kind lead from one hub to another. -/
def Leads (kind : Operation → Prop) (h h' : Hub) : Prop :=
  ∃ ops : List Operation, (∀ op ∈ ops, kind op) ∧ h.applyAll ops = h'

section Leads

variable {kind kind' : Operation → Prop} {h h' h'' : Hub}

theorem Leads.refl : Leads kind h h := ⟨[], by simp, rfl⟩

theorem Leads.one (op : Operation) (allowed : kind op) : Leads kind h (h.apply op) :=
  ⟨[op], by simpa using allowed, rfl⟩

theorem Leads.trans (h₁ : Leads kind h h') (h₂ : Leads kind h' h'') : Leads kind h h'' := by
  obtain ⟨ops, allowed, rfl⟩ := h₁
  obtain ⟨ops', allowed', rfl⟩ := h₂
  exact ⟨ops ++ ops', List.forall_mem_append.2 ⟨allowed, allowed'⟩, applyAll_append h ops ops'⟩

/-- What each operation keeps, all of them keep. -/
theorem keeps_applyAll {P : Hub → Prop} (step : ∀ h op, kind op → P h → P (h.apply op))
    {ops : List Operation} (allowed : ∀ op ∈ ops, kind op) (hP : P h) : P (h.applyAll ops) := by
  induction ops generalizing h with
  | nil => exact hP
  | cons op ops ih =>
    rw [List.forall_mem_cons] at allowed
    exact ih allowed.2 (step h op allowed.1 hP)

theorem streams_applyAll (h : Hub) (ops : List Operation) :
    h.streams.length ≤ (h.applyAll ops).streams.length := by
  induction ops generalizing h with
  | nil => exact Nat.le_refl _
  | cons op ops ih => exact (streams_apply h op).trans (ih _)

theorem Leads.keeps {P : Hub → Prop} (hl : Leads kind h h')
    (step : ∀ h op, kind op → P h → P (h.apply op)) (hP : P h) : P h' := by
  obtain ⟨ops, allowed, rfl⟩ := hl
  exact keeps_applyAll step allowed hP

end Leads

/-- What is done for sessions: streams are given such descriptions only, and are removed only when
they are abandoned. -/
def Operation.Serves (proper : String → Prop) : Operation → Prop
  | .remove _ => False
  | .describe _ text => proper text
  | _ => True

end Hub

/-! ## Sessions -/

namespace Desk

open Hub

variable {proper : String → Prop}

theorem leads_streamFor (d : Desk) :
    Leads (Operation.Serves proper) d.hub d.streamFor.1.hub := by
  unfold Desk.streamFor
  split
  · exact .refl
  · exact (Leads.one .create trivial).trans (.one (.join _ _) trivial)

theorem leads_onStream (d : Desk) {f : Hub → StreamId → Hub}
    (one : ∀ h i, Leads (Operation.Serves proper) h (f h i)) :
    Leads (Operation.Serves proper) d.hub (d.onStream f).hub :=
  d.leads_streamFor.trans (one _ _)

theorem leads_leave (d : Desk) (i : StreamId) :
    Leads (Operation.Serves proper) d.hub (d.leave i).hub :=
  (Leads.one (.leave i d.session.connection) trivial).trans (.one (.removeIfAbandoned i) trivial)

theorem leads_join (d : Desk) (i : StreamId) :
    Leads (Operation.Serves proper) d.hub (d.join i).hub :=
  .one (.join i d.session.connection) trivial

theorem leads_disconnect (d : Desk) :
    Leads (Operation.Serves proper) d.hub d.disconnect.hub := by
  unfold Desk.disconnect
  split
  · exact .refl
  · exact leads_leave _ _

theorem leads_subscribe (d : Desk) (uid : UInt32) :
    Leads (Operation.Serves proper) d.hub (d.subscribe uid).1.hub := by
  unfold Desk.subscribe
  split
  · exact .refl
  split
  · exact d.leads_join _
  · dsimp only
    split_ifs
    · exact .refl
    · exact (d.leads_leave _).trans (leads_join _ _)

theorem leads_handleData (d : Desk) (run : List Message) :
    Leads (Operation.Serves proper) d.hub (d.handleData run).1.hub := by
  have stored : Leads (Operation.Serves proper) d.hub (d.hub.stored run) :=
    .one (.surround _ d.hub.connections d.hub.now) trivial
  rw [handleData_eq]
  split_ifs
  · exact .one (.broadcast run) trivial
  · exact stored.trans (.one (.broadcast run) trivial)

theorem leads_handleControl (d : Desk) {m : Message}
    (said : ∀ text ∈ m.payload.texts, proper text) :
    Leads (Operation.Serves proper) d.hub (d.handleControl m).1.hub := by
  obtain ⟨timestamp, version, payload⟩ := m
  cases payload with
  | start => exact d.leads_onStream fun _ i => .one (.control i .start) trivial
  | stop => exact d.leads_onStream fun _ i => .one (.control i .stop) trivial
  | seek p => exact d.leads_onStream fun _ i => .one (.control i (.seek p)) trivial
  | speed x => exact d.leads_onStream fun _ i => .one (.control i (.speed x)) trivial
  | subscribeStream uid => exact d.leads_subscribe uid
  | streamDescription text =>
    have allowed : proper text := said text (List.mem_singleton_self text)
    exact d.leads_onStream fun _ i => .one (.describe i text) allowed
  | _ => exact .refl

end Desk

/-! ## The relay -/

namespace Relay

open Hub

/-- The texts in a control message that a session handles. -/
def Act.texts : Act → List String
  | .handle _ (.control m) => m.payload.texts
  | _ => []

section Leads

variable {proper : String → Prop}

theorem leads_modifyConnection (r : Relay) (s : SessionId) (f : Connection → Connection) :
    Leads (Operation.Serves proper) r.hub (r.modifyConnection s f).hub :=
  .one (.surround r.hub.archive _ r.hub.now) trivial

theorem leads_step (r : Relay) {act : Act} (said : ∀ text ∈ act.texts, proper text) :
    Leads (Operation.Serves proper) r.hub (r.step act).hub := by
  cases act with
  | accept capacity => exact .one (.surround r.hub.archive _ r.hub.now) trivial
  | handle s run =>
    cases run with
    | data events => exact (r.desk s).leads_handleData events
    | control m => exact (r.desk s).leads_handleControl said
  | disconnect s => exact (r.desk s).leads_disconnect
  | tick i =>
    rw [step]
    split
    · exact .refl
    · exact .one (.fire i _) trivial
  | late i epoch => exact .one (.fire i epoch) trivial
  | wait now => exact .one (.surround r.hub.archive r.hub.connections now) trivial
  | fail request on => exact .one (.surround _ r.hub.connections r.hub.now) trivial
  | vanish s => exact r.leads_modifyConnection s Connection.drop
  | _ => exact r.leads_modifyConnection _ _

/-- The hub of a relay comes about by operations for its sessions. -/
theorem leads_steps : ∀ {acts : List Act} {r : Relay},
    (∀ act ∈ acts, ∀ text ∈ act.texts, proper text) →
      Leads (Operation.Serves proper) r.hub (r.steps acts).hub
  | [], _, _ => .refl
  | act :: acts, r, said => by
    rw [List.forall_mem_cons] at said
    exact (r.leads_step said.1).trans (leads_steps said.2)

end Leads

end Relay

end EventRelay
