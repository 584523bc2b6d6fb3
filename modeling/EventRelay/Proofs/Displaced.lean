import EventRelay.Proofs.Named

/-!
# Streams that are displaced

A new stream takes the next uid whether or not a stream of the catalog has it. The catalog names one
stream by a uid at any time, but the new stream takes the place of the one that had the uid before,
if that is still there: of a stream made as many creations ago as there are uids, or a multiple of
that. One that is described outlasts any number of sessions that come and go.
-/

namespace EventRelay

namespace Hub

section Create

variable {h : Hub} {e : UInt32 × StreamId}

theorem Named.uid_eq_nextUid_iff (hn : h.Named) (he : e ∈ h.catalog) :
    e.1 = h.nextUid ↔ ∃ k, 0 < k ∧ h.streams.length = e.2 + k * uidCount := by
  obtain ⟨known, uid⟩ := hn.catalog e he
  rw [uid, hn.nextUid, uidOf_eq_iff_of_lt known]

/-- What comes of the catalog, and what of its entries, when a stream is created. -/
theorem mem_catalog_createStream : e ∈ h.createStream.1.catalog ↔
    e = (h.nextUid, h.createStream.2) ∨ e ∈ h.catalog ∧ e.1 ≠ h.nextUid := mem_insert _

theorem catalog_createStream (fresh : ∀ e ∈ h.catalog, e.1 ≠ h.nextUid) :
    h.createStream.1.catalog = (h.nextUid, h.createStream.2) :: h.catalog := by
  have kept : h.catalog.erase h.nextUid = h.catalog :=
    List.filter_eq_self.2 fun e he => bne_iff_ne.2 (fresh e he)
  exact congrArg _ kept

end Create

end Hub

namespace Relay

open Hub

/-- Whatever sessions do, it keeps the uids in order. -/
theorem named_steps (archive : Archive) (config : ReplayConfig) (epoch : Int64) (readOnly : Bool)
    (acts : List Act) : ((start archive config epoch readOnly).steps acts).hub.Named := by
  have leads : Leads (Operation.Serves fun _ => True)
      (start archive config epoch readOnly).hub
      ((start archive config epoch readOnly).steps acts).hub := leads_steps fun _ _ _ _ => trivial
  exact leads.keeps (fun _ op _ hn => hn.apply op) (named_start archive config epoch)

/-- At any time a uid names the one stream that the catalog has under it. A new stream is found
under the next uid. The catalog gains its entry and loses the entries of that uid, and these belong
to streams that were made as many creations before as there are uids, or a multiple of that. As long
as fewer streams have been made, nothing is lost. -/
theorem creates_stream (archive : Archive) (config : ReplayConfig) (epoch : Int64)
    (readOnly : Bool) (acts : List Act) :
    let h := ((start archive config epoch readOnly).steps acts).hub
    let uid := h.nextUid
    let i := h.streams.length
    let h' := h.createStream.1
    (∀ u j, h.getStream? u = some j ↔ (u, j) ∈ h.catalog) ∧
    h'.stream i = .new uid ∧ h'.getStream? uid = some i ∧
    (∀ j < i, h'.stream j = h.stream j) ∧
    (∀ e, e ∈ h'.catalog ↔ e = (uid, i) ∨ e ∈ h.catalog ∧ e.1 ≠ uid) ∧
    (∀ e ∈ h.catalog, e.1 = uid ↔ ∃ k, 0 < k ∧ i = e.2 + k * 4294967295) ∧
    (i < 4294967295 → h'.catalog = (uid, i) :: h.catalog) := by
  intro h uid i h'
  have named : h.Named := named_steps archive config epoch readOnly acts
  have created : h'.Named := named.createStream
  refine ⟨fun _ _ => named.getStream?_eq_some, ?_, ?_, fun j hj => ?_,
    fun e => mem_catalog_createStream, fun e he => named.uid_eq_nextUid_iff he, fun few => ?_⟩
  · exact (stream_createStream h i).trans (if_pos rfl)
  · exact created.getStream?_eq_some.2 (mem_catalog_createStream.2 (.inl rfl))
  · exact (stream_createStream h j).trans (if_neg (Nat.ne_of_lt hj))
  · refine catalog_createStream fun e he same => ?_
    obtain ⟨k, pos, length⟩ := (named.uid_eq_nextUid_iff he).1 same
    have := Nat.mul_le_mul_right uidCount pos
    unfold uidCount at *
    omega

/-! ## A run in which it happens -/

/-- A session comes, starts a stream and leaves. -/
def visit (s : SessionId) : List Act :=
  [.accept 4, .handle s (.control (.current 0 .start)), .disconnect s]

/-- A session describes its stream and stays, and so many others visit. -/
def crowd : Nat → List Act
  | 0 => [.accept 4, .handle 0 (.control (.current 0 (.streamDescription "kept")))]
  | n + 1 => crowd n ++ visit (n + 1)

section Visit

variable {r : Relay}

/-- A session without a stream makes one. -/
theorem onStream_of_none {d : Desk} (none : d.session.stream = none) {f : Hub → StreamId → Hub}
    (confined : ∀ h i, Confined i h (f h i)) :
    (d.onStream f).session.stream = some d.hub.streams.length ∧
      (d.onStream f).hub.streams.length = d.hub.streams.length + 1 ∧
      (d.onStream f).hub.catalog = d.hub.createStream.1.catalog ∧
      ((d.onStream f).hub.stream d.hub.streams.length).uid = d.hub.nextUid := by
  have made : d.streamFor = ({ d with
      hub := d.hub.createStream.1.addSubscriber d.hub.streams.length d.session.connection
      session := { d.session with stream := some d.hub.streams.length } },
      d.hub.streams.length) := by
    rw [Desk.streamFor, none]
    rfl
  have work := confined d.streamFor.1.hub d.streamFor.2
  rw [made] at work
  rw [Desk.onStream, made]
  refine ⟨rfl, ?_, ?_, ?_⟩
  · exact work.streams.trans ((streams_addSubscriber ..).trans (streams_createStream d.hub))
  · exact work.catalog.trans (static_catalog.addSubscriber ..)
  · refine (work.uid_eq _).trans ((part_stream (static_uids.addSubscriber ..) _).trans ?_)
    rw [stream_createStream, if_pos rfl]
    rfl

/-- The visitor is the last session, and does nothing else. -/
theorem steps_visit_eq {s : SessionId} (there : s < (r.step (.accept 4)).sessions.length) :
    r.steps (visit s) = (r.step (.accept 4)).put s
      (((r.step (.accept 4)).desk s).onStream fun h i => h.startStream i).disconnect := by
  let r₁ := r.step (.accept 4)
  let d := (r₁.desk s).onStream fun h i => h.startStream i
  have handled : (r₁.put s d).desk s = d :=
    desk_put there (Desk.readOnly_handleRun (r₁.desk s) (.control (.current 0 .start)))
  calc r.steps (visit s)
      = (r₁.put s d).put s ((r₁.put s d).desk s).disconnect := rfl
    _ = (r₁.put s d).put s d.disconnect := by rw [handled]
    _ = r₁.put s d.disconnect := put_put r₁ s d d.disconnect

/-- A visit makes one stream, and what has another uid stays in the catalog. -/
theorem steps_visit {s : SessionId} (new : s = r.sessions.length) :
    (r.steps (visit s)).hub.streams.length = r.hub.streams.length + 1 ∧
      (r.steps (visit s)).sessions.length = s + 1 ∧
      (∀ t < s, (r.steps (visit s)).session t = r.session t) ∧
      ∀ e ∈ r.hub.catalog, e.1 ≠ r.hub.nextUid → e ∈ (r.steps (visit s)).hub.catalog := by
  let r₁ := r.step (.accept 4)
  let d := (r₁.desk s).onStream fun h i => h.startStream i
  have sessions : r₁.sessions = r.sessions ++ [⟨r.hub.connections.length, none⟩] := rfl
  have length : r₁.sessions.length = s + 1 := by simp [sessions, new]
  have there : s < r₁.sessions.length := length ▸ Nat.lt_succ_self s
  have empty : (r₁.desk s).session.stream = none := by simp [desk, session, sessions, new]
  obtain ⟨holds, streams, catalog, uid⟩ := onStream_of_none empty confined_startStream
  have left : d.disconnect.hub = (Desk.leave { d with
      session := { d.session with stream := none } } r.hub.streams.length).hub := by
    rw [Desk.disconnect, holds]
    rfl
  rw [steps_visit_eq there]
  refine ⟨?_, ?_, fun t ht => ?_, fun e he other => ?_⟩
  · exact (congrArg (·.streams.length) left).trans ((streams_leave ..).trans streams)
  · rw [put, List.length_set, length]
  · rw [session_put r₁ there, if_neg (Nat.ne_of_lt ht), session, session, sessions,
      List.getD_eq_getElem?_getD, List.getElem?_append_left (new ▸ ht),
      ← List.getD_eq_getElem?_getD]
  · have made : e ∈ d.hub.catalog := by
      rw [catalog]
      exact mem_catalog_createStream.2 (.inr ⟨he, other⟩)
    rw [put, left]
    exact mem_catalog_leave made (fun same => other (same.trans uid)) _

end Visit

/-- So many have visited, and the first stream is still held, described and in the catalog. -/
structure Crowded (n : Nat) (r : Relay) : Prop where
  named : r.hub.Named
  streams : r.hub.streams.length = n + 1
  sessions : r.sessions.length = n + 1
  holds : (r.session 0).stream = some 0
  listed : (1, 0) ∈ r.hub.catalog
  described : ["kept"] <+: r.hub.descriptions

section Crowd

variable {r : Relay} {n : Nat}

/-- Sessions that describe nothing leave the descriptions that there are. -/
theorem prefix_descriptions_apply (h : Hub) {op : Operation} (serves : op.Serves fun _ => False) :
    h.descriptions <+: (h.apply op).descriptions := by
  rw [descriptions_apply]
  cases op with
  | create => exact List.prefix_append ..
  | describe => exact serves.elim
  | _ => exact List.prefix_rfl

theorem Crowded.visit (hr : r.Crowded n) (few : n + 1 < uidCount) :
    (r.steps (visit (n + 1))).Crowded (n + 1) := by
  obtain ⟨streams, sessions, same, stays⟩ := steps_visit (r := r) hr.sessions.symm
  have leads : Leads (Operation.Serves fun _ => False) r.hub (r.steps (Relay.visit (n + 1))).hub :=
    leads_steps (by simp [Relay.visit, Act.texts, Message.current])
  have fresh : (1 : UInt32) ≠ r.hub.nextUid := by
    rw [hr.named.nextUid, hr.streams]
    exact fun same => absurd (uidOf_inj (i := 0) (by decide) few same) (Nat.succ_ne_zero n).symm
  refine ⟨leads.keeps (fun _ op _ hn => hn.apply op) hr.named, ?_, sessions, ?_,
    stays _ hr.listed fresh, ?_⟩
  · rw [streams, hr.streams]
  · rw [same 0 (Nat.succ_pos n)]
    exact hr.holds
  · exact leads.keeps (P := fun h => ["kept"] <+: h.descriptions)
      (fun h _ serves kept => kept.trans (prefix_descriptions_apply h serves)) hr.described

theorem Crowded.description (hr : r.Crowded n) : (r.hub.stream 0).description = "kept" := by
  obtain ⟨later, descriptions⟩ := hr.described
  rw [part_eq_getD (·.description), ← Hub.descriptions, ← descriptions]
  rfl

/-- The first stream keeps its place until all uids have been given out. -/
theorem crowded : ∀ {n : Nat}, n < uidCount →
    ((start ⟨.memory, fun _ => false⟩ ⟨10, 250, by decide, by decide⟩ 0 false).steps
      (crowd n)).Crowded n
  | 0, _ => ⟨named_steps .., rfl, rfl, rfl, by decide, by decide⟩
  | n + 1, few => by
    rw [crowd, steps, List.foldl_append]
    exact (crowded (Nat.lt_of_succ_lt few)).visit few

end Crowd

/-- One session describes its stream and stays, and 4294967294 sessions visit. The next stream that
is created takes the uid of the first one, and its entry of the catalog, though the first session
holds that stream still. -/
theorem creates_over_kept :
    let r := (start ⟨.memory, fun _ => false⟩ ⟨10, 250, by decide, by decide⟩ 0 false).steps
      (crowd 4294967294)
    (r.session 0).stream = some 0 ∧ (r.hub.stream 0).description = "kept" ∧
      (1, 0) ∈ r.hub.catalog ∧ r.hub.nextUid = 1 ∧
      (1, 0) ∉ r.hub.createStream.1.catalog ∧
      (1, 4294967295) ∈ r.hub.createStream.1.catalog := by
  intro r
  have crowded : r.Crowded 4294967294 := crowded (by decide)
  have wrapped : r.hub.nextUid = 1 := by
    rw [crowded.named.nextUid, crowded.streams]
    decide
  refine ⟨crowded.holds, crowded.description, crowded.listed, wrapped, fun still => ?_, ?_⟩
  · rcases mem_catalog_createStream.1 still with new | ⟨-, other⟩
    · have place := (Prod.mk.inj new).2
      rw [createStream, crowded.streams] at place
      cases place
    · exact other wrapped.symm
  · refine mem_catalog_createStream.2 (.inl ?_)
    rw [wrapped, createStream, crowded.streams]

end Relay

end EventRelay
