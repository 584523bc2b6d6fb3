import EventRelay.Proofs.Echoes
import EventRelay.Proofs.Fanout

/-!
# Queues cut in other places

Two hubs may differ in how the messages queued to each connection are cut into batches. Nothing
looks at that but the bound of the queue, and where there is room in the queue that is cut into more
batches there is room in the other. So what is done to both leaves the same, cut in other places;
and a run of events is broadcast in one piece or in two with no other difference.
-/

namespace EventRelay

namespace Connection

variable {x x' x'' : Connection}

/-- The same connection, with the same messages queued in no more batches. -/
structure Recut (x x' : Connection) : Prop where
  same : x' = { x with queue := x'.queue }
  fewer : x'.queue.length ≤ x.queue.length
  messages : x'.queue.flatten = x.queue.flatten

theorem Recut.refl (x : Connection) : x.Recut x := ⟨rfl, Nat.le_refl _, rfl⟩

theorem Recut.trans (h₁ : x.Recut x') (h₂ : x'.Recut x'') : x.Recut x'' where
  same := by
    obtain ⟨queue, rfl⟩ : ∃ queue, x' = { x with queue } := ⟨_, h₁.same⟩
    exact h₂.same
  fewer := h₂.fewer.trans h₁.fewer
  messages := h₂.messages.trans h₁.messages

/-- There is room for a batch, unless nothing is taken anyway. -/
def Roomy (x : Connection) : Prop := x.closed = false → x.queue.length < x.capacity

theorem Recut.takes (hr : x.Recut x') (roomy : x.Roomy) : x'.Takes ↔ x.Takes := by
  obtain ⟨same, fewer, -⟩ := hr
  obtain ⟨queue, rfl⟩ : ∃ queue, x' = { x with queue } := ⟨_, same⟩
  refine and_congr_right fun opened => and_congr_right fun _ => ?_
  exact iff_of_true (Nat.lt_of_le_of_lt fewer (roomy opened)) (roomy opened)

theorem Recut.send (hr : x.Recut x') (roomy : x.Roomy) (batch : List Message) :
    (x.send batch).1.Recut (x'.send batch).1 := by
  have takes := hr.takes roomy
  obtain ⟨same, fewer, messages⟩ := hr
  obtain ⟨queue, rfl⟩ : ∃ queue, x' = { x with queue } := ⟨_, same⟩
  by_cases open? : x.Takes
  · rw [send_of_takes open?, send_of_takes (takes.2 open?)]
    refine ⟨rfl, ?_, ?_⟩
    · simpa using fewer
    · simpa using messages
  · rw [(send_of_not_takes open? batch).1, (send_of_not_takes (mt takes.1 open?) batch).1]
    exact ⟨rfl, fewer, messages⟩

/-- Two batches in turn, or both in one. -/
theorem recut_send_append (ys zs : List Message) (roomy : (x.send ys).1.Roomy) :
    ((x.send ys).1.send zs).1.Recut (x.send (ys ++ zs)).1 := by
  by_cases takes : x.Takes
  · have sent := send_of_takes takes ys
    rw [sent] at roomy ⊢
    have still : ({ x with queue := x.queue ++ [ys] } : Connection).Takes :=
      ⟨takes.1, takes.2.1, roomy takes.1⟩
    rw [send_of_takes still, send_of_takes takes]
    refine ⟨rfl, ?_, ?_⟩
    · simp
    · simp
  · have closed : ¬x.close.Takes := fun open? => by cases open?.1
    rw [(send_of_not_takes takes ys).1, (send_of_not_takes takes _).1,
      (send_of_not_takes closed zs).1]
    exact .refl _

end Connection

namespace Hub

variable {h h' h'' : Hub} {i : StreamId} {c : ConnId}

/-- The same hub, with the same messages queued to each connection in no more batches. -/
structure Recut (h h' : Hub) : Prop where
  hub : h' = { h with connections := h'.connections }
  length : h'.connections.length = h.connections.length
  connections : ∀ c, (h.connection c).Recut (h'.connection c)

theorem Recut.refl (h : Hub) : h.Recut h := ⟨rfl, rfl, fun _ => .refl _⟩

theorem Recut.trans (h₁ : h.Recut h') (h₂ : h'.Recut h'') : h.Recut h'' where
  hub := by
    obtain ⟨connections, rfl⟩ : ∃ connections, h' = { h with connections } := ⟨_, h₁.hub⟩
    exact h₂.hub
  length := h₂.length.trans h₁.length
  connections c := (h₁.connections c).trans (h₂.connections c)

section Recut

variable (hr : h.Recut h')
include hr

theorem Recut.isAlive : h'.isAlive = h.isAlive := by
  funext c
  rw [Hub.isAlive, (hr.connections c).same]
  rfl

theorem Recut.stream : h'.stream = h.stream := by
  rw [hr.hub]
  rfl

theorem Recut.live : h'.live = h.live := by
  rw [hr.hub]

theorem Recut.audience : h'.audience = h.audience := by
  funext i
  rw [Hub.audience, hr.isAlive, hr.stream]
  rfl

theorem Recut.reaches : h'.Reaches c ↔ h.Reaches c := by
  rw [Reaches, hr.live, hr.audience]
  rfl

theorem Recut.fanned (hf : h.Fanned) : h'.Fanned where
  nodup := hr.audience ▸ hf.nodup
  one := hr.audience ▸ hf.one
  live := by
    rw [hr.hub]
    exact hf.live
  keys := hr.live ▸ hf.keys

theorem Recut.stored (run : List Message) : (h.stored run).Recut (h'.stored run) := by
  obtain ⟨hub, length, connections⟩ := hr
  obtain ⟨_, rfl⟩ : ∃ connections, h' = { h with connections } := ⟨_, hub⟩
  exact ⟨rfl, length, connections⟩

end Recut

/-! ## Broadcasts -/

/-- Whoever is reached by a broadcast has room for it, or is closed. -/
def Roomy (h : Hub) : Prop := ∀ c, h.Reaches c → (h.connection c).Roomy

theorem mem_takers : c ∈ h.takers i ↔ c ∈ h.audience i ∧ (h.connection c).Takes := by
  rw [takers, List.mem_filter, takes, Bool.and_eq_true, decide_eq_true_iff, Confined.mem_audience,
    and_assoc]

theorem takers_eq_filter (h : Hub) (i : StreamId) :
    h.takers i = (h.audience i).filter fun c => decide (h.connection c).Takes := by
  rw [takers, audience, List.filter_filter]
  exact List.filter_congr fun c _ => Bool.and_comm ..

theorem Recut.takers (hr : h.Recut h') (roomy : h.Roomy) (fed : i ∈ h.live.map (·.2)) :
    h'.takers i = h.takers i := by
  rw [takers_eq_filter, takers_eq_filter, hr.audience]
  refine List.filter_congr fun c hc => decide_eq_decide.2 ?_
  obtain ⟨e, he, rfl⟩ := List.mem_map.1 fed
  exact (hr.connections c).takes (roomy c ⟨e, he, hc⟩)

/-- The same batch to both. -/
theorem Recut.fanOut (hr : h.Recut h') (roomy : h.Roomy) (batch : List Message) :
    (h.fanOut batch).Recut (h'.fanOut batch) where
  hub := by
    have streams : (h'.fanOut batch).streams = (h.fanOut batch).streams := by
      refine ext_getD (d := default) ?_ fun i => ?_
      · rw [Hub.fanOut, Hub.fanOut, List.length_mapIdx, List.length_mapIdx, hr.hub]
      · refine (stream_fanOut h' batch i).trans (Eq.trans ?_ (stream_fanOut h batch i).symm)
        rw [hr.live, hr.stream]
        split_ifs with fed
        · rw [hr.takers roomy fed]
        · rfl
    have live : (h'.fanOut batch).live = (h.fanOut batch).live := by
      rw [Hub.fanOut, hr.live]
      exact List.filter_congr fun e he => by rw [hr.takers roomy (List.mem_map_of_mem he)]
    have frame : h'.fanOut batch = { h with
        connections := (h'.fanOut batch).connections
        streams := (h'.fanOut batch).streams
        live := (h'.fanOut batch).live } := by
      obtain ⟨_, same⟩ : ∃ connections, h' = { h with connections } := ⟨_, hr.hub⟩
      rw [same]
      rfl
    rw [frame, streams, live]
    rfl
  length := by
    rw [Hub.fanOut, Hub.fanOut, List.length_mapIdx, List.length_mapIdx]
    exact hr.length
  connections c := by
    rw [connection_fanOut, connection_fanOut]
    by_cases reached : h.Reaches c
    · rw [if_pos reached, if_pos (hr.reaches.2 reached)]
      exact (hr.connections c).send (roomy c reached) batch
    · rw [if_neg reached, if_neg (mt hr.reaches.1 reached)]
      exact hr.connections c

theorem isAlive_fanOut (h : Hub) (batch : List Message) : (h.fanOut batch).isAlive = h.isAlive := by
  funext c
  rw [isAlive, connection_fanOut]
  split_ifs
  · exact alive_send _ batch
  · rfl

/-- Whoever has taken a batch is reached by the next one, and nobody else. -/
theorem reaches_fanOut {batch : List Message} :
    (h.fanOut batch).Reaches c ↔ h.Reaches c ∧ (h.connection c).Takes := by
  have audience {e : UInt32 × StreamId} (he : e ∈ h.live) :
      c ∈ (h.fanOut batch).audience e.2 ↔ c ∈ h.audience e.2 ∧ (h.connection c).Takes := by
    rw [Confined.mem_audience, stream_fanOut, if_pos (List.mem_map_of_mem he), isAlive_fanOut,
      mem_takers, Confined.mem_audience]
    tauto
  constructor
  · rintro ⟨e, he, hc⟩
    have fed := (List.mem_filter.1 he).1
    obtain ⟨watching, takes⟩ := (audience fed).1 hc
    exact ⟨⟨e, fed, watching⟩, takes⟩
  · rintro ⟨⟨e, he, hc⟩, takes⟩
    refine ⟨e, List.mem_filter.2 ⟨he, ?_⟩, (audience he).2 ⟨hc, takes⟩⟩
    exact decide_eq_true (List.ne_nil_of_mem (mem_takers.2 ⟨hc, takes⟩))

theorem takers_fanOut {batch : List Message} (roomy : (h.fanOut batch).Roomy)
    (fed : i ∈ h.live.map (·.2)) : (h.fanOut batch).takers i = h.takers i := by
  rw [takers, stream_fanOut, if_pos fed]
  refine List.filter_eq_self.2 fun c hc => ?_
  obtain ⟨watching, takes⟩ := mem_takers.1 hc
  obtain ⟨e, he, rfl⟩ := List.mem_map.1 fed
  have reached : h.Reaches c := ⟨e, he, watching⟩
  have roomy := roomy c (reaches_fanOut.2 ⟨reached, takes⟩)
  rw [connection_fanOut, if_pos reached, Connection.send_of_takes takes] at roomy
  rw [Hub.takes, isAlive_fanOut, (Confined.mem_audience.1 watching).2, Bool.true_and,
    connection_fanOut, if_pos reached, Connection.send_of_takes takes]
  exact decide_eq_true ⟨takes.1, takes.2.1, roomy takes.1⟩

/-- A batch in two pieces, or in one. -/
theorem recut_fanOut_append (ys zs : List Message) (roomy : (h.fanOut ys).Roomy) :
    ((h.fanOut ys).fanOut zs).Recut (h.fanOut (ys ++ zs)) where
  hub := by
    have streams : ((h.fanOut ys).fanOut zs).streams = (h.fanOut (ys ++ zs)).streams := by
      refine ext_getD (d := default) ?_ fun i => ?_
      · simp [fanOut]
      · refine (stream_fanOut _ zs i).trans (Eq.trans ?_ (stream_fanOut h (ys ++ zs) i).symm)
        rw [stream_fanOut]
        by_cases fed : i ∈ h.live.map (·.2)
        · rw [if_pos fed, takers_fanOut roomy fed]
          split_ifs <;> rfl
        · have out : i ∉ (h.fanOut ys).live.map (·.2) := fun hi =>
            fed (((List.filter_sublist (l := h.live)).map _).subset hi)
          rw [if_neg fed, if_neg out]
    have live : ((h.fanOut ys).fanOut zs).live = (h.fanOut (ys ++ zs)).live := by
      refine (List.filter_filter ..).trans (List.filter_congr fun e he => ?_)
      rw [takers_fanOut roomy (List.mem_map_of_mem he), Bool.and_self]
    have frame : h.fanOut (ys ++ zs) = { (h.fanOut ys).fanOut zs with
        connections := (h.fanOut (ys ++ zs)).connections
        streams := (h.fanOut (ys ++ zs)).streams
        live := (h.fanOut (ys ++ zs)).live } := rfl
    rw [frame, ← streams, ← live]
  length := by simp [fanOut]
  connections c := by
    rw [connection_fanOut, connection_fanOut, connection_fanOut]
    by_cases reached : h.Reaches c
    · rw [if_pos reached, if_pos reached]
      by_cases takes : (h.connection c).Takes
      · have again : (h.fanOut ys).Reaches c := reaches_fanOut.2 ⟨reached, takes⟩
        have roomy := roomy c again
        rw [connection_fanOut, if_pos reached] at roomy
        rw [if_pos again]
        exact Connection.recut_send_append ys zs roomy
      · rw [if_neg fun again => takes (reaches_fanOut.1 again).2,
          (Connection.send_of_not_takes takes _).1, (Connection.send_of_not_takes takes _).1]
        exact .refl _
    · rw [if_neg reached, if_neg reached, if_neg fun again => reached (reaches_fanOut.1 again).1]
      exact .refl _

/-! ## Control -/

/-- The hub with something else queued to every connection. -/
def requeues (h : Hub) (queue : ConnId → List (List Message)) : Hub :=
  { h with connections := h.connections.mapIdx fun c x => { x with queue := queue c } }

/-- Connection by connection. -/
theorem requeues_eq_foldl (h : Hub) (queue : ConnId → List (List Message)) :
    h.requeues queue =
      (List.range h.connections.length).foldl (fun m c => m.requeue c (queue c)) h := by
  have upTo (n : Nat) : (List.range n).foldl (fun m c => m.requeue c (queue c)) h = { h with
      connections := h.connections.mapIdx fun c x =>
        if c < n then { x with queue := queue c } else x } := by
    induction n with
    | zero =>
      refine congrArg (fun connections => { h with connections }) ?_
      exact List.ext_getElem? fun c => by simp
    | succ n ih =>
      rw [List.range_succ, List.foldl_append, ih, List.foldl_cons, List.foldl_nil, requeue,
        modifyConnection]
      refine congrArg (fun connections => { h with connections }) ?_
      refine List.ext_getElem? fun c => ?_
      simp only [List.getElem?_modify, List.getElem?_mapIdx]
      cases h.connections[c]? with
      | none => simp
      | some x =>
        rcases Nat.lt_trichotomy c n with hc | rfl | hc
        · simp [hc, hc.ne', Nat.lt_succ_of_lt hc]
        · simp
        · simp [hc.ne, Nat.not_lt.2 hc.le, Nat.not_lt.2 (Nat.succ_le_of_lt hc)]
  rw [upTo, requeues]
  refine congrArg (fun connections => { h with connections }) ?_
  refine List.ext_getElem? fun c => ?_
  simp only [List.getElem?_mapIdx]
  by_cases hc : c < h.connections.length
  · simp [hc]
  · simp [Nat.not_lt.1 hc]

theorem connection_requeues (queue : ConnId → List (List Message)) (c : ConnId) :
    (h.requeues queue).connection c =
      if c < h.connections.length then { h.connection c with queue := queue c } else default :=
  getD_mapIdx _ _ c default

theorem Recut.eq_requeues (hr : h.Recut h') :
    h' = h.requeues fun c => (h'.connection c).queue := by
  refine hr.hub.trans (congrArg (fun connections => { h with connections }) ?_)
  refine ext_getD (d := default) (hr.length.trans List.length_mapIdx.symm) fun c => ?_
  refine Eq.trans ?_ (connection_requeues (h := h) (fun c => (h'.connection c).queue) c).symm
  split_ifs with known
  · exact (hr.connections c).same
  · exact connection_eq_default (hr.length ▸ known)

theorem recut_requeues {queue : ConnId → List (List Message)}
    (fewer : ∀ c < h.connections.length, (queue c).length ≤ (h.connection c).queue.length)
    (messages : ∀ c < h.connections.length, (queue c).flatten = (h.connection c).queue.flatten) :
    h.Recut (h.requeues queue) where
  hub := rfl
  length := List.length_mapIdx
  connections c := by
    rw [connection_requeues]
    split_ifs with known
    · exact ⟨rfl, fewer c known, messages c known⟩
    · rw [connection_eq_default known]
      exact .refl _

end Hub

namespace Desk

variable {d d' : Desk}

/-- The same session, in front of hubs that differ in how queues are cut. -/
structure Recut (d d' : Desk) : Prop where
  hub : d.hub.Recut d'.hub
  session : d'.session = d.session
  readOnly : d'.readOnly = d.readOnly

theorem handleControl_requeue (d : Desk) (c : ConnId) (queue : List (List Message)) (m : Message) :
    { d with hub := d.hub.requeue c queue }.handleControl m =
      ({ (d.handleControl m).1 with hub := (d.handleControl m).1.hub.requeue c queue },
        (d.handleControl m).2) := by
  obtain ⟨⟨⟨-, hub⟩, -, session, readOnly⟩, replies⟩ :=
    (Requeued.self d c queue).handleControl m
  refine Prod.ext ?_ replies
  generalize (handleControl { d with hub := d.hub.requeue c queue } m).1 = e at hub session readOnly
  obtain ⟨_, _, _⟩ := e
  dsimp only at hub session readOnly ⊢
  rw [hub, session, readOnly]

theorem connections_handleControl (d : Desk) (m : Message) :
    (d.handleControl m).1.hub.connections = d.hub.connections :=
  ((Requeued.self d 0 []).handleControl m).1.hub.connections

theorem handleControl_requeues (queue : ConnId → List (List Message)) (m : Message) (d : Desk) :
    { d with hub := d.hub.requeues queue }.handleControl m =
      ({ (d.handleControl m).1 with hub := (d.handleControl m).1.hub.requeues queue },
        (d.handleControl m).2) := by
  have all (cs : List ConnId) : ∀ d : Desk,
      { d with hub := cs.foldl (fun m c => m.requeue c (queue c)) d.hub }.handleControl m =
        ({ (d.handleControl m).1 with
            hub := cs.foldl (fun m c => m.requeue c (queue c)) (d.handleControl m).1.hub },
          (d.handleControl m).2) := by
    induction cs with
    | nil => exact fun _ => rfl
    | cons c cs ih =>
      intro d
      have rest := ih { d with hub := d.hub.requeue c (queue c) }
      rw [handleControl_requeue] at rest
      exact rest
  rw [Hub.requeues_eq_foldl, Hub.requeues_eq_foldl, connections_handleControl]
  exact all _ d

/-- Control messages take no notice of how queues are cut. -/
theorem Recut.handleControl (hd : d.Recut d') (m : Message) :
    (d.handleControl m).1.Recut (d'.handleControl m).1 ∧
      (d'.handleControl m).2 = (d.handleControl m).2 := by
  obtain ⟨hub, session, readOnly⟩ := hd
  have same : d' = { d with hub := d.hub.requeues fun c => (d'.hub.connection c).queue } := by
    obtain ⟨_, _, _⟩ := d'
    dsimp only at hub session readOnly ⊢
    rw [session, readOnly, ← hub.eq_requeues]
  have connection (c : ConnId) :
      (d.handleControl m).1.hub.connection c = d.hub.connection c := by
    rw [Hub.connection, connections_handleControl]
    rfl
  rw [same, handleControl_requeues]
  refine ⟨⟨Hub.recut_requeues (fun c _ => ?_) fun c _ => ?_, rfl, rfl⟩, rfl⟩
  · rw [connection]
    exact (hub.connections c).fewer
  · rw [connection]
    exact (hub.connections c).messages

end Desk

end EventRelay
