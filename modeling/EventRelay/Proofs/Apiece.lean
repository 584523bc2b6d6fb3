import EventRelay.Proofs.Revived
import EventRelay.Proofs.Seated

/-!
# A stream apiece

A connection that is still there watches the stream that its session holds, once, and no other. The
live set has one entry for a uid, of a stream that is called so. Both hold however often uids come
round again, and whatever is removed from the catalog: they take nothing but that sessions are
handled in turn, each with the connection that it was let in with.
-/

namespace EventRelay

namespace Hub

variable {h h' h'' : Hub} {i : StreamId} {c : ConnId}

/-! ## The live set -/

/-- Every entry of the live set has the uid of its stream, and there is one entry for a uid. -/
structure Keyed (h : Hub) : Prop extends Named h where
  live : ∀ e ∈ h.live, e.2 < h.streams.length ∧ e.1 = uidOf e.2
  keys : (h.live.map (·.1)).Nodup

theorem keyed_start (archive : Archive) (config : ReplayConfig) (epoch : Int64) :
    (start archive config epoch).Keyed := ⟨named_start archive config epoch, nofun, .nil⟩

theorem keys_apply (once : (h.live.map (·.1)).Nodup) (op : Operation) :
    ((h.apply op).live.map (·.1)).Nodup := by
  cases op with
  | create => exact once
  | remove uid => exact keys_erase once uid
  | removeIfAbandoned i =>
    rcases h.apply_removeIfAbandoned i with removed | same
    · rw [removed]
      exact keys_erase once _
    · rwa [same]
  | control i request => exact (confined_control request).keys once
  | describe i text => exact once
  | join i c =>
    obtain ⟨m, rfl | rfl, confined⟩ := confined_addSubscriber h i c
    · exact confined.keys once
    · exact confined.keys once
  | leave i c => exact (confined_removeSubscriber h i c).keys once
  | broadcast batch => exact once.sublist ((live_broadcast h batch).map _)
  | fire i epoch => exact (confined_fire h i epoch).keys once
  | surround archive connections now => exact once

theorem Keyed.apply (hk : h.Keyed) (op : Operation) : (h.apply op).Keyed where
  toNamed := hk.toNamed.apply op
  live e he := by
    have more := streams_apply h op
    rcases live_apply he with old | ⟨-, known, uid⟩
    · obtain ⟨known, uid⟩ := hk.live e old
      exact ⟨known.trans_le more, uid⟩
    · exact ⟨known.trans_le more, uid.trans (hk.uids _ known)⟩
  keys := keys_apply hk.keys op

/-! ## Nobody joins -/

/-- Connections are there as before, and nobody has joined any stream. -/
structure Thins (h h' : Hub) : Prop where
  connections : h'.connections.length = h.connections.length
  alive : h'.isAlive = h.isAlive
  subscribers : ∀ j, ((h'.stream j).subscribers).Sublist (h.stream j).subscribers

theorem Thins.refl (h : Hub) : h.Thins h := ⟨rfl, rfl, fun _ => .refl _⟩

theorem Thins.trans (h₁ : h.Thins h') (h₂ : h'.Thins h'') : h.Thins h'' where
  connections := h₂.connections.trans h₁.connections
  alive := h₂.alive.trans h₁.alive
  subscribers j := (h₂.subscribers j).trans (h₁.subscribers j)

theorem Thins.audience (ht : h.Thins h') (j : StreamId) :
    (h'.audience j).Sublist (h.audience j) := by
  rw [Hub.audience, Hub.audience, ht.alive]
  exact (ht.subscribers j).filter _

theorem Confined.thins (hc : Confined i h h') : h.Thins h' where
  connections := hc.connections
  alive := funext hc.alive
  subscribers j := by
    by_cases hj : j = i
    · exact hj ▸ hc.subscribers
    · rw [hc.others j hj]

theorem thins_sendStreams (batch : List Message) : ∀ (is : List StreamId) (h : Hub),
    h.Thins (h.sendStreams batch is).1
  | [], h => .refl h
  | i :: is, h => (confined_send h i batch).thins.trans (thins_sendStreams batch is _)

theorem thins_unsubscribeAll : ∀ (is : List StreamId) (h : Hub),
    h.Thins (is.foldl unsubscribeIfIdle h)
  | [], h => .refl h
  | i :: is, h => (confined_unsubscribeIfIdle h i).thins.trans (thins_unsubscribeAll is _)

theorem thins_broadcast (h : Hub) (batch : List Message) : h.Thins (h.broadcast batch) := by
  unfold broadcast
  split_ifs
  · exact .refl h
  · exact (thins_sendStreams batch _ h).trans (thins_unsubscribeAll _ _)

theorem thins_removeIfAbandoned (h : Hub) (i : StreamId) :
    h.Thins (h.removeIfAbandoned i).1 := by
  unfold removeIfAbandoned
  dsimp only
  split_ifs <;> exact ⟨rfl, rfl, fun _ => .refl _⟩

theorem thins_createStream (h : Hub) : h.Thins h.createStream.1 where
  connections := rfl
  alive := rfl
  subscribers j := by
    rw [stream_createStream]
    split_ifs
    · exact List.nil_sublist _
    · exact .refl _

end Hub

/-! ## Sessions -/

namespace Desk

open Hub

variable {d d' d'' : Desk} {i : StreamId}

/-- Every stream is watched by each connection at most once, and none but the stream of the session
by its own. -/
structure Apiece (d : Desk) : Prop where
  nodup : ∀ j, (d.hub.audience j).Nodup
  own : ∀ j, d.session.connection ∈ d.hub.audience j → d.session.stream = some j

/-- The session has done something. At most its own connection has joined a stream, and that is the
stream that it holds now. -/
structure Ran (d d' : Desk) : Prop extends Apiece d' where
  connection : d'.session.connection = d.session.connection
  connections : d'.hub.connections.length = d.hub.connections.length
  alive : d'.hub.isAlive = d.hub.isAlive
  subscribers : ∀ j, ∀ c ∈ (d'.hub.stream j).subscribers,
    c ∈ (d.hub.stream j).subscribers ∨ c = d.session.connection

theorem Ran.trans (h₁ : d.Ran d') (h₂ : d'.Ran d'') : d.Ran d'' where
  toApiece := h₂.toApiece
  connection := h₂.connection.trans h₁.connection
  connections := h₂.connections.trans h₁.connections
  alive := h₂.alive.trans h₁.alive
  subscribers j c hc := by
    rcases h₂.subscribers j c hc with old | own
    · exact h₁.subscribers j c old
    · exact .inr (own.trans h₁.connection)

/-- Something has happened to streams, and the session holds what it held. -/
theorem Apiece.thins (hd : d.Apiece) {hub : Hub} (ht : d.hub.Thins hub) :
    d.Ran { d with hub } where
  nodup j := (hd.nodup j).sublist (ht.audience j)
  own j hm := hd.own j ((ht.audience j).subset hm)
  connection := rfl
  connections := ht.connections
  alive := ht.alive
  subscribers j _ hc := .inl ((ht.subscribers j).subset hc)

theorem Apiece.refl (hd : d.Apiece) : d.Ran d := hd.thins (.refl d.hub)

/-- Who watches nothing joins a stream. -/
theorem Apiece.join (hd : d.Apiece) (free : ∀ j, d.session.connection ∉ d.hub.audience j)
    (i : StreamId) : d.Ran (d.join i) := by
  obtain ⟨m, hm, confined⟩ := confined_addSubscriber d.hub i d.session.connection
  have enrolled : d.Ran { d with hub := m, session := { d.session with stream := some i } } := by
    by_cases known : i < d.hub.streams.length
    · rcases hm with rfl | rfl
      · exact ⟨⟨hd.nodup, fun j hj => absurd hj (free j)⟩, rfl, rfl, rfl, fun _ _ hc => .inl hc⟩
      · refine ⟨⟨fun j => ?_, fun j hj => ?_⟩, rfl, rfl, rfl, fun j c hc => ?_⟩
        · have joined := (hd.nodup j).concat (free j)
          rw [List.concat_eq_append] at joined
          exact joined.sublist (sublist_audience_enrol known _ j)
        · exact ((mem_audience_enrol known hj).resolve_left (free j)).2 ▸ rfl
        · by_cases hj : j = i
          · subst hj
            rw [stream_enrol_self known] at hc
            exact (List.mem_append.1 hc).imp_right List.mem_singleton.1
          · rw [stream_enrol_ne _ hj] at hc
            exact .inl hc
    · obtain rfl : m = d.hub := hm.elim id fun he => he.trans (enrol_of_unknown known _)
      exact ⟨⟨hd.nodup, fun j hj => absurd hj (free j)⟩, rfl, rfl, rfl, fun _ _ hc => .inl hc⟩
  exact enrolled.trans (enrolled.toApiece.thins confined.thins)

theorem Apiece.free (hd : d.Apiece) (none : d.session.stream = none) (j : StreamId) :
    d.session.connection ∉ d.hub.audience j := by
  intro hm
  have held := hd.own j hm
  rw [none] at held
  cases held

theorem Apiece.leave (hd : d.Apiece) (i : StreamId) : d.Ran (d.leave i) :=
  hd.thins ((confined_removeSubscriber _ i _).thins.trans (thins_removeIfAbandoned _ i))

/-- Who has left the stream of the session watches nothing. -/
theorem Apiece.free_leave (hd : d.Apiece) (hi : d.session.stream = some i) (j : StreamId) :
    d.session.connection ∉ (d.leave i).hub.audience j := by
  intro hm
  have left := (thins_removeIfAbandoned (d.hub.removeSubscriber i d.session.connection) i).audience
    j |>.subset hm
  have before := (confined_removeSubscriber d.hub i d.session.connection).audience left
  obtain rfl : i = j := Option.some.inj (hi.symm.trans (hd.own j before))
  exact not_mem_removeSubscriber (lt_of_watched (List.ne_nil_of_mem before)) _
    (Confined.mem_audience.1 left).1

theorem Apiece.streamFor (hd : d.Apiece) : d.Ran d.streamFor.1 := by
  unfold Desk.streamFor
  split
  · exact hd.refl
  · next none =>
    have created := hd.thins (thins_createStream d.hub)
    exact created.trans (created.join (created.free none) d.hub.createStream.2)

theorem Apiece.onStream (hd : d.Apiece) {f : Hub → StreamId → Hub}
    (confined : ∀ h i, Confined i h (f h i)) : d.Ran (d.onStream f) :=
  hd.streamFor.trans (hd.streamFor.toApiece.thins (confined _ _).thins)

theorem Apiece.disconnect (hd : d.Apiece) : d.Ran d.disconnect := by
  unfold Desk.disconnect
  split
  · exact hd.refl
  · next i hi =>
    have left := hd.leave i
    exact ⟨⟨left.nodup, fun j hj => absurd hj (hd.free_leave hi j)⟩, left.connection,
      left.connections, left.alive, left.subscribers⟩

theorem Apiece.subscribe (hd : d.Apiece) (uid : UInt32) : d.Ran (d.subscribe uid).1 := by
  unfold Desk.subscribe
  split
  · exact hd.refl
  next target _ =>
  split
  · next none => exact hd.join (hd.free none) target
  · next current hc =>
    dsimp only
    split_ifs
    · exact hd.refl
    · have left := hd.leave current
      exact left.trans (left.join (hd.free_leave hc) target)

theorem Apiece.handleData (hd : d.Apiece) (run : List Message) : d.Ran (d.handleData run).1 := by
  rw [handleData_eq]
  split_ifs
  · exact hd.thins (thins_broadcast _ run)
  · have kept : d.hub.Thins (d.hub.stored run) := ⟨rfl, rfl, fun _ => .refl _⟩
    exact hd.thins (kept.trans (thins_broadcast _ run))

theorem Apiece.handleControl (hd : d.Apiece) (m : Message) : d.Ran (d.handleControl m).1 := by
  obtain ⟨timestamp, version, payload⟩ := m
  cases payload with
  | start => exact hd.onStream confined_startStream
  | stop => exact hd.onStream confined_stopStream
  | seek p => exact hd.onStream (confined_seekStream · · p)
  | speed x => exact hd.onStream (confined_setSpeed · · x)
  | subscribeStream uid => exact hd.subscribe uid
  | streamDescription text => exact hd.onStream (confined_describe · · text)
  | _ => exact hd.refl

theorem Apiece.handleRun (hd : d.Apiece) (run : Run) : d.Ran (d.handleRun run).1 := by
  cases run with
  | data events => exact hd.handleData events
  | control m => exact hd.handleControl m

end Desk

/-! ## The relay -/

namespace Relay

open Hub

variable {r : Relay} {s : SessionId}

/-- Each session has the connection of its own number, and connections watch what their sessions
hold. -/
structure Apiece (r : Relay) : Prop where
  connections : ∀ s < r.sessions.length, (r.session s).connection = s
  length : r.hub.connections.length = r.sessions.length
  subscribers : ∀ j, ∀ c ∈ (r.hub.stream j).subscribers, c < r.sessions.length
  nodup : ∀ j, (r.hub.audience j).Nodup
  holds : ∀ j, ∀ c ∈ r.hub.audience j, (r.session c).stream = some j
  hub : r.hub.Keyed

/-- Who watches one stream does not watch another. -/
theorem Apiece.one (hr : r.Apiece) {c : ConnId} {i j : StreamId} (hi : c ∈ r.hub.audience i)
    (hj : c ∈ r.hub.audience j) : i = j :=
  Option.some.inj ((hr.holds i c hi).symm.trans (hr.holds j c hj))

theorem Apiece.desk (hr : r.Apiece) (hs : s < r.sessions.length) : (r.desk s).Apiece where
  nodup := hr.nodup
  own j hm := by
    rw [Relay.desk, hr.connections s hs] at hm
    exact hr.holds j s hm

theorem Apiece.put (hr : r.Apiece) (hs : s < r.sessions.length) {d : Desk}
    (ran : (r.desk s).Ran d) (keyed : d.hub.Keyed) : (r.put s d).Apiece := by
  have own : (r.desk s).session.connection = s := hr.connections s hs
  have length : (r.put s d).sessions.length = r.sessions.length := List.length_set
  refine ⟨fun t ht => ?_, ?_, fun j c hc => ?_, ran.nodup, fun j c hc => ?_, keyed⟩
  · rw [session_put r hs]
    split_ifs with he
    · exact (ran.connection.trans own).trans he.symm
    · exact hr.connections t (length ▸ ht)
  · exact (ran.connections.trans hr.length).trans length.symm
  · rw [length]
    rcases ran.subscribers j c hc with old | rfl
    · exact hr.subscribers j c old
    · exact own.symm ▸ hs
  · obtain ⟨subscribed, alive⟩ := Confined.mem_audience.1 hc
    rw [session_put r hs]
    split_ifs with he
    · refine ran.own j ?_
      rw [ran.connection, own, ← he]
      exact hc
    · rcases ran.subscribers j c subscribed with old | same
      · refine hr.holds j c (Confined.mem_audience.2 ⟨old, ?_⟩)
        exact (congrFun ran.alive c).symm.trans alive
      · exact absurd (same.trans own) he

/-- Something has happened to streams that has to do with no session. -/
theorem Apiece.thins (hr : r.Apiece) {hub : Hub} (ht : r.hub.Thins hub) (keyed : hub.Keyed) :
    ({ r with hub } : Relay).Apiece where
  connections := hr.connections
  length := ht.connections.trans hr.length
  subscribers j c hc := hr.subscribers j c ((ht.subscribers j).subset hc)
  nodup j := (hr.nodup j).sublist (ht.audience j)
  holds j c hc := hr.holds j c ((ht.audience j).subset hc)
  hub := keyed

/-- Something has happened to connections that brings none of them back, and to sessions of those
that are gone. -/
theorem Apiece.connections_congr (hr : r.Apiece) {connections : List Connection}
    {sessions : List Session} (length : connections.length = r.hub.connections.length)
    (alive : ∀ c, ({ r.hub with connections } : Hub).isAlive c = true →
      r.hub.isAlive c = true ∧ sessions.getD c default = r.session c)
    (same : sessions.length = r.sessions.length)
    (own : ∀ s < r.sessions.length, (sessions.getD s default).connection = s) :
    ({ r with hub := { r.hub with connections }, sessions } : Relay).Apiece where
  connections t ht := own t (same ▸ ht)
  length := (length.trans hr.length).trans same.symm
  subscribers j c hc := same ▸ hr.subscribers j c hc
  nodup j := (hr.nodup j).sublist (List.monotone_filter_right _ fun c ha => (alive c ha).1)
  holds j c hc := by
    obtain ⟨subscribed, ha⟩ := Confined.mem_audience.1 hc
    obtain ⟨before, session⟩ := alive c ha
    exact (congrArg Session.stream session).trans
      (hr.holds j c (Confined.mem_audience.2 ⟨subscribed, before⟩))
  hub := hr.hub.apply (.surround r.hub.archive connections r.hub.now)

theorem Apiece.modifyConnection (hr : r.Apiece) (s : SessionId) {f : Connection → Connection}
    (hf : ∀ c, (f c).alive = true → c.alive = true) : (r.modifyConnection s f).Apiece := by
  refine hr.connections_congr (List.length_modify ..) (fun c ha => ⟨?_, rfl⟩) rfl hr.connections
  change ((r.hub.modifyConnection _ f).connection c).alive = true at ha
  rw [Hub.connection_modifyConnection] at ha
  split_ifs at ha with hc
  · exact hc.1 ▸ hf _ ha
  · exact ha

theorem Apiece.vanish (hr : r.Apiece) (hs : s < r.sessions.length) : (r.vanish s).Apiece := by
  refine hr.connections_congr (List.length_modify ..) (fun c ha => ?_) List.length_set
    fun t ht => ?_
  · have other : c ≠ s := by
      rintro rfl
      refine not_isAlive_drop r.hub c ?_
      rwa [hr.connections c hs] at ha
    refine ⟨?_, ?_⟩
    · change ((r.hub.modifyConnection _ Connection.drop).connection c).alive = true at ha
      rw [Hub.connection_modifyConnection, hr.connections s hs, if_neg fun e => other e.1.symm]
        at ha
      exact ha
    · rw [session_set r hs, if_neg other]
  · rw [session_set r hs]
    split_ifs with he
    · exact (hr.connections s hs).trans he.symm
    · exact hr.connections t ht

theorem Apiece.accept (hr : r.Apiece) (capacity : Nat) : (r.accept capacity).1.Apiece := by
  have old {j : StreamId} {c : ConnId} (hc : c ∈ (r.hub.stream j).subscribers) :
      (r.hub.connect capacity).1.isAlive c = r.hub.isAlive c :=
    isAlive_connect r.hub capacity (hr.length ▸ hr.subscribers j c hc)
  have audience (j : StreamId) : (r.hub.connect capacity).1.audience j = r.hub.audience j :=
    List.filter_congr fun c hc => old hc
  have session (t : SessionId) (ht : t < r.sessions.length) :
      (r.accept capacity).1.session t = r.session t := by
    rw [Relay.session, Relay.session, List.getD_eq_getElem?_getD, List.getD_eq_getElem?_getD]
    exact congrArg (·.getD default) (List.getElem?_append_left ht)
  refine ⟨fun t ht => ?_, ?_, fun j c hc => ?_, fun j => ?_, fun j c hc => ?_,
    hr.hub.apply (.surround r.hub.archive _ r.hub.now)⟩
  · rw [Relay.accept, List.length_append, List.length_singleton] at ht
    by_cases new : t < r.sessions.length
    · exact (congrArg Session.connection (session t new)).trans (hr.connections t new)
    · obtain rfl : t = r.sessions.length := by omega
      simp [Relay.session, Relay.accept, Hub.connect, hr.length]
  · simp [Relay.accept, Hub.connect, hr.length]
  · rw [Relay.accept, List.length_append]
    exact Nat.lt_add_right _ (hr.subscribers j c hc)
  · exact (audience j).symm ▸ hr.nodup j
  · have there : c ∈ r.hub.audience j := audience j ▸ hc
    rw [session c (hr.subscribers j c (Confined.mem_audience.1 there).1)]
    exact hr.holds j c there

/-- Every act is possible when its turn comes, however many streams there come to be. -/
def Feasible : Relay → List Act → Prop
  | _, [] => True
  | r, act :: acts => r.Ready act ∧ (r.step act).Feasible acts

instance : ∀ (r : Relay) (acts : List Act), Decidable (r.Feasible acts)
  | _, [] => inferInstanceAs (Decidable True)
  | r, act :: acts =>
    have : Decidable ((r.step act).Feasible acts) := instDecidableFeasible _ acts
    inferInstanceAs (Decidable (r.Ready act ∧ (r.step act).Feasible acts))

theorem Keyed.step (hk : r.hub.Keyed) (act : Act) : (r.step act).hub.Keyed := by
  have led : Leads (Operation.Serves fun _ => True) r.hub (r.step act).hub :=
    r.leads_step fun _ _ => trivial
  exact led.keeps (fun _ op _ hk => hk.apply op) hk

theorem Apiece.step (hr : r.Apiece) {act : Act} (ready : r.Ready act) : (r.step act).Apiece := by
  have keyed := Keyed.step hr.hub act
  cases act with
  | accept capacity => exact hr.accept capacity
  | handle s run => exact hr.put ready ((hr.desk ready).handleRun run) keyed
  | disconnect s => exact hr.put ready (hr.desk ready).disconnect keyed
  | vanish s => exact hr.vanish ready
  | reply s batch =>
    exact hr.modifyConnection s fun c h => (Hub.alive_send c batch).symm.trans h
  | drain s => exact hr.modifyConnection s fun _ h => h
  | close s => exact hr.modifyConnection s fun _ h => h
  | dropWriter s => exact hr.modifyConnection s fun _ h => h
  | drop s => exact hr.modifyConnection s fun _ h => absurd h Bool.false_ne_true
  | tick i =>
    rw [Relay.step] at keyed ⊢
    split at keyed
    · exact hr
    · exact hr.thins (Hub.confined_fire _ i _).thins keyed
  | late i epoch => exact hr.thins (Hub.confined_fire _ i epoch).thins keyed
  | wait now => exact hr.thins ⟨rfl, rfl, fun _ => .refl _⟩ keyed
  | fail request on => exact hr.thins ⟨rfl, rfl, fun _ => .refl _⟩ keyed

theorem start_apiece (archive : Archive) (config : ReplayConfig) (epoch : Int64)
    (readOnly : Bool) : (start archive config epoch readOnly).Apiece where
  connections s hs := absurd hs (Nat.not_lt_zero s)
  length := rfl
  subscribers _ := nofun
  nodup _ := .nil
  holds _ := nofun
  hub := keyed_start archive config epoch

theorem Apiece.steps : ∀ {acts : List Act} {r : Relay}, r.Apiece → r.Feasible acts →
    (r.steps acts).Apiece
  | [], _, hr, _ => hr
  | _ :: _, _, hr, feasible => (hr.step feasible.1).steps feasible.2

/-- A state that a relay comes to from its start, however many streams it has made by then. -/
def Attained (r : Relay) : Prop :=
  ∃ archive config epoch readOnly acts, (start archive config epoch readOnly).Feasible acts ∧
    r = (start archive config epoch readOnly).steps acts

theorem Attained.apiece (h : r.Attained) : r.Apiece := by
  obtain ⟨archive, config, epoch, readOnly, acts, feasible, rfl⟩ := h
  exact (start_apiece archive config epoch readOnly).steps feasible

end Relay

end EventRelay
