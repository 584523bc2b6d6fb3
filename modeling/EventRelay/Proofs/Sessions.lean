import EventRelay.Proofs.Sent
import EventRelay.Relay

/-!
# All that happens to a relay

A relay is driven by its sessions, one run of events or one control message at a time, by the timers
of its streams, and by connections that come, are drained, fall behind and go. Whatever comes in
whatever order, every stream stays steady.
-/

namespace EventRelay

/-! ## The live feed -/

namespace Hub

variable {h : Hub} {held : List (Option StreamId)}

theorem Sound.sendStreams (batch : List Message) : ∀ {is : List StreamId} {h : Hub},
    h.Sound held → (∀ i ∈ is, i < h.streams.length) → (h.sendStreams batch is).1.Sound held ∧
      (h.sendStreams batch is).1.streams.length = h.streams.length ∧
      ∀ i ∈ (h.sendStreams batch is).2, i ∈ is
  | [], _, hs, _ => ⟨hs, rfl, fun _ hi => hi⟩
  | i :: is, h, hs, known => by
    have confined := confined_send h i batch
    have sent := hs.confined (known i (by simp)) confined
      (steady_send (hs.steady i (known i (by simp))) batch)
    obtain ⟨sound, streams, idle⟩ := Sound.sendStreams batch sent fun j (hj : j ∈ is) =>
      confined.known (known j (by simp [hj]))
    refine ⟨sound, streams.trans confined.streams, fun j hj => ?_⟩
    rw [Hub.sendStreams] at hj
    dsimp only at hj
    split_ifs at hj
    · exact List.mem_cons_of_mem _ (idle j hj)
    · rcases List.mem_cons.1 hj with rfl | hj
      · exact List.mem_cons_self
      · exact List.mem_cons_of_mem _ (idle j hj)

theorem Sound.unsubscribeAll : ∀ {is : List StreamId} {h : Hub}, h.Sound held →
    (∀ i ∈ is, i < h.streams.length) → (is.foldl unsubscribeIfIdle h).Sound held ∧
      (is.foldl unsubscribeIfIdle h).streams.length = h.streams.length
  | [], _, hs, _ => ⟨hs, rfl⟩
  | i :: is, h, hs, known => by
    have confined := confined_unsubscribeIfIdle h i
    have out := hs.confined (known i (by simp)) confined
      (steady_unsubscribeIfIdle (hs.steady i (known i (by simp))))
    obtain ⟨sound, streams⟩ := Sound.unsubscribeAll out fun j (hj : j ∈ is) =>
      confined.known (known j (by simp [hj]))
    exact ⟨sound, streams.trans confined.streams⟩

theorem Tidy.known_of_live (ht : h.Tidy held) {i : StreamId} (hi : i ∈ h.live.map (·.2)) :
    i < h.streams.length := by
  obtain ⟨e, he, rfl⟩ := List.mem_map.1 hi
  exact (ht.catalog e (ht.live e he)).1

theorem Sound.broadcast (hs : h.Sound held) (batch : List Message) :
    (h.broadcast batch).Sound held ∧
      (h.broadcast batch).streams.length = h.streams.length := by
  unfold Hub.broadcast
  split_ifs
  · exact ⟨hs, rfl⟩
  · have known : ∀ i ∈ h.live.map (·.2), i < h.streams.length := fun i hi => hs.known_of_live hi
    obtain ⟨sent, streams, idle⟩ := hs.sendStreams batch known
    obtain ⟨sound, same⟩ := sent.unsubscribeAll fun i hi => by
      rw [streams]
      exact known i (idle i hi)
    exact ⟨sound, same.trans streams⟩

/-- The store, the clock, and the state of connections short of their going matter to no stream. -/
theorem Sound.congr {h' : Hub} (hs : h.Sound held) (streams : h'.streams = h.streams)
    (catalog : h'.catalog = h.catalog) (live : h'.live = h.live) (nextUid : h'.nextUid = h.nextUid)
    (connections : h'.connections.length = h.connections.length)
    (alive : ∀ c, h'.isAlive c = true → h.isAlive c = true) : h'.Sound held := by
  have stream : h'.stream = h.stream := by
    funext i
    rw [Hub.stream, Hub.stream, streams]
  refine ⟨⟨?few, ?uids, ?nextUid, ?catalog, ?live, ?connections, ?subscribers, ?watching, ?holding,
    ?joins, ?live_nodup, ?audience_nodup⟩, fun i hi => ?steady⟩
  case few =>
    rw [streams]
    exact hs.few
  case uids =>
    rw [streams, stream]
    exact hs.uids
  case nextUid =>
    rw [nextUid, streams]
    exact hs.nextUid
  case catalog =>
    rw [catalog, streams, stream]
    exact hs.catalog
  case live =>
    rw [live, catalog]
    exact hs.live
  case connections =>
    rw [connections]
    exact hs.connections
  case subscribers =>
    rw [stream]
    exact hs.subscribers
  case watching =>
    intro i c hc
    obtain ⟨hm, ha⟩ := Confined.mem_audience.1 hc
    rw [stream] at hm
    exact hs.watching i c (Confined.mem_audience.2 ⟨hm, alive c ha⟩)
  case holding =>
    rw [catalog, stream]
    exact hs.holding
  case joins =>
    rw [stream]
    exact hs.joins
  case live_nodup =>
    rw [live]
    exact hs.live_nodup
  case audience_nodup =>
    intro i
    rw [audience, stream]
    exact (hs.audience_nodup i).sublist (List.monotone_filter_right _ alive)
  case steady =>
    rw [streams] at hi
    refine (hs.steady i hi).congr (by rw [streams]) (by rw [stream]) ?_ fun c _ => alive c
    rw [Listed, Listed, stream, live]

/-- A run of events goes into the store. -/
def stored (h : Hub) (run : List Message) : Hub :=
  { h with archive := (h.archive.appendBatch run).1 }

theorem Sound.stored (hs : h.Sound held) (run : List Message) : (h.stored run).Sound held :=
  hs.congr rfl rfl rfl rfl rfl fun _ ha => ha

end Hub

/-! ## Sessions at work -/

namespace Desk

open Hub

theorem handleData_eq (d : Desk) (run : List Message) : (d.handleData run).1 =
    { d with hub := (if d.readOnly then d.hub else d.hub.stored run).broadcast run } := by
  unfold handleData
  split_ifs <;> rfl

/-- The hub is sound, and the session holds what it is thought to hold. -/
structure Sound (d : Desk) (held : List (Option StreamId)) : Prop where
  hub : d.hub.Sound held
  session : held[d.session.connection]? = some d.session.stream

/-- The session has done something that may have changed what it holds. -/
structure Turn (d : Desk) (held : List (Option StreamId)) (d' : Desk) : Prop where
  connection : d'.session.connection = d.session.connection
  hub : d'.hub.Sound (held.set d.session.connection d'.session.stream)

variable {d : Desk} {held : List (Option StreamId)}

theorem Turn.sound {d' : Desk} (hd : d.Sound held) (ht : d.Turn held d') :
    d'.Sound (held.set d.session.connection d'.session.stream) where
  hub := ht.hub
  session := by
    rw [ht.connection]
    exact List.getElem?_set_self (List.getElem?_eq_some_iff.1 hd.session).1

theorem Turn.trans {d' d'' : Desk} (ht : d.Turn held d')
    (ht' : d'.Turn (held.set d.session.connection d'.session.stream) d'') : d.Turn held d'' where
  connection := ht'.connection.trans ht.connection
  hub := by
    have := ht'.hub
    rwa [ht.connection, List.set_set] at this

theorem Sound.stay (hd : d.Sound held) {hub : Hub} (hs : hub.Sound held) :
    d.Turn held { d with hub } where
  connection := rfl
  hub := by
    obtain ⟨hlt, he⟩ := List.getElem?_eq_some_iff.1 hd.session
    have same : held.set d.session.connection d.session.stream = held := by
      rw [← he, List.set_getElem_self]
    rwa [same]

/-- The stream of a session, made and joined if there is none. -/
theorem Sound.streamFor (hd : d.Sound held)
    (few : d.streamFor.1.hub.streams.length < 4294967295) :
    d.Turn held d.streamFor.1 ∧ d.streamFor.1.session.stream = some d.streamFor.2 := by
  unfold Desk.streamFor at few ⊢
  rcases hs : d.session.stream with _ | i
  · simp only [hs, streams_addSubscriber, streams_createStream] at few ⊢
    have session := hd.session
    rw [hs] at session
    exact ⟨⟨rfl, (hd.hub.createStream few).join session (mem_createStream d.hub)⟩, trivial⟩
  · simp only [hs]
    exact ⟨hd.stay hd.hub, trivial⟩

theorem Sound.known (hd : d.Sound held) {i : StreamId} (hi : d.session.stream = some i) :
    i < d.hub.streams.length := by
  have session := hd.session
  rw [hi] at session
  exact hd.hub.known_of_catalog (hd.hub.holding i (List.mem_of_getElem? session))

theorem Sound.onStream (hd : d.Sound held) {f : Hub → StreamId → Hub}
    (confined : ∀ h i, Confined i h (f h i)) (steady : ∀ h i, h.Steady i → (f h i).Steady i)
    (few : (d.onStream f).hub.streams.length < 4294967295) : d.Turn held (d.onStream f) := by
  have few' : d.streamFor.1.hub.streams.length < 4294967295 := by
    have := (confined d.streamFor.1.hub d.streamFor.2).streams
    exact this ▸ few
  obtain ⟨turn, stream⟩ := hd.streamFor few'
  have found := turn.sound hd
  have known := found.known stream
  refine turn.trans (found.stay (found.hub.confined known (confined _ _) (steady _ _ ?_)))
  exact found.hub.steady _ known

theorem Sound.leave (hd : d.Sound held) {i : StreamId} (hi : d.session.stream = some i) :
    (d.leave i).hub.Sound (held.set d.session.connection none) := by
  have session := hd.session
  rw [hi] at session
  exact hd.hub.leave session

theorem Sound.disconnect (hd : d.Sound held) : d.Turn held d.disconnect := by
  unfold Desk.disconnect
  split
  · exact hd.stay hd.hub
  · next i hi => exact ⟨rfl, hd.leave hi⟩

theorem mem_catalog {h : Hub} {uid : UInt32} {i : StreamId} (hi : h.getStream? uid = some i) :
    (uid, i) ∈ h.catalog := by
  obtain ⟨before, after, he, -⟩ := List.lookup_eq_some_iff.1 hi
  rw [he]
  simp

theorem Sound.subscribe (hd : d.Sound held) (uid : UInt32) : d.Turn held (d.subscribe uid).1 := by
  unfold Desk.subscribe
  rcases ht : d.hub.getStream? uid with _ | target
  · exact hd.stay hd.hub
  have listed := mem_catalog ht
  have hu : uid = (d.hub.stream target).uid := (hd.hub.catalog _ listed).2
  have session := hd.session
  rcases hs : d.session.stream with _ | current
  · rw [hs] at session
    exact ⟨rfl, hd.hub.join session (hu ▸ listed)⟩
  · dsimp only
    split_ifs with same
    · exact hd.stay hd.hub
    · have left := hd.leave hs
      have listed' : (uid, target) ∈ (d.leave current).hub.catalog :=
        mem_catalog_leave listed (Ne.symm same) d.session.connection
      have hu' : uid = ((d.leave current).hub.stream target).uid := (left.catalog _ listed').2
      have free : (held.set d.session.connection none)[d.session.connection]? = some none :=
        List.getElem?_set_self (List.getElem?_eq_some_iff.1 session).1
      have joined := left.join free (hu' ▸ listed')
      rw [List.set_set] at joined
      exact ⟨rfl, joined⟩

theorem Sound.handleData (hd : d.Sound held) (run : List Message) :
    d.Turn held (d.handleData run).1 := by
  rw [handleData_eq]
  split_ifs
  · exact hd.stay (hd.hub.broadcast run).1
  · exact hd.stay ((hd.hub.stored run).broadcast run).1

theorem Sound.handleControl (hd : d.Sound held) (m : Message)
    (few : (d.handleControl m).1.hub.streams.length < 4294967295) :
    d.Turn held (d.handleControl m).1 := by
  obtain ⟨timestamp, version, payload⟩ := m
  cases payload with
  | start => exact hd.onStream confined_startStream (fun _ _ => steady_startStream) few
  | stop => exact hd.onStream confined_stopStream (fun _ _ => steady_stopStream) few
  | seek p =>
    exact hd.onStream (confined_seekStream · · p) (fun _ _ hi => steady_seekStream hi p) few
  | speed x => exact hd.onStream (confined_setSpeed · · x) (fun _ _ hi => steady_setSpeed hi x) few
  | subscribeStream uid => exact hd.subscribe uid
  | streamDescription text =>
    exact hd.onStream (confined_describe · · text) (fun _ _ hi => steady_describe hi text) few
  | _ => exact hd.stay hd.hub

theorem Sound.handleRun (hd : d.Sound held) (run : Run)
    (few : (d.handleRun run).1.hub.streams.length < 4294967295) :
    d.Turn held (d.handleRun run).1 := by
  cases run with
  | data events => exact hd.handleData events
  | control m => exact hd.handleControl m few

theorem readOnly_streamFor (d : Desk) : d.streamFor.1.readOnly = d.readOnly := by
  unfold Desk.streamFor
  split <;> rfl

theorem readOnly_subscribe (d : Desk) (uid : UInt32) :
    (d.subscribe uid).1.readOnly = d.readOnly := by
  unfold Desk.subscribe
  split
  · rfl
  · split
    · rfl
    · dsimp only
      split_ifs <;> rfl

theorem readOnly_handleRun (d : Desk) (run : Run) : (d.handleRun run).1.readOnly = d.readOnly := by
  cases run with
  | data events => rw [Desk.handleRun, Desk.handleData_eq]
  | control m =>
    obtain ⟨timestamp, version, payload⟩ := m
    cases payload with
    | start | stop | seek | speed | streamDescription => exact readOnly_streamFor d
    | subscribeStream uid => exact readOnly_subscribe d uid
    | _ => rfl

end Desk

/-! ## The relay -/

namespace Relay

/-- What can happen to a relay. A session handles a run of events or a control message; its
connection is sent a reply, is drained by its writer, is closed, loses its writer, or is gone; and
the session leaves or vanishes. The pending timer of a stream goes off, or one that has been
superseded does. The store turns out of order and back, and time passes. -/
inductive Act where
  | accept (capacity : Nat)
  | handle (s : SessionId) (run : Run)
  | disconnect (s : SessionId)
  | vanish (s : SessionId)
  | reply (s : SessionId) (batch : List Message)
  | drain (s : SessionId)
  | close (s : SessionId)
  | dropWriter (s : SessionId)
  | drop (s : SessionId)
  | tick (i : StreamId)
  | late (i : StreamId) (epoch : Nat)
  | wait (now : Instant)
  | fail (request : Request) (on : Bool)
  deriving DecidableEq

def step (r : Relay) : Act → Relay
  | .accept capacity => (r.accept capacity).1
  | .handle s run => r.put s ((r.desk s).handleRun run).1
  | .disconnect s => r.disconnect s
  | .vanish s => r.vanish s
  | .reply s batch => r.modifyConnection s fun c => (c.send batch).1
  | .drain s => r.modifyConnection s fun c => c.drain.1
  | .close s => r.modifyConnection s Connection.close
  | .dropWriter s => r.modifyConnection s Connection.dropWriter
  | .drop s => r.modifyConnection s Connection.drop
  | .tick i =>
    match (r.hub.stream i).replay.timer with
    | none => r
    | some timer => r.modifyHub (·.fire i timer.epoch)
  | .late i epoch => r.modifyHub (·.fire i epoch)
  | .wait now => r.modifyHub fun h => { h with now }
  | .fail request on => r.modifyHub fun h => { h with archive := h.archive.setFailing request on }

/-- Sessions are those let in, and a timer that goes off is pending or superseded. -/
def Ready (r : Relay) : Act → Prop
  | .handle s _ | .disconnect s | .vanish s | .reply s _ | .drain s | .close s | .dropWriter s
  | .drop s => s < r.sessions.length
  | .tick i => (r.hub.stream i).replay.timer.isSome = true
  | .late i epoch => epoch < (r.hub.stream i).replay.epoch
  | .accept _ | .wait _ | .fail .. => True

instance (r : Relay) : DecidablePred r.Ready
  | .handle s _ | .disconnect s | .vanish s | .reply s _ | .drain s | .close s | .dropWriter s
  | .drop s => inferInstanceAs (Decidable (s < r.sessions.length))
  | .tick _ => inferInstanceAs (Decidable (_ = true))
  | .late i epoch => inferInstanceAs (Decidable (epoch < (r.hub.stream i).replay.epoch))
  | .accept _ | .wait _ | .fail .. => inferInstanceAs (Decidable True)

/-- And there stay fewer streams than there are uids. -/
def Allows (r : Relay) (act : Act) : Prop :=
  r.Ready act ∧ (r.step act).hub.streams.length < 4294967295

instance (r : Relay) : DecidablePred r.Allows := fun _ => inferInstanceAs (Decidable (_ ∧ _))

def steps (r : Relay) (acts : List Act) : Relay := acts.foldl step r

/-- Every act is possible when its turn comes. -/
def Allowed : Relay → List Act → Prop
  | _, [] => True
  | r, act :: acts => r.Allows act ∧ (r.step act).Allowed acts

instance : ∀ (r : Relay) (acts : List Act), Decidable (r.Allowed acts)
  | _, [] => inferInstanceAs (Decidable True)
  | r, act :: acts =>
    have : Decidable ((r.step act).Allowed acts) := instDecidableAllowed _ acts
    inferInstanceAs (Decidable (r.Allows act ∧ (r.step act).Allowed acts))

/-- A state that a relay comes to from its start. -/
def Reachable (r : Relay) : Prop :=
  ∃ archive config epoch readOnly acts, (start archive config epoch readOnly).Allowed acts ∧
    r = (start archive config epoch readOnly).steps acts

/-- What each session holds. -/
def held (r : Relay) : List (Option StreamId) := r.sessions.map (·.stream)

/-- Each session has the connection of its own number, and the hub is sound. -/
structure Sound (r : Relay) : Prop where
  connections : ∀ s < r.sessions.length, (r.session s).connection = s
  hub : r.hub.Sound r.held

section Step

variable {r : Relay}

theorem Sound.desk (hr : r.Sound) {s : SessionId} (hs : s < r.sessions.length) :
    (r.desk s).Sound r.held where
  hub := hr.hub
  session := by
    rw [Relay.desk, hr.connections s hs, Relay.held, List.getElem?_map, List.getElem?_eq_getElem hs]
    simp [session, hs]

theorem session_set (r : Relay) {s t : SessionId} (hs : s < r.sessions.length) (x : Session) :
    (r.sessions.set s x).getD t default = if t = s then x else r.session t := by
  simp only [session, List.getD_eq_getElem?_getD, List.getElem?_set]
  by_cases he : s = t
  · subst he
    simp [hs]
  · simp [he, Ne.symm he]

theorem session_put (r : Relay) {s t : SessionId} (hs : s < r.sessions.length) (d : Desk) :
    (r.put s d).session t = if t = s then d.session else r.session t :=
  session_set r hs d.session

theorem Sound.put (hr : r.Sound) {s : SessionId} (hs : s < r.sessions.length) {d : Desk}
    (ht : (r.desk s).Turn r.held d) : (r.put s d).Sound where
  connections t hlt := by
    rw [Relay.put, List.length_set] at hlt
    refine (congrArg Session.connection (session_set r hs d.session)).trans ?_
    split_ifs with he
    · rw [he]
      exact ht.connection.trans (hr.connections s hs)
    · exact hr.connections t hlt
  hub := by
    have := ht.hub
    rw [Relay.desk, hr.connections s hs] at this
    rwa [Relay.held, Relay.put, List.map_set]

theorem length_held (r : Relay) : r.held.length = r.sessions.length := List.length_map ..

theorem Sound.accept (hr : r.Sound) (capacity : Nat) : (r.accept capacity).1.Sound where
  connections s hs := by
    have length : r.hub.connections.length = r.sessions.length :=
      hr.hub.connections.trans r.length_held
    have he : (r.accept capacity).1.session s =
        (r.sessions ++ [Session.mk r.hub.connections.length none]).getD s default := rfl
    simp only [Relay.accept, List.length_append, List.length_singleton] at hs
    rw [he, List.getD_eq_getElem?_getD, List.getElem?_append]
    split_ifs with old
    · rw [← List.getD_eq_getElem?_getD]
      exact hr.connections s old
    · have new : s = r.sessions.length := by omega
      simp [new, length]
  hub := by
    rw [Relay.held, Relay.accept, List.map_append]
    exact hr.hub.connect capacity

/-- Something happens to a connection that does not bring it back. -/
theorem Sound.modifyConnection (hr : r.Sound) (s : SessionId) {f : Connection → Connection}
    (hf : ∀ c, (f c).alive = true → c.alive = true) : (r.modifyConnection s f).Sound where
  connections := hr.connections
  hub := by
    refine hr.hub.congr rfl rfl rfl rfl (List.length_modify ..) fun c ha => ?_
    unfold Hub.isAlive at ha ⊢
    rw [Relay.modifyConnection, Hub.connection_modifyConnection] at ha
    split_ifs at ha with hc
    · rw [← hc.1]
      exact hf _ ha
    · exact ha

theorem not_isAlive_drop (h : Hub) (c : ConnId) :
    ¬(h.modifyConnection c Connection.drop).isAlive c = true := by
  rw [Hub.isAlive, Hub.connection_modifyConnection]
  split_ifs with hc
  · exact Bool.false_ne_true
  · have none : h.connection c = default := by
      rw [Hub.connection, List.getD_eq_getElem?_getD, List.getElem?_eq_none]
      · rfl
      · exact Nat.not_lt.1 fun hlt => hc ⟨rfl, hlt⟩
    rw [none]
    exact Bool.false_ne_true

theorem Sound.vanish (hr : r.Sound) {s : SessionId} (hs : s < r.sessions.length) :
    (r.vanish s).Sound where
  connections t hlt := by
    rw [Relay.vanish, List.length_set] at hlt
    refine (congrArg Session.connection (session_set r hs _)).trans ?_
    split_ifs with he
    · rw [he]
      exact hr.connections s hs
    · exact hr.connections t hlt
  hub := by
    have dropped := (hr.modifyConnection s (f := Connection.drop)
      fun _ h => absurd h Bool.false_ne_true).hub
    have gone : ∀ j, s ∉ (r.modifyConnection s Connection.drop).hub.audience j := by
      intro j hm
      have := (Hub.Confined.mem_audience.1 hm).2
      rw [Relay.modifyConnection, hr.connections s hs] at this
      exact not_isAlive_drop _ s this
    have := dropped.release (by rw [length_held]; exact hs) gone
    rwa [Relay.held, Relay.vanish, List.map_set]

/-- There is nothing to a stream that is not there. -/
theorem stream_eq_default {h : Hub} {i : StreamId} (hi : ¬i < h.streams.length) :
    h.stream i = default := by
  rw [Hub.stream, List.getD_eq_getElem?_getD, List.getElem?_eq_none (Nat.not_lt.1 hi)]
  rfl

theorem Sound.fire (hr : r.Sound) {i : StreamId} (hi : i < r.hub.streams.length) (epoch : Nat) :
    (r.modifyHub (·.fire i epoch)).Sound where
  connections := hr.connections
  hub := by
    have steady := Hub.steady_fire (hr.hub.steady i hi) epoch
    exact hr.hub.confined hi (Hub.confined_fire _ i epoch) steady

theorem Sound.step (hr : r.Sound) {act : Act} (ha : r.Allows act) : (r.step act).Sound := by
  obtain ⟨ha, few⟩ := ha
  cases act with
  | accept capacity => exact hr.accept capacity
  | handle s run => exact hr.put ha ((hr.desk ha).handleRun run few)
  | disconnect s => exact hr.put ha (hr.desk ha).disconnect
  | vanish s => exact hr.vanish ha
  | reply s batch =>
    exact hr.modifyConnection s fun c h => (Hub.alive_send c batch).symm.trans h
  | drain s => exact hr.modifyConnection s fun _ h => h
  | close s => exact hr.modifyConnection s fun _ h => h
  | dropWriter s => exact hr.modifyConnection s fun _ h => h
  | drop s => exact hr.modifyConnection s fun _ h => absurd h Bool.false_ne_true
  | tick i =>
    have known : i < r.hub.streams.length := by
      by_contra hi
      rw [Ready, stream_eq_default hi] at ha
      cases ha
    rw [Relay.step]
    split
    · exact hr
    · exact hr.fire known _
  | late i epoch =>
    have known : i < r.hub.streams.length := by
      by_contra hi
      rw [Ready, stream_eq_default hi] at ha
      exact absurd ha (Nat.not_lt_zero _)
    exact hr.fire known epoch
  | wait now => exact ⟨hr.connections, hr.hub.congr rfl rfl rfl rfl rfl fun _ h => h⟩
  | fail request on => exact ⟨hr.connections, hr.hub.congr rfl rfl rfl rfl rfl fun _ h => h⟩

end Step

theorem start_sound (archive : Archive) (config : ReplayConfig) (epoch : Int64) (readOnly : Bool) :
    (start archive config epoch readOnly).Sound := by
  refine ⟨fun s hs => absurd hs (Nat.not_lt_zero s), ⟨⟨Nat.zero_lt_succ _, ?_, rfl, nofun, nofun,
    rfl, nofun, nofun, nofun, fun _ => Nat.zero_le _, .nil, fun _ => .nil⟩, ?_⟩⟩
  · exact fun i hi => absurd hi (Nat.not_lt_zero i)
  · exact fun i hi => absurd hi (Nat.not_lt_zero i)

theorem Sound.steps : ∀ {acts : List Act} {r : Relay}, r.Sound → r.Allowed acts →
    (r.steps acts).Sound
  | [], _, hr, _ => hr
  | _ :: _, _, hr, ha => (hr.step ha.1).steps ha.2

theorem Reachable.sound {r : Relay} (h : r.Reachable) : r.Sound := by
  obtain ⟨archive, config, epoch, readOnly, acts, allowed, rfl⟩ := h
  exact (start_sound archive config epoch readOnly).steps allowed

/-! ## Frames -/

section Frames

variable {s : SessionId}

theorem desk_put {r : Relay} (hs : s < r.sessions.length) {d : Desk}
    (writes : d.readOnly = r.readOnly) : (r.put s d).desk s = d := by
  rw [desk, session_put r hs, if_pos rfl, put, ← writes]

theorem put_put (r : Relay) (s : SessionId) (d d' : Desk) :
    (r.put s d).put s d' = r.put s d' := by
  rw [put, put, put, List.set_set]

theorem put_desk {r : Relay} (hs : s < r.sessions.length) : r.put s (r.desk s) = r := by
  have same : r.sessions.set s (r.session s) = r.sessions := by
    rw [session, List.getD_eq_getElem?_getD, List.getElem?_eq_getElem hs, Option.getD_some,
      List.set_getElem_self]
  rw [put, desk, same]

theorem put_handleRuns : ∀ (runs : List Run) {r : Relay}, s < r.sessions.length →
    r.put s ((r.desk s).handleRuns runs).1 = r.steps (runs.map (.handle s))
  | [], _, hs => put_desk hs
  | run :: runs, r, hs => by
    have there : s < (r.step (.handle s run)).sessions.length := by
      rwa [step, put, List.length_set]
    have same : (r.step (.handle s run)).desk s = ((r.desk s).handleRun run).1 :=
      desk_put hs (Desk.readOnly_handleRun _ run)
    have rest := put_handleRuns runs there
    rw [same, step, put_put] at rest
    exact rest

/-- A frame is handled one run of events or one control message at a time. -/
theorem handleBatch_eq_steps {r : Relay} (hs : s < r.sessions.length) (batch : List Message) :
    (r.handleBatch s batch).1 = r.steps ((Run.ofBatch batch).map (.handle s)) :=
  put_handleRuns _ hs

end Frames

/-! ## What a stream sends -/

section Quiet

variable {r : Relay} {i j : StreamId} {c : ConnId}

/-- What comes from elsewhere than the requests of those who watch: events that are received, and
timers. -/
def Act.Feeds : Act → Prop
  | .handle _ (.data _) | .tick _ | .late .. => True
  | _ => False

theorem Sound.quiet (hr : r.Sound) (hi : i < r.hub.streams.length)
    (stopped : (r.hub.stream i).playing = false) (hc : c ∈ (r.hub.stream i).subscribers)
    {act : Act} (feeds : act.Feeds) (ready : r.Ready act) :
    (r.step act).hub.connection c = r.hub.connection c := by
  have steady := hr.hub.steady i hi
  cases act with
  | handle s run =>
    cases run with
    | data events =>
      have out : ¬r.hub.Listed i := fun listed => by
        rw [(steady.listed listed).2] at stopped
        cases stopped
      rw [Relay.step, Desk.handleRun, Desk.handleData_eq]
      split_ifs
      · exact (hr.hub.aside_broadcast hc out events).connection
      · exact ((hr.hub.stored events).aside_broadcast hc out events).connection
    | control m => exact feeds.elim
  | tick j =>
    obtain ⟨timer, ht⟩ := Option.isSome_iff_exists.1 ready
    rw [Relay.step, ht]
    refine (Hub.confined_fire r.hub j timer.epoch).queues c fun hm => ?_
    have same := hr.hub.watches_one hc hm
    subst same
    rw [(steady.running (steady.timed.epoch_eq ht).1).2] at stopped
    cases stopped
  | late j epoch =>
    have superseded : r.hub.fire j epoch = r.hub := if_pos (Nat.ne_of_gt ready)
    rw [Relay.step, modifyHub, superseded]
  | _ => exact feeds.elim

end Quiet

/-- Live and replay exclude each other, and a playing stream before somebody is fed by one of them.
A stream that is not playing sends nothing to its subscribers. -/
theorem Reachable.live_or_replaying {r : Relay} (h : r.Reachable) :
    (∀ e ∈ r.hub.live, e ∈ r.hub.catalog) ∧
    ∀ uid i, (uid, i) ∈ r.hub.catalog → let s := r.hub.stream i
      (s.replay.running = true → s.live = false ∧ s.playing = true) ∧
      ((uid, i) ∈ r.hub.live → s.live = true ∧ s.playing = true) ∧
      (s.playing = true → r.hub.audience i ≠ [] →
        (s.live = true → (uid, i) ∈ r.hub.live) ∧
        (s.live = false → s.replay.running = true ∧
          ∃ timer, s.replay.timer = some timer ∧ timer.epoch = s.replay.epoch)) ∧
      (s.playing = false → ∀ c ∈ s.subscribers, ∀ act : Act, act.Feeds → r.Ready act →
        (r.step act).hub.connection c = r.hub.connection c) := by
  have hr := h.sound
  refine ⟨hr.hub.live, fun uid i he => ?_⟩
  obtain ⟨known, hu⟩ := hr.hub.catalog _ he
  have steady := hr.hub.steady i known
  have listed : r.hub.Listed i ↔ (uid, i) ∈ r.hub.live := by
    rw [Hub.Listed, ← hu]
  refine ⟨steady.running, fun hl => steady.listed (listed.2 hl), fun playing watched => ?_,
    fun stopped c hc act feeds ready => hr.quiet known stopped hc feeds ready⟩
  have served := steady.served playing watched
  refine ⟨fun live => ?_, fun replaying => ?_⟩
  · rw [if_pos live] at served
    exact listed.1 served
  · rw [if_neg (by simp [replaying])] at served
    exact ⟨served, steady.timed.exists_timer served⟩

/-- A stream that is started before the one event of its history replays it. -/
theorem Reachable.live_or_replaying_once :
    let once : Store := (Store.memory.appendBatch [.current 7 (.test ⟨"a", []⟩)]).1
    let r := (start ⟨once, fun _ => false⟩ ⟨10, 250, by decide, by decide⟩ 0 false).steps
      [.accept 4, .handle 0 (.control (.current 0 (.seek (.time 0)))),
        .handle 0 (.control (.current 0 .start))]
    (r.hub.stream 0).replay.running = true ∧ ∃ timer, (r.hub.stream 0).replay.timer = some timer ∧
      timer.epoch = (r.hub.stream 0).replay.epoch := by
  intro once r
  have reachable : r.Reachable := by
    refine ⟨_, _, _, _, _, ?_, rfl⟩
    decide
  have listed : (1, 0) ∈ r.hub.catalog := by decide
  have watched : r.hub.audience 0 ≠ [] := by decide
  have fed := ((live_or_replaying reachable).2 1 0 listed).2.2.1 (by decide) watched
  exact fed.2 (by decide)

end Relay

end EventRelay
