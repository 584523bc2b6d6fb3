import EventRelay.Proofs.Heard
import EventRelay.Proofs.Requeued

/-!
# One queue ahead of another

Two relays differ in what is queued to one connection: in the first at least as much is. As long as
the queue does not overflow there, whatever happens in both is the same, and queues the same to that
connection as well.
-/

namespace EventRelay

namespace Connection

/-- A batch has come for which there was no room in the queue. -/
def Overflowed (c : Connection) : Prop := c.closed = true ∧ c.capacity ≤ c.queue.length

instance : DecidablePred Overflowed := fun _ => inferInstanceAs (Decidable (_ ∧ _))

/-- An open connection with its writer has room for a batch, or overflows. -/
theorem hasRoom_of_send {c : Connection} (opened : c.closed = false) (draining : c.draining = true)
    {batch : List Message} (inTime : ¬(c.send batch).1.Overflowed) : c.HasRoom := by
  by_contra full
  rw [(send_of_full opened full batch).1] at inTime
  exact inTime ⟨rfl, Nat.not_lt.1 fun few => full ⟨draining, few⟩⟩

end Connection

namespace Hub

/-- What is queued to a connection since it was `q` in the one hub and `q'` in the other is the same
in both, and all else is the same. -/
structure Echoes (c : ConnId) (q q' : List (List Message)) (h h' : Hub) : Prop where
  known : c < h.connections.length
  opened : (h.connection c).closed = false
  draining : (h.connection c).draining = true
  fewer : q'.length ≤ q.length
  added : ∃ more, (h.connection c).queue = q ++ more ∧ h' = h.requeue c (q' ++ more)

section Echoes

variable {h h' m m' : Hub} {c d : ConnId} {i : StreamId} {q q' : List (List Message)}

/-- What has overflowed stays so, short of the queue being drained. -/
theorem Hushed.inTime (hh : Hushed c h h') (inTime : ¬(h'.connection c).Overflowed) :
    ¬(h.connection c).Overflowed := fun full => inTime (hh.closed full.1 ▸ full)

theorem Echoes.eq_requeue (he : Echoes c q q' h h') : ∃ queue, h' = h.requeue c queue :=
  let ⟨_, _, same⟩ := he.added
  ⟨_, same⟩

/-- What queues nothing, and does not depend on what is queued. -/
theorem Echoes.silent (he : Echoes c q q' h h')
    (silent : ∀ {queue}, Requeued c queue h.connections h h' →
      Requeued c queue h.connections m m') : Echoes c q q' m m' := by
  obtain ⟨known, opened, draining, fewer, more, queued, same⟩ := he
  obtain ⟨connections, same⟩ := silent ⟨rfl, same⟩
  have connection : m.connection c = h.connection c := by
    rw [Hub.connection, Hub.connection, connections]
  rw [← connections] at known
  rw [← connection] at opened draining queued
  exact ⟨known, opened, draining, fewer, more, queued, same⟩

/-- Something happens to another connection. -/
theorem Echoes.modifyConnection (he : Echoes c q q' h h') (hd : d ≠ c)
    (f : Connection → Connection) :
    Echoes c q q' (h.modifyConnection d f) (h'.modifyConnection d f) := by
  obtain ⟨known, opened, draining, fewer, more, queued, rfl⟩ := he
  have same : (h.modifyConnection d f).connection c = h.connection c := by
    rw [connection_modifyConnection, if_neg fun e => hd e.1]
  rw [← same] at opened draining queued
  refine ⟨?_, opened, draining, fewer, more, queued, ?_⟩
  · rwa [Hub.modifyConnection, List.length_modify]
  · simp only [requeue, Hub.modifyConnection, List.modify_modify_ne _ _ _ hd.symm]

theorem Echoes.connect (he : Echoes c q q' h h') (capacity : Nat) :
    Echoes c q q' (h.connect capacity).1 (h'.connect capacity).1 ∧
      (h'.connect capacity).2 = (h.connect capacity).2 := by
  obtain ⟨known, opened, draining, fewer, more, queued, rfl⟩ := he
  have same := h.connection_connect capacity known
  rw [← same] at opened draining queued
  refine ⟨⟨?_, opened, draining, fewer, more, queued, ?_⟩, List.length_modify ..⟩
  · simp only [Hub.connect, List.length_append]
    exact Nat.lt_add_right 1 known
  · have last (f : Connection → Connection) (new : Connection) :
        h.connections.modify c f ++ [new] = (h.connections ++ [new]).modify c f := by
      refine List.ext_getElem? fun d => ?_
      simp only [List.getElem?_append, List.getElem?_modify, List.length_modify]
      by_cases hd : c = d
      · simp [hd, hd ▸ known]
      · simp [hd]
    simp only [requeue, Hub.modifyConnection, Hub.connect, last]

theorem Echoes.connection_ne (he : Echoes c q q' h h') (hd : d ≠ c) :
    h'.connection d = h.connection d := by
  obtain ⟨queue, rfl⟩ := he.eq_requeue
  rw [requeue, connection_modifyConnection, if_neg fun e => hd e.1.symm]

/-! ## Sending -/

theorem connection_requeue (known : c < h.connections.length) (q : List (List Message)) :
    (h.requeue c q).connection c = { h.connection c with queue := q } := by
  rw [requeue, connection_modifyConnection, if_pos ⟨rfl, known⟩]

theorem requeue_requeue (q q' : List (List Message)) :
    (h.requeue c q).requeue c q' = h.requeue c q' := by
  simp only [requeue, Hub.modifyConnection, List.modify_modify_eq]
  rfl

theorem modifyConnection_congr {f g : Connection → Connection}
    (agree : f (h.connection c) = g (h.connection c)) :
    h.modifyConnection c f = h.modifyConnection c g := by
  unfold Hub.modifyConnection
  congr 1
  refine List.ext_getElem? fun d => ?_
  rw [List.getElem?_modify, List.getElem?_modify]
  split_ifs with hd
  · subst hd
    cases hc : h.connections[c]? with
    | none => rfl
    | some connection =>
      rw [Hub.connection, List.getD_eq_getElem?_getD, hc, Option.getD_some] at agree
      exact congrArg some agree
  · rfl

theorem requeue_self : h.requeue c (h.connection c).queue = h := by
  have same : h.requeue c (h.connection c).queue = h.modifyConnection c id :=
    modifyConnection_congr rfl
  rw [same, Hub.modifyConnection, List.modify_id]

theorem queue_of_room (opened : (h.connection c).closed = false) (room : (h.connection c).HasRoom)
    (batch : List Message) :
    h.queue c batch = (h.requeue c ((h.connection c).queue ++ [batch]), none) := by
  simp only [Hub.queue, Connection.send_of_room opened room, requeue]
  exact congrArg (·, none) (modifyConnection_congr rfl)

theorem echoes_requeue (known : c < h.connections.length) (opened : (h.connection c).closed = false)
    (draining : (h.connection c).draining = true) (fewer : q'.length ≤ q.length)
    (more : List (List Message)) :
    Echoes c q q' (h.requeue c (q ++ more)) (h.requeue c (q' ++ more)) := by
  have after := connection_requeue known (q ++ more)
  refine ⟨?_, after ▸ opened, after ▸ draining, fewer, more, by rw [after],
    (requeue_requeue _ _).symm⟩
  rwa [requeue, Hub.modifyConnection, List.length_modify]

theorem Echoes.hasRoom (he : Echoes c q q' h h') {batch : List Message}
    (inTime : ¬((h.queue c batch).1.connection c).Overflowed) : (h.connection c).HasRoom := by
  rw [Hub.queue, connection_modifyConnection, if_pos ⟨rfl, he.known⟩] at inTime
  exact Connection.hasRoom_of_send he.opened he.draining inTime

theorem Echoes.queue_self (he : Echoes c q q' h h') (batch : List Message)
    (inTime : ¬((h.queue c batch).1.connection c).Overflowed) :
    Echoes c q q' (h.queue c batch).1 (h'.queue c batch).1 ∧
      (h.queue c batch).2 = none ∧ (h'.queue c batch).2 = none := by
  have room := he.hasRoom inTime
  obtain ⟨known, opened, draining, fewer, more, queued, rfl⟩ := he
  have there := connection_requeue known (q' ++ more)
  have opened' : ((h.requeue c (q' ++ more)).connection c).closed = false := there ▸ opened
  have room' : ((h.requeue c (q' ++ more)).connection c).HasRoom := by
    rw [there]
    refine ⟨draining, Nat.lt_of_le_of_lt ?_ room.2⟩
    simp only [queued, List.length_append]
    omega
  rw [queue_of_room opened room, queue_of_room opened' room', there, requeue_requeue, queued,
    List.append_assoc, List.append_assoc]
  exact ⟨echoes_requeue known opened draining fewer _, rfl, rfl⟩

/-- A batch is queued to this connection or to another. -/
theorem Echoes.queue (he : Echoes c q q' h h') (d : ConnId) (batch : List Message)
    (inTime : ¬((h.queue d batch).1.connection c).Overflowed) :
    Echoes c q q' (h.queue d batch).1 (h'.queue d batch).1 ∧
      (h'.queue d batch).2 = (h.queue d batch).2 := by
  by_cases hd : d = c
  · subst hd
    obtain ⟨sent, taken, taken'⟩ := he.queue_self batch inTime
    exact ⟨sent, taken'.trans taken.symm⟩
  · rw [Hub.queue, Hub.queue, he.connection_ne hd]
    exact ⟨he.modifyConnection hd _, rfl⟩

theorem Echoes.alive (he : Echoes c q q' h h') : h'.isAlive = h.isAlive := by
  obtain ⟨queue, rfl⟩ := he.eq_requeue
  exact isAlive_requeue

theorem Echoes.stream (he : Echoes c q q' h h') : h'.stream = h.stream := by
  obtain ⟨queue, rfl⟩ := he.eq_requeue
  exact stream_requeue

theorem Echoes.sendTo (he : Echoes c q q' h h') (d : ConnId) (batch : List Message)
    (inTime : ¬((h.sendTo d batch).1.connection c).Overflowed) :
    Echoes c q q' (h.sendTo d batch).1 (h'.sendTo d batch).1 ∧
      (h'.sendTo d batch).2 = (h.sendTo d batch).2 := by
  unfold Hub.sendTo at inTime ⊢
  rw [he.alive]
  split_ifs at inTime ⊢
  · exact ⟨he, rfl⟩
  · obtain ⟨sent, same⟩ := he.queue d batch inTime
    exact ⟨sent, congrArg Option.isNone same⟩

theorem Echoes.sendAll (batch : List Message) : ∀ (cs : List ConnId) {h h' : Hub},
    Echoes c q q' h h' → ¬((h.sendAll batch cs).1.connection c).Overflowed →
      Echoes c q q' (h.sendAll batch cs).1 (h'.sendAll batch cs).1 ∧
        (h'.sendAll batch cs).2 = (h.sendAll batch cs).2
  | [], _, _, he, _ => ⟨he, rfl⟩
  | d :: cs, h, h', he, inTime => by
    obtain ⟨sent, taken⟩ := he.sendTo d batch ((hushed_sendAll batch cs _).inTime inTime)
    obtain ⟨all, kept⟩ := sent.sendAll batch cs inTime
    refine ⟨all, ?_⟩
    unfold Hub.sendAll
    dsimp only
    rw [taken, kept]

theorem Echoes.send (he : Echoes c q q' h h') (i : StreamId) (batch : List Message)
    (inTime : ¬((h.send i batch).1.connection c).Overflowed) :
    Echoes c q q' (h.send i batch).1 (h'.send i batch).1 ∧
      (h'.send i batch).2 = (h.send i batch).2 := by
  obtain ⟨sent, kept⟩ := he.sendAll batch (h.stream i).subscribers inTime
  unfold Hub.send
  dsimp only
  rw [he.stream, kept]
  exact ⟨sent.silent fun hm => hm.modifyStream i _, rfl⟩

theorem Echoes.deliver (he : Echoes c q q' h h') (i : StreamId) (events : List Message)
    (inTime : ¬((h.deliver i events).connection c).Overflowed) :
    Echoes c q q' (h.deliver i events) (h'.deliver i events) := by
  have sentInTime : ¬((h.send i events).1.connection c).Overflowed := by
    unfold Hub.deliver at inTime
    dsimp only at inTime
    split_ifs at inTime
    · rwa [(silent_idle (i := i)).connection] at inTime
    · exact inTime
  obtain ⟨sent, reached⟩ := he.send i events sentInTime
  have watched : (h'.send i events).1.subscriberCount i =
      (h.send i events).1.subscriberCount i := by
    rw [subscriberCount, subscriberCount, audience, audience, sent.alive, sent.stream]
  unfold Hub.deliver
  dsimp only
  rw [reached, watched]
  split_ifs
  · exact sent.silent fun hm => requeued_lockstep.idle hm
  · exact sent

/-- A timer of a stream goes off. -/
theorem Echoes.fire (he : Echoes c q q' h h') (i : StreamId) (epoch : Nat)
    (inTime : ¬((h.fire i epoch).connection c).Overflowed) :
    Echoes c q q' (h.fire i epoch) (h'.fire i epoch) := by
  have taken : Echoes c q q' (h.modifyReplay i fun r => (r.takeDue h.config).1)
      (h'.modifyReplay i fun r => (r.takeDue h'.config).1) :=
    he.silent fun hm => requeued_lockstep.replay Replay.rounds_takeDue hm
  have config : h'.config = h.config := by
    obtain ⟨queue, rfl⟩ := he.eq_requeue
    rfl
  rw [fire_eq] at inTime ⊢
  rw [fire_eq, he.stream]
  dsimp only at inTime ⊢
  rw [config] at taken ⊢
  split_ifs at inTime ⊢ with late none
  · exact he
  · exact taken.silent fun hm => requeued_lockstep.resume hm epoch
  · rw [(silent_resume epoch).connection] at inTime
    exact (taken.deliver i _ inTime).silent fun hm => requeued_lockstep.resume hm epoch

/-! ## What is received -/

theorem Echoes.sendStreams (batch : List Message) : ∀ {is : List StreamId} {h h' : Hub},
    Echoes c q q' h h' → ¬((h.sendStreams batch is).1.connection c).Overflowed →
      Echoes c q q' (h.sendStreams batch is).1 (h'.sendStreams batch is).1 ∧
        (h'.sendStreams batch is).2 = (h.sendStreams batch is).2
  | [], _, _, he, _ => ⟨he, rfl⟩
  | i :: is, h, h', he, inTime => by
    obtain ⟨sent, reached⟩ :=
      he.send i batch ((loyal_sendStreams batch is _).toHushed.inTime inTime)
    obtain ⟨all, idle⟩ := sent.sendStreams batch inTime
    refine ⟨all, ?_⟩
    unfold Hub.sendStreams
    dsimp only
    rw [reached, idle]

theorem Echoes.unsubscribeAll : ∀ (is : List StreamId) {h h' : Hub}, Echoes c q q' h h' →
    Echoes c q q' (is.foldl unsubscribeIfIdle h) (is.foldl unsubscribeIfIdle h')
  | [], _, _, he => he
  | i :: is, _, _, he =>
    (he.silent fun hm => requeued_lockstep.unsubscribeIfIdle (i := i) hm).unsubscribeAll is

theorem Echoes.broadcast (he : Echoes c q q' h h') (batch : List Message)
    (inTime : ¬((h.broadcast batch).connection c).Overflowed) :
    Echoes c q q' (h.broadcast batch) (h'.broadcast batch) := by
  have live : h'.live = h.live := by
    obtain ⟨queue, rfl⟩ := he.eq_requeue
    rfl
  unfold Hub.broadcast at inTime ⊢
  rw [live]
  split_ifs at inTime ⊢
  · exact he
  · obtain ⟨sent, idle⟩ :=
      he.sendStreams batch ((loyal_unsubscribeAll _ _).toHushed.inTime inTime)
    dsimp only
    rw [idle]
    exact sent.unsubscribeAll _

end Echoes

end Hub

namespace Desk

/-! ## Sessions at work -/

/-- A session has come to the same in front of two hubs that echo each other, with the connection
that it had before. -/
structure Echoes (c : ConnId) (q q' : List (List Message)) (before d d' : Desk) : Prop where
  hub : Hub.Echoes c q q' d.hub d'.hub
  connection : d.session.connection = before.session.connection
  session : d'.session = d.session
  readOnly : d'.readOnly = d.readOnly

section Echoes

variable {c : ConnId} {q q' : List (List Message)} {before d d' : Desk}

theorem hushed_handleRun (d : Desk) (run : Run) : Hub.Hushed c d.hub (d.handleRun run).1.hub := by
  cases run with
  | data events => exact (d.regards_handleData events).hushed c
  | control m =>
    exact Hub.hushed_of_connections ((Requeued.self d c []).handleControl m).1.hub.connections

theorem hushed_handleRuns : ∀ (runs : List Run) (d : Desk),
    Hub.Hushed c d.hub (d.handleRuns runs).1.hub
  | [], _ => ⟨rfl, fun _ => rfl⟩
  | run :: runs, d => (d.hushed_handleRun run).trans (hushed_handleRuns runs _)

/-- What queues nothing, and does not depend on what is queued. -/
theorem Echoes.silent (hd : Echoes c q q' before d d') {e e' : Desk}
    (silent : ∀ {queue}, Requeued c queue d d d' → Requeued c queue d e e') :
    Echoes c q q' before e e' := by
  have after {queue : List (List Message)} (hm : d'.hub = d.hub.requeue c queue) :=
    silent ⟨⟨rfl, hm⟩, rfl, hd.session, hd.readOnly⟩
  obtain ⟨queue, same⟩ := hd.hub.eq_requeue
  have turn := after same
  exact ⟨hd.hub.silent fun hm => (after hm.requeued).hub, turn.connection.trans hd.connection,
    turn.session, turn.readOnly⟩

theorem Echoes.handleControl (hd : Echoes c q q' before d d') (m : Message) :
    Echoes c q q' before (d.handleControl m).1 (d'.handleControl m).1 ∧
      (d'.handleControl m).2 = (d.handleControl m).2 := by
  obtain ⟨queue, same⟩ := hd.hub.eq_requeue
  have requeued : Requeued c queue d d d' := ⟨⟨rfl, same⟩, rfl, hd.session, hd.readOnly⟩
  exact ⟨hd.silent fun hm => (hm.handleControl m).1, (requeued.handleControl m).2⟩

theorem Echoes.handleData (hd : Echoes c q q' before d d') (run : List Message)
    (inTime : ¬((d.handleData run).1.hub.connection c).Overflowed) :
    Echoes c q q' before (d.handleData run).1 (d'.handleData run).1 ∧
      (d'.handleData run).2 = (d.handleData run).2 := by
  have stored : Hub.Echoes c q q' (if d.readOnly then d.hub else d.hub.stored run)
      (if d.readOnly then d'.hub else d'.hub.stored run) := by
    split_ifs
    · exact hd.hub
    · exact hd.hub.silent fun hm => hm.stored run
  refine ⟨⟨?_, ?_, ?_, ?_⟩, ?_⟩
  · rw [handleData_eq] at inTime ⊢
    rw [handleData_eq, hd.readOnly]
    exact stored.broadcast run inTime
  · rw [handleData_eq]
    exact hd.connection
  · rw [handleData_eq, handleData_eq]
    exact hd.session
  · rw [handleData_eq, handleData_eq]
    exact hd.readOnly
  · obtain ⟨queue, same⟩ := hd.hub.eq_requeue
    unfold Desk.handleData
    rw [hd.readOnly, same]
    split_ifs <;> rfl

theorem Echoes.handleRun (hd : Echoes c q q' before d d') (run : Run)
    (inTime : ¬((d.handleRun run).1.hub.connection c).Overflowed) :
    Echoes c q q' before (d.handleRun run).1 (d'.handleRun run).1 ∧
      (d'.handleRun run).2 = (d.handleRun run).2 := by
  cases run with
  | data events => exact hd.handleData events inTime
  | control m => exact hd.handleControl m

theorem Echoes.handleRuns : ∀ (runs : List Run) {d d' : Desk}, Echoes c q q' before d d' →
    ¬((d.handleRuns runs).1.hub.connection c).Overflowed →
      Echoes c q q' before (d.handleRuns runs).1 (d'.handleRuns runs).1 ∧
        (d'.handleRuns runs).2 = (d.handleRuns runs).2
  | [], _, _, hd, _ => ⟨hd, rfl⟩
  | run :: runs, d, d', hd, inTime => by
    obtain ⟨first, told⟩ := hd.handleRun run ((hushed_handleRuns runs _).inTime inTime)
    obtain ⟨rest, more⟩ := first.handleRuns runs inTime
    refine ⟨rest, ?_⟩
    unfold Desk.handleRuns
    dsimp only
    rw [told, more]

end Echoes

end Desk

namespace Relay

/-! ## The relay -/

/-- Two relays whose hubs echo each other at the connection of a session, which no other session
has. -/
structure Echoes (s : SessionId) (c : ConnId) (q q' : List (List Message)) (r r' : Relay) :
    Prop where
  hub : Hub.Echoes c q q' r.hub r'.hub
  sessions : r'.sessions = r.sessions
  readOnly : r'.readOnly = r.readOnly
  known : s < r.sessions.length
  connection : (r.session s).connection = c
  own : ∀ t < r.sessions.length, t ≠ s → (r.session t).connection ≠ c

/-- It is done by other sessions or happens to their connections, or the queue of the connection is
drained. -/
def Act.Beside (s : SessionId) : Act → Prop
  | .handle t _ | .disconnect t | .vanish t | .reply t _ | .close t | .dropWriter t | .drop t =>
    t ≠ s
  | .accept _ | .drain _ | .tick _ | .late .. | .wait _ | .fail .. => True

instance (s : SessionId) : DecidablePred (Act.Beside s)
  | .handle t _ | .disconnect t | .vanish t | .reply t _ | .close t | .dropWriter t | .drop t =>
    inferInstanceAs (Decidable (t ≠ s))
  | .accept _ | .drain _ | .tick _ | .late .. | .wait _ | .fail .. =>
    inferInstanceAs (Decidable True)

section Echoes

variable {r r' : Relay} {s t : SessionId} {c : ConnId} {q q' : List (List Message)}

theorem Echoes.session (hr : Echoes s c q q' r r') (t : SessionId) :
    r'.session t = r.session t := by
  rw [Relay.session, Relay.session, hr.sessions]

theorem Echoes.desk (hr : Echoes s c q q' r r') (t : SessionId) :
    Desk.Echoes c q q' (r.desk t) (r.desk t) (r'.desk t) :=
  ⟨hr.hub, rfl, hr.session t, hr.readOnly⟩

theorem Echoes.put (hr : Echoes s c q q' r r') (ht : t < r.sessions.length) {d d' : Desk}
    (hd : Desk.Echoes c q q' (r.desk t) d d') : Echoes s c q q' (r.put t d) (r'.put t d') := by
  have connection (u : SessionId) :
      ((r.put t d).session u).connection = (r.session u).connection := by
    rw [session_put r ht]
    split_ifs with he
    · rw [he]
      exact hd.connection
    · rfl
  have length : (r.put t d).sessions.length = r.sessions.length := List.length_set
  refine ⟨hd.hub, ?_, hr.readOnly, length ▸ hr.known, (connection s).trans hr.connection,
    fun u hu other => ?_⟩
  · rw [Relay.put, Relay.put, hr.sessions, hd.session]
  · rw [connection]
    exact hr.own u (length ▸ hu) other

/-- What leaves sessions as they are. -/
theorem Echoes.modifyHub (hr : Echoes s c q q' r r') (f : Hub → Hub)
    (hf : Hub.Echoes c q q' (f r.hub) (f r'.hub)) :
    Echoes s c q q' (r.modifyHub f) (r'.modifyHub f) :=
  ⟨hf, hr.sessions, hr.readOnly, hr.known, hr.connection, hr.own⟩

theorem Echoes.modifyConnection (hr : Echoes s c q q' r r') (ht : t < r.sessions.length)
    (other : t ≠ s) (f : Connection → Connection) :
    Echoes s c q q' (r.modifyConnection t f) (r'.modifyConnection t f) := by
  have hub := hr.hub.modifyConnection (hr.own t ht other) f
  refine ⟨?_, hr.sessions, hr.readOnly, hr.known, hr.connection, hr.own⟩
  rw [Relay.modifyConnection, Relay.modifyConnection, hr.session]
  exact hub

theorem Echoes.disconnect (hr : Echoes s c q q' r r') (ht : t < r.sessions.length) :
    Echoes s c q q' (r.disconnect t) (r'.disconnect t) :=
  hr.put ht ((hr.desk t).silent fun hm => hm.disconnect)

theorem Echoes.vanish (hr : Echoes s c q q' r r') (ht : t < r.sessions.length) (other : t ≠ s) :
    Echoes s c q q' (r.vanish t) (r'.vanish t) := by
  have hub := hr.hub.modifyConnection (hr.own t ht other) Connection.drop
  have gone : Echoes s c q q'
      (r.put t { r.desk t with
        hub := r.hub.modifyConnection (r.session t).connection Connection.drop
        session := { r.session t with stream := none } })
      (r'.put t { r'.desk t with
        hub := r'.hub.modifyConnection (r.session t).connection Connection.drop
        session := { r.session t with stream := none } }) :=
    hr.put ht ⟨hub, rfl, rfl, hr.readOnly⟩
  unfold Relay.vanish
  dsimp only
  rw [hr.session]
  exact gone

theorem Echoes.accept (hr : Echoes s c q q' r r') (capacity : Nat) :
    Echoes s c q q' (r.accept capacity).1 (r'.accept capacity).1 := by
  obtain ⟨hub, new⟩ := hr.hub.connect capacity
  have old {t : SessionId} (ht : t < r.sessions.length) :
      (r.accept capacity).1.session t = r.session t := by
    simp only [Relay.accept, Relay.session, List.getD_eq_getElem?_getD,
      List.getElem?_append_left ht]
  refine ⟨hub, ?_, hr.readOnly, ?_, ?_, fun t ht other => ?_⟩
  · simp only [Relay.accept, hr.sessions, new]
  · simp only [Relay.accept, List.length_append]
    exact Nat.lt_add_right 1 hr.known
  · rw [old hr.known]
    exact hr.connection
  · rcases Nat.lt_or_ge t r.sessions.length with before | after
    · rw [old before]
      exact hr.own t before other
    · have last : t = r.sessions.length := by
        simp only [Relay.accept, List.length_append, List.length_singleton] at ht
        exact Nat.le_antisymm (Nat.le_of_lt_succ ht) after
      simp only [Relay.accept, Relay.session, last, List.getD_eq_getElem?_getD,
        List.getElem?_concat_length, Option.getD_some, Hub.connect]
      exact Nat.ne_of_gt hr.hub.known

/-- Whatever others do comes to the same in both. -/
theorem Echoes.step (hr : Echoes s c q q' r r') {act : Act} (ready : r.Ready act)
    (beside : act.Beside s) (kept : act ≠ .drain s)
    (inTime : ¬((r.step act).hub.connection c).Overflowed) :
    Echoes s c q q' (r.step act) (r'.step act) := by
  cases act with
  | accept capacity => exact hr.accept capacity
  | handle t run => exact hr.put ready ((hr.desk t).handleRun run inTime).1
  | disconnect t => exact hr.disconnect ready
  | vanish t => exact hr.vanish ready beside
  | reply t batch => exact hr.modifyConnection ready beside _
  | drain t => exact hr.modifyConnection ready (fun e => kept (e ▸ rfl)) _
  | close t => exact hr.modifyConnection ready beside _
  | dropWriter t => exact hr.modifyConnection ready beside _
  | drop t => exact hr.modifyConnection ready beside _
  | tick i =>
    unfold Relay.step at inTime ⊢
    dsimp only at inTime ⊢
    rw [hr.hub.stream]
    split at inTime
    · exact hr
    · exact hr.modifyHub (·.fire i _) (hr.hub.fire i _ inTime)
  | late i epoch => exact hr.modifyHub (·.fire i epoch) (hr.hub.fire i epoch inTime)
  | wait now =>
    refine hr.modifyHub (fun h => { h with now }) (hr.hub.silent ?_)
    rintro queue ⟨same, hm⟩
    exact ⟨same, congrArg (fun h : Hub => { h with now }) hm⟩
  | fail request on =>
    refine hr.modifyHub (fun h => { h with archive := h.archive.setFailing request on })
      (hr.hub.silent ?_)
    rintro queue ⟨same, hm⟩
    exact ⟨same, congrArg (fun h : Hub =>
      { h with archive := h.archive.setFailing request on }) hm⟩

end Echoes

end Relay

end EventRelay
