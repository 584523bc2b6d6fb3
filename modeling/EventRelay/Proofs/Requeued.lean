import EventRelay.Proofs.Elsewhere
import EventRelay.Proofs.Lockstep

/-!
# What the queue of a connection has no part in

What is queued to a connection matters to nothing but the writer of that connection, and to what is
queued behind it. Streams are directed, joined and left, and the catalog is kept, in the same way
whatever it is; and none of this queues anything.
-/

namespace EventRelay

namespace Hub

/-- The hub with something else queued to a connection. -/
def requeue (h : Hub) (c : ConnId) (queue : List (List Message)) : Hub :=
  h.modifyConnection c fun connection => { connection with queue }

/-- Two hubs with the same connections as before, but for what is queued to one. -/
structure Requeued (c : ConnId) (queue : List (List Message)) (connections : List Connection)
    (h h' : Hub) : Prop where
  connections : h.connections = connections
  requeued : h' = h.requeue c queue

section Requeued

variable {h h' : Hub} {c d : ConnId} {i : StreamId} {queue : List (List Message)}
  {connections : List Connection}

@[simp] theorem stream_requeue : (h.requeue c queue).stream = h.stream := rfl

@[simp] theorem isAlive_requeue : (h.requeue c queue).isAlive = h.isAlive := by
  funext d
  rw [isAlive, requeue, connection_modifyConnection]
  split_ifs with same
  · rw [same.1]
    rfl
  · rfl

@[simp] theorem audience_requeue : (h.requeue c queue).audience i = h.audience i := by
  rw [audience, isAlive_requeue]
  rfl

@[simp] theorem subscriberCount_requeue :
    (h.requeue c queue).subscriberCount i = h.subscriberCount i := by
  rw [subscriberCount, audience_requeue]
  rfl

theorem requeued_lockstep : Lockstep i (Requeued c queue connections) where
  resembles := by
    rintro h _ ⟨-, rfl⟩
    exact ⟨rfl, rfl, rfl, rfl, by rw [subscriberCount_requeue]⟩
  replay := by
    rintro h _ f - ⟨same, rfl⟩
    exact ⟨same, rfl⟩
  setLive := by
    rintro h _ live ⟨same, rfl⟩
    exact ⟨same, rfl⟩
  setPlaying := by
    rintro h _ playing ⟨same, rfl⟩
    exact ⟨same, rfl⟩
  registerLive := by
    rintro h _ ⟨same, rfl⟩
    unfold Hub.registerLive
    rw [subscriberCount_requeue, stream_requeue]
    split_ifs <;> exact ⟨same, rfl⟩
  deregisterLive := by
    rintro h _ ⟨same, rfl⟩
    unfold Hub.deregisterLive
    rw [stream_requeue]
    split_ifs <;> exact ⟨same, rfl⟩
  unsubscribeIfIdle := by
    rintro h _ ⟨same, rfl⟩
    unfold Hub.unsubscribeIfIdle
    rw [subscriberCount_requeue, stream_requeue]
    split_ifs <;> exact ⟨same, rfl⟩

theorem Requeued.modifyStream (hr : Requeued c queue connections h h') (i : StreamId)
    (f : Stream → Stream) :
    Requeued c queue connections (h.modifyStream i f) (h'.modifyStream i f) := by
  obtain ⟨same, rfl⟩ := hr
  exact ⟨same, rfl⟩

theorem Requeued.stored (hr : Requeued c queue connections h h') (run : List Message) :
    Requeued c queue connections (h.stored run) (h'.stored run) := by
  obtain ⟨same, rfl⟩ := hr
  exact ⟨same, rfl⟩

/-! ## Those who watch -/

theorem Requeued.addSubscriber (hr : Requeued c queue connections h h') (i : StreamId)
    (d : ConnId) :
    Requeued c queue connections (h.addSubscriber i d) (h'.addSubscriber i d) := by
  have resumed {m m' : Hub} (hm : Requeued c queue connections m m') :
      Requeued c queue connections (if (m.stream i).playing then m.play i else m)
        (if (m'.stream i).playing then m'.play i else m') := by
    rw [(requeued_lockstep.resembles hm).playing]
    split_ifs
    · exact requeued_lockstep.play hm
    · exact hm
  have audience : h'.audience i = h.audience i := by rw [hr.requeued, audience_requeue]
  unfold Hub.addSubscriber
  refine resumed ?_
  rw [audience]
  split_ifs
  · exact hr
  · exact hr.modifyStream i _

theorem Requeued.removeSubscriber (hr : Requeued c queue connections h h') (i : StreamId)
    (d : ConnId) :
    Requeued c queue connections (h.removeSubscriber i d) (h'.removeSubscriber i d) := by
  have alive : h'.isAlive = h.isAlive := by rw [hr.requeued, isAlive_requeue]
  have left := hr.modifyStream i fun s =>
    { s with subscribers := s.subscribers.filter fun e => h.isAlive e && e != d }
  have streams := congrArg Hub.stream left.requeued
  unfold Hub.removeSubscriber
  dsimp only
  rw [alive, streams]
  split_ifs with last last' last'
  · exact requeued_lockstep.idle left
  · exact absurd last last'
  · exact absurd last' last
  · exact left

/-! ## The catalog -/

theorem Requeued.createStream (hr : Requeued c queue connections h h') :
    Requeued c queue connections h.createStream.1 h'.createStream.1 ∧
      h'.createStream.2 = h.createStream.2 := by
  obtain ⟨same, rfl⟩ := hr
  exact ⟨⟨same, rfl⟩, rfl⟩

theorem Requeued.removeIfAbandoned (hr : Requeued c queue connections h h') (i : StreamId) :
    Requeued c queue connections (h.removeIfAbandoned i).1 (h'.removeIfAbandoned i).1 := by
  obtain ⟨same, rfl⟩ := hr
  unfold Hub.removeIfAbandoned isAbandoned
  rw [subscriberCount_requeue, stream_requeue]
  dsimp only
  split_ifs with abandoned abandoned' abandoned'
  · exact ⟨same, rfl⟩
  · exact absurd abandoned abandoned'
  · exact absurd abandoned' abandoned
  · exact ⟨same, rfl⟩

end Requeued

end Hub

namespace Desk

/-! ## Sessions at work -/

/-- A session has come to the same in front of two hubs that differ in what is queued to a
connection. It has the connection that it had before, and nothing was queued. -/
structure Requeued (c : ConnId) (queue : List (List Message)) (before d d' : Desk) : Prop where
  hub : d.hub.Requeued c queue before.hub.connections d'.hub
  connection : d.session.connection = before.session.connection
  session : d'.session = d.session
  readOnly : d'.readOnly = d.readOnly

section Requeued

variable {c : ConnId} {queue : List (List Message)} {before d d' : Desk}

theorem Requeued.self (d : Desk) (c : ConnId) (queue : List (List Message)) :
    Requeued c queue d d { d with hub := d.hub.requeue c queue } :=
  ⟨⟨rfl, rfl⟩, rfl, rfl, rfl⟩

/-- What a session is told does not depend on what is queued. -/
theorem Requeued.stamp (hd : Requeued c queue before d d') : d'.hub.stamp = d.hub.stamp := by
  rw [hd.hub.requeued]
  rfl

theorem Requeued.leave (hd : Requeued c queue before d d') (i : StreamId) :
    Requeued c queue before (d.leave i) (d'.leave i) where
  hub := by
    unfold Desk.leave
    dsimp only
    rw [hd.session]
    exact (hd.hub.removeSubscriber i _).removeIfAbandoned i
  connection := hd.connection
  session := hd.session
  readOnly := hd.readOnly

theorem Requeued.join (hd : Requeued c queue before d d') (i : StreamId) :
    Requeued c queue before (d.join i) (d'.join i) where
  hub := by
    unfold Desk.join
    dsimp only
    rw [hd.session]
    exact hd.hub.addSubscriber i _
  connection := hd.connection
  session := congrArg (fun session : Session => { session with stream := some i }) hd.session
  readOnly := hd.readOnly

theorem Requeued.disconnect (hd : Requeued c queue before d d') :
    Requeued c queue before d.disconnect d'.disconnect := by
  unfold Desk.disconnect
  rw [hd.session]
  split
  · exact hd
  · next i _ =>
    have free : Requeued c queue before { d with session := { d.session with stream := none } }
        { d' with session := { d'.session with stream := none } } :=
      ⟨hd.hub, hd.connection,
        congrArg (fun session : Session => { session with stream := none }) hd.session,
        hd.readOnly⟩
    rw [hd.session] at free
    exact free.leave i

theorem Requeued.streamFor (hd : Requeued c queue before d d') :
    Requeued c queue before d.streamFor.1 d'.streamFor.1 ∧ d'.streamFor.2 = d.streamFor.2 := by
  unfold Desk.streamFor
  rw [hd.session]
  split
  · exact ⟨hd, rfl⟩
  · obtain ⟨created, new⟩ := hd.hub.createStream
    have same : Requeued c queue before { d with hub := d.hub.createStream.1 }
        { d' with hub := d'.hub.createStream.1 } :=
      ⟨created, hd.connection, hd.session, hd.readOnly⟩
    have joined := same.join d.hub.createStream.2
    refine ⟨?_, new⟩
    dsimp only at joined ⊢
    rw [new]
    simpa only [Desk.join, hd.session] using joined

theorem Requeued.onStream (hd : Requeued c queue before d d') (f : Hub → StreamId → Hub)
    (hf : ∀ {h h'} (i : StreamId), Hub.Requeued c queue before.hub.connections h h' →
      Hub.Requeued c queue before.hub.connections (f h i) (f h' i)) :
    Requeued c queue before (d.onStream f) (d'.onStream f) := by
  obtain ⟨found, same⟩ := hd.streamFor
  unfold Desk.onStream
  dsimp only
  rw [same]
  exact ⟨hf _ found.hub, found.connection, found.session, found.readOnly⟩

theorem Requeued.subscribe (hd : Requeued c queue before d d') (uid : UInt32) :
    Requeued c queue before (d.subscribe uid).1 (d'.subscribe uid).1 ∧
      (d'.subscribe uid).2 = (d.subscribe uid).2 := by
  have streams : d'.hub.stream = d.hub.stream := by
    rw [hd.hub.requeued, Hub.stream_requeue]
  have listed : d'.hub.getStream? uid = d.hub.getStream? uid := by
    rw [hd.hub.requeued]
    rfl
  unfold Desk.subscribe nack ack
  rw [listed, hd.session, streams, hd.stamp]
  split
  · exact ⟨hd, rfl⟩
  next target _ =>
  split
  · have joined := hd.join target
    dsimp only
    rw [joined.stamp]
    exact ⟨joined, rfl⟩
  · next current _ =>
    dsimp only
    split_ifs
    · exact ⟨hd, rfl⟩
    · have moved := (hd.leave current).join target
      rw [moved.stamp]
      exact ⟨moved, rfl⟩

theorem Requeued.handleControl (hd : Requeued c queue before d d') (m : Message) :
    Requeued c queue before (d.handleControl m).1 (d'.handleControl m).1 ∧
      (d'.handleControl m).2 = (d.handleControl m).2 := by
  obtain ⟨timestamp, version, payload⟩ := m
  have range : d'.hub.range = d.hub.range := by
    rw [hd.hub.requeued]
    rfl
  have streams : d'.hub.listStreams = d.hub.listStreams := by
    rw [hd.hub.requeued]
    rfl
  cases payload with
  | start => exact ⟨hd.onStream _ fun _ hh => Hub.requeued_lockstep.startStream hh, rfl⟩
  | stop => exact ⟨hd.onStream _ fun _ hh => Hub.requeued_lockstep.stopStream hh, rfl⟩
  | seek p =>
    exact ⟨hd.onStream (·.seekStream · p) fun _ hh => Hub.requeued_lockstep.seekStream hh p, rfl⟩
  | speed x =>
    exact ⟨hd.onStream (fun h i => (h.setSpeed i x).1) fun _ hh =>
      Hub.requeued_lockstep.setSpeed hh x, rfl⟩
  | streamDescription text =>
    have described := hd.onStream (·.describe · text) fun i hh => hh.modifyStream i _
    refine ⟨described, ?_⟩
    unfold Desk.handleControl ack
    dsimp only
    rw [described.stamp]
  | subscribeStream uid =>
    obtain ⟨moved, told⟩ := hd.subscribe uid
    exact ⟨moved, congrArg (fun m => [m]) told⟩
  | hello version =>
    refine ⟨hd, ?_⟩
    unfold Desk.handleControl nack
    dsimp only
    rw [hd.stamp]
  | playbackTimeRange start stop =>
    refine ⟨hd, ?_⟩
    unfold Desk.handleControl Hub.rangeMessage
    dsimp only
    rw [hd.stamp, range]
  | listStreams streams' =>
    refine ⟨hd, ?_⟩
    unfold Desk.handleControl
    dsimp only
    rw [hd.stamp, streams]
  | _ => exact ⟨hd, rfl⟩

end Requeued

end Desk

end EventRelay
