import EventRelay.Hub.Audience
import EventRelay.Hub.Catalog

/-!
# Sessions

A session is what a connection has with the relay: it sends messages and gets replies, and it holds
at most one stream. The first message that needs a stream creates one. Runs of data messages are
stored and broadcast as one batch; every other message is answered on its own, with one reply or
with none.
-/

namespace EventRelay

structure Session where
  connection : ConnId
  stream : Option StreamId
  deriving DecidableEq, Inhabited

/-- The hub with a session in front of it. In read-only mode events are relayed and not stored. -/
structure Desk where
  hub : Hub
  session : Session
  readOnly : Bool

namespace Desk

def nack (h : Hub) : Message := h.stamp (.status .nack)

def ack (h : Hub) : Message := h.stamp (.status .ack)

/-- The stream of the session. Without one, a new stream is created and joined. -/
def streamFor (d : Desk) : Desk × StreamId :=
  match d.session.stream with
  | some i => (d, i)
  | none =>
    let (hub, i) := d.hub.createStream
    ({ d with
        hub := hub.addSubscriber i d.session.connection
        session := { d.session with stream := some i } }, i)

/-- Does something to the stream of the session. -/
def onStream (d : Desk) (f : Hub → StreamId → Hub) : Desk :=
  let (d, i) := d.streamFor
  { d with hub := f d.hub i }

/-- Leaves a stream, which goes if it was private to the session. -/
def leave (d : Desk) (i : StreamId) : Desk :=
  { d with hub := ((d.hub.removeSubscriber i d.session.connection).removeIfAbandoned i).1 }

/-- Leaves the stream of the session for good. -/
def disconnect (d : Desk) : Desk :=
  match d.session.stream with
  | none => d
  | some i => { d with session := { d.session with stream := none } }.leave i

def join (d : Desk) (i : StreamId) : Desk :=
  { d with
    hub := d.hub.addSubscriber i d.session.connection
    session := { d.session with stream := some i } }

/-- Moves to the stream with a uid; the answer says whether there is one. -/
def subscribe (d : Desk) (uid : UInt32) : Desk × Message :=
  match d.hub.getStream? uid with
  | none => (d, nack d.hub)
  | some target =>
    match d.session.stream with
    | none => let d := d.join target; (d, ack d.hub)
    | some current =>
      if (d.hub.stream current).uid = uid then (d, ack d.hub)
      else let d := (d.leave current).join target; (d, ack d.hub)

/-- Stores a run of events and broadcasts it. The answer is a refusal if the store failed. -/
def handleData (d : Desk) (run : List Message) : Desk × List Message :=
  if d.readOnly then ({ d with hub := d.hub.broadcast run }, [])
  else
    let (archive, e) := d.hub.archive.appendBatch run
    let hub := { d.hub with archive }
    ({ d with hub := hub.broadcast run }, if e.isSome then [nack hub] else [])

/-- Answers a message that is not an event. -/
def handleControl (d : Desk) (m : Message) : Desk × List Message :=
  match m.payload with
  | .hello version =>
    (d, [if version = protocolVersion then d.hub.stamp (.hello protocolVersion) else nack d.hub])
  | .start => (d.onStream fun h i => h.startStream i, [])
  | .stop => (d.onStream fun h i => h.stopStream i, [])
  | .seek position => (d.onStream fun h i => h.seekStream i position, [])
  | .speed speed => (d.onStream fun h i => (h.setSpeed i speed).1, [])
  | .playbackTimeRange .. => (d, [d.hub.rangeMessage])
  | .listStreams _ => (d, [d.hub.stamp (.listStreams d.hub.listStreams)])
  | .subscribeStream uid =>
    let (d, reply) := d.subscribe uid
    (d, [reply])
  | .streamDescription text =>
    let d := d.onStream fun h i => h.describe i text
    (d, [ack d.hub])
  | _ => (d, [])

def handle (d : Desk) (m : Message) : Desk × List Message :=
  if m.isData then d.handleData [m] else d.handleControl m

end Desk

/-- A maximal run of events, or a single control message. -/
inductive Run where
  | data (events : List Message)
  | control (m : Message)
  deriving DecidableEq, Inhabited

/-- Cuts a batch into runs. -/
def Run.ofBatch : List Message → List Run
  | [] => []
  | m :: ms =>
    if m.isData then
      match ofBatch ms with
      | .data events :: runs => .data (m :: events) :: runs
      | runs => .data [m] :: runs
    else .control m :: ofBatch ms

namespace Desk

def handleRun (d : Desk) : Run → Desk × List Message
  | .data events => d.handleData events
  | .control m => d.handleControl m

def handleRuns (d : Desk) : List Run → Desk × List Message
  | [] => (d, [])
  | run :: runs =>
    let (d, replies) := d.handleRun run
    let (d, more) := handleRuns d runs
    (d, replies ++ more)

/-- Handles the messages of one frame; the replies are in their order. -/
def handleBatch (d : Desk) (batch : List Message) : Desk × List Message :=
  d.handleRuns (Run.ofBatch batch)

end Desk

end EventRelay
