import EventRelay.Hub.Playback

/-!
# Those who watch

Connections join a stream and leave it. A stream resumes when somebody joins, and falls idle when
the last one leaves. Who cannot take a batch is not sent another one. What the relay receives is
sent to every stream of the live set, and a stream that nobody is left to watch leaves the live set.
-/

namespace EventRelay.Hub

/-- A connection joins. A playing stream resumes for it. -/
def addSubscriber (h : Hub) (i : StreamId) (c : ConnId) : Hub :=
  let h :=
    if (h.audience i).contains c then h
    else h.modifyStream i fun s =>
      { s with subscribers := s.subscribers ++ [c], joins := s.joins + 1 }
  if (h.stream i).playing then h.play i else h

/-- A connection leaves, and with it those that are gone. -/
def removeSubscriber (h : Hub) (i : StreamId) (c : ConnId) : Hub :=
  let h := h.modifyStream i fun s =>
    { s with subscribers := s.subscribers.filter fun d => h.isAlive d && d != c }
  if (h.stream i).subscribers = [] then h.idle i else h

/-! ## Sending -/

/-- Queues a batch to one connection. -/
def queue (h : Hub) (c : ConnId) (batch : List Message) : Hub × Option Wire.ConnectionError :=
  let (connection, e) := (h.connection c).send batch
  (h.modifyConnection c fun _ => connection, e)

/-- Takes all that is queued to one connection. -/
def drain (h : Hub) (c : ConnId) : Hub × List (List Message) :=
  let (connection, batches) := (h.connection c).drain
  (h.modifyConnection c fun _ => connection, batches)

/-- Queues a batch to one subscriber, who may be gone; whether it was taken. -/
def sendTo (h : Hub) (c : ConnId) (batch : List Message) : Hub × Bool :=
  if !h.isAlive c then (h, false)
  else
    let (h, e) := h.queue c batch
    (h, e.isNone)

/-- Queues a batch to connections in turn; those that took it. -/
def sendAll (h : Hub) (batch : List Message) : List ConnId → Hub × List ConnId
  | [] => (h, [])
  | c :: cs =>
    let (h, taken) := h.sendTo c batch
    let (h, kept) := sendAll h batch cs
    (h, if taken then c :: kept else kept)

/-- Queues a batch to everybody who watches a stream, and drops those who cannot take it. Returns
whether anybody is left. -/
def send (h : Hub) (i : StreamId) (batch : List Message) : Hub × Bool :=
  let (h, kept) := h.sendAll batch (h.stream i).subscribers
  (h.modifyStream i fun s => { s with subscribers := kept }, !kept.isEmpty)

/-! ## The live feed -/

/-- Sends a batch to streams in turn; those that nobody is left to watch. -/
def sendStreams (h : Hub) (batch : List Message) : List StreamId → Hub × List StreamId
  | [] => (h, [])
  | i :: is =>
    let (h, reached) := h.send i batch
    let (h, idle) := sendStreams h batch is
    (h, if reached then idle else i :: idle)

/-- Sends a batch to all live streams. Those that nobody is left to watch leave the live set. -/
def broadcast (h : Hub) (batch : List Message) : Hub :=
  if batch = [] then h
  else
    let (h, idle) := h.sendStreams batch (h.live.map (·.2))
    idle.foldl unsubscribeIfIdle h

end EventRelay.Hub
