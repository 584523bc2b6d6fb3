import EventRelay.Stream

/-!
# The hub

The hub holds all that the relay knows: the recorded history, the connections, the streams, the
catalog that names streams by their uid, and the live set, the streams of the catalog that are fed
what the relay receives. Every operation is one step of the whole state.
-/

namespace EventRelay

/-- Streams by uid, each uid once. -/
abbrev Index := List (UInt32 × StreamId)

namespace Index

def get? (index : Index) (uid : UInt32) : Option StreamId := index.lookup uid

def erase (index : Index) (uid : UInt32) : Index := index.filter fun entry => entry.1 != uid

def insert (index : Index) (uid : UInt32) (id : StreamId) : Index := (uid, id) :: index.erase uid

end Index

structure Hub where
  archive : Archive
  config : ReplayConfig
  connections : List Connection
  streams : List Stream
  catalog : Index
  live : Index
  nextUid : UInt32
  now : Instant
  /-- The wall clock at instant zero, in milliseconds since 1970. -/
  epoch : Int64
  deriving Inhabited

namespace Hub

def start (archive : Archive) (config : ReplayConfig) (epoch : Int64) : Hub :=
  { archive, config, connections := [], streams := [], catalog := [], live := [], nextUid := 1
    now := ⟨0, 0⟩, epoch }

def wallClock (h : Hub) : Int64 := h.epoch + Int64.ofNat h.now.ms

/-- A message of the relay itself, stamped with the time. -/
def stamp (h : Hub) (payload : Payload) : Message := .current h.wallClock payload

/-- The time range of the recorded history; zeros if there is none, or none can be read. -/
def range (h : Hub) : Int64 × Int64 :=
  match h.archive.range with
  | .ok (some range) => range
  | _ => (0, 0)

def rangeMessage (h : Hub) : Message := h.stamp (.playbackTimeRange h.range.1 h.range.2)

/-! ## Parts -/

def stream (h : Hub) (i : StreamId) : Stream := h.streams.getD i default

def connection (h : Hub) (c : ConnId) : Connection := h.connections.getD c default

def modifyStream (h : Hub) (i : StreamId) (f : Stream → Stream) : Hub :=
  { h with streams := h.streams.modify i f }

def modifyConnection (h : Hub) (c : ConnId) (f : Connection → Connection) : Hub :=
  { h with connections := h.connections.modify c f }

/-- A new connection; its place is the number of those before it. -/
def connect (h : Hub) (capacity : Nat) : Hub × ConnId :=
  ({ h with connections := h.connections ++ [.ofCapacity capacity] }, h.connections.length)

def isAlive (h : Hub) (c : ConnId) : Bool := (h.connection c).alive

/-- Subscribers whose connection is still there. -/
def audience (h : Hub) (i : StreamId) : List ConnId := (h.stream i).subscribers.filter h.isAlive

def subscriberCount (h : Hub) (i : StreamId) : Nat := (h.audience i).length

/-- A stream as shown for diagnosis. -/
def inspect (h : Hub) (i : StreamId) : String :=
  "SharedStream \x7b uid: " ++ toString (h.stream i).uid.toNat ++ ", subscribers: " ++
    toString (h.subscriberCount i) ++ " \x7d"

/-! ## The live set -/

/-- Puts a stream into the live set, unless nobody watches it. -/
def registerLive (h : Hub) (i : StreamId) : Hub :=
  if h.subscriberCount i = 0 || !(h.stream i).attached then h
  else { h with live := h.live.insert (h.stream i).uid i }

def unsubscribe (h : Hub) (uid : UInt32) : Hub := { h with live := h.live.erase uid }

/-- Takes a stream out of the live set if nobody watches it. -/
def unsubscribeIfIdle (h : Hub) (i : StreamId) : Hub :=
  if h.subscriberCount i = 0 then h.unsubscribe (h.stream i).uid else h

def deregisterLive (h : Hub) (i : StreamId) : Hub :=
  if (h.stream i).attached then h.unsubscribe (h.stream i).uid else h

end Hub

end EventRelay
