import EventRelay.Ieee
import EventRelay.Address
import EventRelay.Message.Kind

/-!
# Payloads

What messages say: events of the topology (where nodes are, labels, edges, colors, links, samples),
control requests and the replies to them, and what newer peers send that this catalog does not hold.
-/

namespace EventRelay

/-- The outcome that a status message reports. -/
inductive Status where
  | ok | error | ack | nack | disconnected
  deriving DecidableEq, Inhabited

namespace Status

def number : Status → UInt8
  | ok => 0
  | error => 1
  | ack => 2
  | nack => 3
  | disconnected => 4

def ofNumber? (n : UInt8) : Option Status :=
  match n.toNat with
  | 0 => some ok
  | 1 => some error
  | 2 => some ack
  | 3 => some nack
  | 4 => some disconnected
  | _ => none

def name : Status → String
  | ok => "Ok"
  | error => "Error"
  | ack => "Ack"
  | nack => "Nack"
  | disconnected => "Disconnected"

end Status

/-- Where a replay is asked to go: to a time in milliseconds, or to the end of history. -/
inductive Position where
  | time (ms : Int64)
  | eof
  deriving DecidableEq, Inhabited

namespace Position

/-- The offset on the wire; the end of history is `-1`. -/
def offset : Position → Int64
  | time ms => ms
  | eof => -1

/-- The position at an offset. Other negative offsets name none. -/
def ofOffset? (offset : Int64) : Option Position :=
  if offset = -1 then some eof
  else if 0 ≤ offset then some (time offset)
  else none

end Position

structure Color where
  red : UInt8
  green : UInt8
  blue : UInt8
  alpha : UInt8
  deriving DecidableEq, Inhabited

/-- A color that hides what is behind it. -/
def Color.solid (red green blue : UInt8) : Color := ⟨red, green, blue, 255⟩

/-- Free text with numbers, for tests of a feed. -/
structure Note where
  text : String
  ints : List Int32
  deriving DecidableEq, Inhabited

/-- Where a node is. -/
structure Gps where
  node : Address
  lat : Binary64
  lng : Binary64
  alt : Binary64
  deriving DecidableEq, Inhabited

/-- A label at a node, added or removed. An expiration of zero is never. -/
structure Label where
  node : Address
  text : String
  fontSize : Binary32
  foreground : Color
  background : Color
  expirationMs : UInt32
  add : Bool
  layer : String
  deriving DecidableEq, Inhabited

/-- A line between two nodes, added or removed. -/
structure Edge where
  node1 : Address
  node2 : Address
  color : Color
  width : Binary32
  bidirectional : Bool
  expirationMs : UInt32
  add : Bool
  layer : String
  deriving DecidableEq, Inhabited

/-- A colour put on a node; a flash period of zero is steady. -/
structure NodeColor where
  node : Address
  color : Color
  flashPeriodMs : UInt32
  expirationMs : UInt32
  layer : String
  deriving DecidableEq, Inhabited

/-- All neighbors of a node on one layer. -/
structure Connectivity where
  node : Address
  layer : String
  neighbors : List Address
  deriving DecidableEq, Inhabited

/-- Named samples at a node. -/
structure DataPoint where
  node : Address
  name : String
  points : List Binary64
  deriving DecidableEq, Inhabited

inductive NodeEvent where
  | connect | disconnect
  deriving DecidableEq, Inhabited

structure NodeStatus where
  node : Address
  event : NodeEvent
  deriving DecidableEq, Inhabited

/-- An entry of the catalog of streams. -/
structure StreamInfo where
  uid : UInt32
  description : String
  deriving DecidableEq, Inhabited

/-- What a message says. -/
inductive Payload where
  | status (kind : Status)
  | test (note : Note)
  | gps (report : Gps)
  | label (label : Label)
  | edge (edge : Edge)
  | color (color : NodeColor)
  | connectivity (links : Connectivity)
  | dataPoint (samples : DataPoint)
  | nodeStatus (change : NodeStatus)
  | seek (position : Position)
  | start
  | stop
  | speed (speed : Binary32)
  | playbackTimeRange (min max : Int64)
  | listStreams (streams : List StreamInfo)
  | subscribeStream (uid : UInt32)
  | streamDescription (description : String)
  | hello (version : UInt16)
  | unknown (tag : UInt16) (body : List UInt8)
  deriving DecidableEq, Inhabited

/-- The kind of a payload. An unknown payload stays unknown even if its tag is a known one. -/
def Payload.kind : Payload → Kind
  | status _ => .status
  | test _ => .test
  | gps _ => .gps
  | label _ => .label
  | edge _ => .edge
  | color _ => .color
  | connectivity _ => .connectivity
  | dataPoint _ => .dataPoint
  | nodeStatus _ => .nodeStatus
  | seek _ => .seek
  | start => .start
  | stop => .stop
  | speed _ => .speed
  | playbackTimeRange .. => .playbackTimeRange
  | listStreams _ => .listStreams
  | subscribeStream _ => .subscribeStream
  | streamDescription _ => .streamDescription
  | hello _ => .hello
  | unknown tag _ => .unknown tag

/-- Equality of payloads as numbers see it: the zeros agree and a NaN differs from everything. -/
def Payload.agrees (p q : Payload) : Bool :=
  match p, q with
  | gps a, gps b =>
    a.node == b.node && a.lat.agrees b.lat && a.lng.agrees b.lng && a.alt.agrees b.alt
  | label a, label b => a.fontSize.agrees b.fontSize && { a with fontSize := b.fontSize } == b
  | edge a, edge b => a.width.agrees b.width && { a with width := b.width } == b
  | dataPoint a, dataPoint b =>
    a.node == b.node && a.name == b.name && a.points.length == b.points.length &&
      (a.points.zip b.points).all fun (x, y) => x.agrees y
  | speed a, speed b => a.agrees b
  | p, q => p == q

end EventRelay
