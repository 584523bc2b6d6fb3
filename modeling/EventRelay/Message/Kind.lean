/-!
# Kinds of message

The catalog of kinds is closed. A tag that the catalog does not hold names an unknown kind, so every
tag names a kind, and a kind keeps its tag.
-/

namespace EventRelay

/-- The kinds of message. -/
inductive Kind where
  | status | test | gps | label | edge | color | connectivity | dataPoint | nodeStatus
  | seek | start | stop | speed | playbackTimeRange | listStreams | subscribeStream
  | streamDescription | hello
  | unknown (tag : UInt16)
  deriving DecidableEq, Inhabited

namespace Kind

/-- The number that names the kind on the wire. -/
def tag : Kind → UInt16
  | status => 1
  | test => 2
  | gps => 3
  | label => 4
  | edge => 5
  | color => 6
  | connectivity => 7
  | dataPoint => 8
  | nodeStatus => 9
  | seek => 20
  | start => 21
  | stop => 22
  | speed => 23
  | playbackTimeRange => 24
  | listStreams => 25
  | subscribeStream => 26
  | streamDescription => 27
  | hello => 28
  | unknown tag => tag

/-- The kind that a number names; every number names one. -/
def ofTag (tag : UInt16) : Kind :=
  match tag.toNat with
  | 1 => status
  | 2 => test
  | 3 => gps
  | 4 => label
  | 5 => edge
  | 6 => color
  | 7 => connectivity
  | 8 => dataPoint
  | 9 => nodeStatus
  | 20 => seek
  | 21 => start
  | 22 => stop
  | 23 => speed
  | 24 => playbackTimeRange
  | 25 => listStreams
  | 26 => subscribeStream
  | 27 => streamDescription
  | 28 => hello
  | _ => unknown tag

/-- Events are stored and fanned out to viewers; all else is control. -/
def isData : Kind → Bool
  | test | gps | label | edge | color | connectivity | dataPoint | nodeStatus => true
  | _ => false

/-- The name in words. -/
def name : Kind → String
  | status => "status"
  | test => "test"
  | gps => "gps"
  | label => "label"
  | edge => "edge"
  | color => "color"
  | connectivity => "connectivity"
  | dataPoint => "data point"
  | nodeStatus => "node status"
  | seek => "seek"
  | start => "start"
  | stop => "stop"
  | speed => "speed"
  | playbackTimeRange => "playback time range"
  | listStreams => "list streams"
  | subscribeStream => "subscribe stream"
  | streamDescription => "stream description"
  | hello => "hello"
  | unknown _ => "unknown"

/-- The tag and the name, as shown to people. -/
def describe (k : Kind) : String := toString k.tag.toNat ++ " (" ++ k.name ++ ")"

/-- The name as one capitalised word; an unknown kind shows its tag. -/
def word : Kind → String
  | status => "Status"
  | test => "Test"
  | gps => "Gps"
  | label => "Label"
  | edge => "Edge"
  | color => "Color"
  | connectivity => "Connectivity"
  | dataPoint => "DataPoint"
  | nodeStatus => "NodeStatus"
  | seek => "Seek"
  | start => "Start"
  | stop => "Stop"
  | speed => "Speed"
  | playbackTimeRange => "PlaybackTimeRange"
  | listStreams => "ListStreams"
  | subscribeStream => "SubscribeStream"
  | streamDescription => "StreamDescription"
  | hello => "Hello"
  | unknown tag => "Unknown(" ++ toString tag.toNat ++ ")"

end Kind

end EventRelay
