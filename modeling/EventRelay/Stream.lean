import EventRelay.Replay
import EventRelay.Connection

/-!
# Streams

A stream is a session of play that any number of connections watch together. It is either live, fed
by what the relay receives, or replaying history, and independently of that it is playing or
stopped.
-/

namespace EventRelay

/-- A connection is known by its place in the relay. -/
abbrev ConnId := Nat

/-- So is a stream: two streams with one uid are still two streams. -/
abbrev StreamId := Nat

structure Stream where
  uid : UInt32
  description : String
  live : Bool
  playing : Bool
  replay : Replay
  subscribers : List ConnId
  /-- How often a connection has joined that was not a subscriber already. -/
  joins : Nat
  /-- The relay that feeds it is still there. -/
  attached : Bool
  deriving DecidableEq, Inhabited

/-- A new stream is live and stopped. -/
def Stream.new (uid : UInt32) : Stream :=
  { uid
    description := ""
    live := true
    playing := false
    replay := .start
    subscribers := []
    joins := 0
    attached := true }

end EventRelay
