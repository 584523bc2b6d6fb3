import EventRelay.Message.Payload

/-!
# Messages

A message is a timestamped event of the topology or a control request. A record of a kind that the
catalog does not hold is carried as an unknown payload, bytes and all, so that a relay between newer
peers loses nothing.
-/

namespace EventRelay

/-- A payload with its time, in milliseconds since 1970, and the version of its layout. -/
structure Message where
  timestamp : Int64
  version : UInt16
  payload : Payload
  deriving DecidableEq, Inhabited

/-- The layout version that this program writes. -/
def schemaVersion : UInt16 := 1

/-- The version of the protocol that peers agree on when they greet. -/
def protocolVersion : UInt16 := 1

namespace Message

/-- A message in the current layout. -/
def current (timestamp : Int64) (payload : Payload) : Message := ⟨timestamp, schemaVersion, payload⟩

def kind (m : Message) : Kind := m.payload.kind

def isData (m : Message) : Bool := m.kind.isData

def agrees (m n : Message) : Bool :=
  m.timestamp == n.timestamp && m.version == n.version && m.payload.agrees n.payload

end Message

end EventRelay
