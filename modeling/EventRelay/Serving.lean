import EventRelay.Server
import EventRelay.Wire.Reader

/-!
# Serving a peer as it sends

What a peer sends arrives piece by piece, and much else happens to the relay meanwhile. A session is
served in passes. Each pass reads one frame and handles it, before anything else is read. When the
peer ends or breaks its stream, or its connection has been closed, it is hung up on, and its bytes
are read no longer.
-/

namespace EventRelay

/-- A relay and the session that it serves. There is a reader until the peer is hung up on. -/
structure Serving where
  relay : Relay
  session : SessionId
  reader : Option Wire.FrameReader
  deriving Inhabited

namespace Serving

/-- Hangs up. -/
def stop (v : Serving) : Serving := { v with relay := v.relay.hangUp v.session, reader := none }

/-- Reads a frame and handles it. -/
def pass (v : Serving) : Serving :=
  match v.reader with
  | none => v
  | some reader =>
    if v.relay.isOpen v.session then
      match reader.readFrame with
      | (reader, .ok (some content)) =>
        { v with relay := v.relay.serveFrame v.session content, reader := some reader }
      | _ => v.stop
    else v.stop

end Serving

end EventRelay
