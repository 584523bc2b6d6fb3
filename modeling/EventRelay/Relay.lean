import EventRelay.Session
import EventRelay.Hub.Timeline

/-!
# The relay

The hub with all its sessions. A session ends in one of two ways: it disconnects and leaves its
stream, or it is gone all of a sudden, and only its connection is missed.
-/

namespace EventRelay

/-- A session is known by its place in the relay. -/
abbrev SessionId := Nat

structure Relay where
  hub : Hub
  sessions : List Session
  readOnly : Bool
  deriving Inhabited

namespace Relay

def start (archive : Archive) (config : ReplayConfig) (epoch : Int64) (readOnly : Bool) : Relay :=
  { hub := .start archive config epoch, sessions := [], readOnly }

def session (r : Relay) (s : SessionId) : Session := r.sessions.getD s default

def desk (r : Relay) (s : SessionId) : Desk :=
  { hub := r.hub, session := r.session s, readOnly := r.readOnly }

/-- Puts back what a session has done. -/
def put (r : Relay) (s : SessionId) (d : Desk) : Relay :=
  { r with hub := d.hub, sessions := r.sessions.set s d.session }

/-- Lets a connection in and gives it a session. -/
def accept (r : Relay) (capacity : Nat) : Relay × SessionId :=
  let (hub, connection) := r.hub.connect capacity
  ({ r with hub, sessions := r.sessions ++ [⟨connection, none⟩] }, r.sessions.length)

def handle (r : Relay) (s : SessionId) (m : Message) : Relay × List Message :=
  let (d, replies) := (r.desk s).handle m
  (r.put s d, replies)

def handleBatch (r : Relay) (s : SessionId) (batch : List Message) : Relay × List Message :=
  let (d, replies) := (r.desk s).handleBatch batch
  (r.put s d, replies)

def disconnect (r : Relay) (s : SessionId) : Relay := r.put s (r.desk s).disconnect

/-- The session is gone without a word, and its connection with it. -/
def vanish (r : Relay) (s : SessionId) : Relay :=
  let session := r.session s
  { r with
    hub := r.hub.modifyConnection session.connection Connection.drop
    sessions := r.sessions.set s { session with stream := none } }

def modifyConnection (r : Relay) (s : SessionId) (f : Connection → Connection) : Relay :=
  { r with hub := r.hub.modifyConnection (r.session s).connection f }

def modifyHub (r : Relay) (f : Hub → Hub) : Relay := { r with hub := f r.hub }

end Relay

end EventRelay
