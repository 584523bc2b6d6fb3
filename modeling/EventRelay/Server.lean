import EventRelay.Settings
import EventRelay.Relay

/-!
# Servers

A server puts a relay behind a listening address. Each peer that reaches it gets a session of its
own. What a peer sends is cut into frames, every frame is handled before the next one, and the
replies to it are queued as one batch. A frame that does not decode is answered with a refusal and
has no other effect. A peer whose queue cannot take the replies is hung up on.
-/

namespace EventRelay

/-- Why a server does not serve. -/
inductive ServerError where
  | settings (flaw : SettingsFlaw)
  | store (source : StoreError)
  | cannotBind (address : String)
  | alreadyRunning
  /-- There are no workers to hand connections to. -/
  | noRuntime
  deriving DecidableEq, Inhabited

namespace ServerError

def cannotBindText : String := "Cannot assign requested address (os error 99)"

def message : ServerError → String
  | settings flaw => "Configuration error: " ++ flaw.message
  | store source => "Store error: " ++ source.message
  | cannotBind address => "Bind error on " ++ address ++ ": " ++ cannotBindText
  | alreadyRunning => "Server already running"
  | noRuntime => "No runtime"

/-- The causes behind an error, each the cause of the one before it. -/
def causes : ServerError → List String
  | settings flaw => [flaw.message]
  | store source => source.message :: source.causes
  | cannotBind _ => [cannotBindText]
  | _ => []

end ServerError

namespace Relay

/-- What a frame is answered with. -/
def answer (r : Relay) (s : SessionId) : Except Wire.PartialDecode (List Message) →
    Relay × List Message
  | .ok batch => r.handleBatch s batch
  | .error _ => (r, [Desk.nack r.hub])

/-- The connection of a session has not been closed. -/
def isOpen (r : Relay) (s : SessionId) : Bool :=
  !(r.hub.connection (r.session s).connection).closed

/-- Ends a session and its connection. -/
def hangUp (r : Relay) (s : SessionId) : Relay :=
  (r.disconnect s).modifyConnection s fun c => c.close.drop

/-- Handles a frame and queues what it is answered with. -/
def serveFrame (r : Relay) (s : SessionId) (content : Except Wire.PartialDecode (List Message)) :
    Relay :=
  let (r, replies) := r.answer s content
  if replies = [] then r
  else
    let (hub, e) := r.hub.queue (r.session s).connection replies
    let r := { r with hub }
    if e.isSome then r.hangUp s else r

/-- Handles frames in their order for as long as the connection is open. -/
def serveFrames (r : Relay) (s : SessionId) :
    List (Except Wire.PartialDecode (List Message)) → Relay
  | [] => r
  | content :: more =>
    if r.isOpen s then serveFrames (r.serveFrame s content) s more else r.hangUp s

/-- Handles all that a peer sends until it ends or breaks its stream. -/
def serveStream (r : Relay) (s : SessionId) : Wire.Reading → Relay
  | .ended => r.hangUp s
  | .failed _ => r.hangUp s
  | .frame content _ more =>
    if r.isOpen s then serveStream (r.serveFrame s content) s more else r.hangUp s

/-- Handles the frames that are whole so far. What is left waits for more, unless the peer has been
hung up on. -/
def serveReady (f : Wire.Framing) (r : Relay) (s : SessionId) (pending : Wire.Bytes) :
    Relay × Option Wire.Bytes :=
  match _h : Wire.nextFrame f pending with
  | .frame content _ rest =>
    let r := r.serveFrame s content
    if r.isOpen s then serveReady f r s rest else (r.hangUp s, none)
  | .failed (.protocol _) => (r.hangUp s, none)
  | _ => (r, some pending)
termination_by pending.length
decreasing_by exact Wire.nextFrame_rest_lt _h

end Relay

/-- Whether the network of a server carries connections. -/
inductive Network where
  | up | unreachable
  deriving DecidableEq, Inhabited

/-- Why a peer that dials is not connected. -/
inductive DialFault where
  | unreachable
  deriving DecidableEq, Inhabited

def DialFault.text : DialFault → String
  | unreachable => "Network is unreachable (os error 101)"

structure Server where
  settings : Settings
  relay : Relay
  network : Network
  running : Bool
  deriving Inhabited

namespace Server

/-- A server that does not serve yet. Settings with a flaw are refused before all else. -/
def new (settings : Settings) (archive : Archive) (epoch : Int64) (network : Network)
    (runtime : Bool) : Except ServerError Server :=
  match settings.flaw? with
  | some flaw => .error (.settings flaw)
  | none =>
    if runtime then
      .ok { settings, network, running := false
            relay := .start archive settings.replay epoch settings.readOnly }
    else .error .noRuntime

/-- Begins to serve. -/
def serve (v : Server) : Except ServerError Server :=
  if v.running then .error .alreadyRunning else .ok { v with running := true }

/-- Takes the address of the settings, which has to be one of this host, and begins to serve. -/
def listen (v : Server) : Except ServerError Server :=
  if v.settings.bindAddress.isOwn then v.serve
  else .error (.cannotBind v.settings.listenAddress)

/-- Hangs up on all peers and serves no longer. -/
def shutDown (v : Server) : Server :=
  { v with
    running := false
    relay := (List.range v.relay.sessions.length).foldl Relay.hangUp v.relay }

/-- A peer dials. -/
def dial (v : Server) : Except DialFault (Server × SessionId) :=
  match v.network with
  | .unreachable => .error .unreachable
  | .up =>
    let (relay, s) := v.relay.accept v.settings.outboundQueueCapacity.toNat
    .ok ({ v with relay }, s)

/-- Handles what a peer sends until the end of its stream. -/
def receive (v : Server) (s : SessionId) (stream : Wire.Bytes) : Server :=
  { v with relay := v.relay.serveStream s (Wire.readStream v.settings.framing stream) }

/-- The bytes written to a peer for what is queued to it. -/
def written (v : Server) (s : SessionId) : Server × Wire.Bytes :=
  let (hub, batches) := v.relay.hub.drain (v.relay.session s).connection
  ({ v with relay := { v.relay with hub } }, Wire.writeFrames v.settings.framing batches)

end Server

end EventRelay
