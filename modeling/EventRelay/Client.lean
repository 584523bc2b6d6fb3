import EventRelay.Server

/-!
# Clients

A client keeps trying to connect until it does or is closed. What it is given to send before that
waits in a queue. What it receives is handed over through a queue with a bound; what finds that
queue full is dropped and counted, so that a slow reader never holds the connection up. Frames that
do not decode are stepped over.
-/

namespace EventRelay

inductive ClientState where
  | disconnected | connecting | connected | closed
  deriving DecidableEq, Inhabited

def ClientState.name : ClientState → String
  | disconnected => "Disconnected"
  | connecting => "Connecting"
  | connected => "Connected"
  | closed => "Closed"

structure Client where
  framing : Wire.Framing
  /-- How many received messages wait at most. -/
  capacity : Nat
  state : ClientState
  /-- Batches still to be written, the oldest first. -/
  outbound : List (List Message)
  /-- Messages received and not taken yet, the oldest first. -/
  incoming : List Message
  dropped : Nat

namespace Client

/-- A client that has begun to connect. -/
def start (framing : Wire.Framing) (capacity : Nat) : Client :=
  { framing, capacity := max capacity 1, state := .connecting, outbound := [], incoming := []
    dropped := 0 }

/-- Queues a batch. -/
def send (c : Client) (batch : List Message) : Client × Option Wire.ConnectionError :=
  if c.state = .closed then (c, some .closed)
  else ({ c with outbound := c.outbound ++ [batch] }, none)

/-- Tries to connect. -/
def attempt (c : Client) : Network → Client
  | .up => if c.state = .connecting then { c with state := .connected } else c
  | .unreachable => c

/-- Writes what is queued, if it is connected. -/
def flush (c : Client) : Client × Wire.Bytes :=
  if c.state = .connected then ({ c with outbound := [] }, Wire.writeFrames c.framing c.outbound)
  else (c, [])

/-- Hands one message over. -/
def push (c : Client) (m : Message) : Client :=
  if c.incoming.length < c.capacity then { c with incoming := c.incoming ++ [m] }
  else { c with dropped := c.dropped + 1 }

/-- Receives all that a stream holds; its end closes the client. -/
def receive (c : Client) : Wire.Reading → Client
  | .ended => { c with state := .closed }
  | .failed _ => { c with state := .closed }
  | .frame (.ok batch) _ more => receive (batch.foldl push c) more
  | .frame (.error _) _ more => receive c more

/-- Takes up to `n` of the messages received. -/
def take (c : Client) (n : Nat) : Client × List Message :=
  ({ c with incoming := c.incoming.drop n }, c.incoming.take n)

/-- Writes what is queued and closes. A client that never connected discards its queue. -/
def close (c : Client) : Client × Wire.Bytes :=
  let (c, bytes) := c.flush
  ({ c with state := .closed, outbound := [] }, bytes)

end Client

end EventRelay
