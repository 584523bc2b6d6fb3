import EventRelay.Wire.Transport

/-!
# Connections

A connection is heard through a queue of batches that its writer drains. The queue is bounded: a
batch that finds it full closes the connection, and a closed connection takes nothing more. Streams
hold connections weakly: once a connection is gone they drop it.
-/

namespace EventRelay

structure Connection where
  capacity : Nat
  /-- Batches not taken by the writer yet, the oldest first. -/
  queue : List (List Message)
  closed : Bool
  /-- The writer is still there. -/
  draining : Bool
  /-- The connection itself is still there. -/
  alive : Bool
  deriving DecidableEq, Inhabited

namespace Connection

/-- A queue holds at least one batch. -/
def ofCapacity (capacity : Nat) : Connection :=
  { capacity := max capacity 1, queue := [], closed := false, draining := true, alive := true }

def close (c : Connection) : Connection := { c with closed := true }

/-- Queues a batch. -/
def send (c : Connection) (batch : List Message) : Connection × Option Wire.ConnectionError :=
  if c.closed then (c, some .closed)
  else if !c.draining then (c.close, some .closed)
  else if c.queue.length < c.capacity then ({ c with queue := c.queue ++ [batch] }, none)
  else (c.close, some .queueFull)

/-- Takes all that is queued. -/
def drain (c : Connection) : Connection × List (List Message) := ({ c with queue := [] }, c.queue)

/-- The writer goes away, and what is queued with it. -/
def dropWriter (c : Connection) : Connection := { c with draining := false, queue := [] }

def drop (c : Connection) : Connection := { c with alive := false }

end Connection

end EventRelay
