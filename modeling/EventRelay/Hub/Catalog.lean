import EventRelay.Hub

/-!
# The catalog

The catalog names streams by their uid. Each new stream gets a uid that counts on from the last
one. A stream stays in the catalog until it is removed, or until nobody can be using it.
-/

namespace EventRelay.Hub

/-- The uid after this one; zero is never one. -/
def uidAfter (uid : UInt32) : UInt32 := if uid + 1 = 0 then 1 else uid + 1

/-- Creates a stream and puts it into the catalog. -/
def createStream (h : Hub) : Hub × StreamId :=
  let uid := h.nextUid
  let i := h.streams.length
  ({ h with
      streams := h.streams ++ [.new uid]
      catalog := h.catalog.insert uid i
      nextUid := uidAfter uid }, i)

/-- Puts a stream into the catalog under its uid. -/
def addStream (h : Hub) (i : StreamId) : Hub :=
  { h with catalog := h.catalog.insert (h.stream i).uid i }

/-- Takes a stream out of the catalog and out of the live set. -/
def removeStream (h : Hub) (uid : UInt32) : Hub × Option StreamId :=
  ({ h.unsubscribe uid with catalog := h.catalog.erase uid }, h.catalog.get? uid)

/-- Nobody watches, there is no description to find the stream by, and at most the connection that
it was created for has ever joined. -/
def isAbandoned (h : Hub) (i : StreamId) : Bool :=
  (h.stream i).joins ≤ 1 && h.subscriberCount i = 0 && (h.stream i).description.isEmpty

/-- Removes a stream that nobody can be using. -/
def removeIfAbandoned (h : Hub) (i : StreamId) : Hub × Bool :=
  let uid := (h.stream i).uid
  if h.isAbandoned i && (h.catalog.get? uid).isSome then
    ({ h.unsubscribe uid with catalog := h.catalog.erase uid }, true)
  else (h, false)

/-- A stream outside of the catalog that no relay feeds. -/
def orphan (h : Hub) (uid : UInt32) : Hub × StreamId :=
  ({ h with streams := h.streams ++ [{ Stream.new uid with attached := false }] },
    h.streams.length)

/-- A live stream is fed whether or not anybody watches it. -/
def subscribe (h : Hub) (i : StreamId) : Hub :=
  { h with live := h.live.insert (h.stream i).uid i }

def getStream? (h : Hub) (uid : UInt32) : Option StreamId := h.catalog.get? uid

/-- The streams of the catalog in the order of their uids. -/
def listStreams (h : Hub) : List StreamInfo :=
  (h.catalog.mergeSort fun a b => a.1 ≤ b.1).map fun entry =>
    ⟨(h.stream entry.2).uid, (h.stream entry.2).description⟩

end EventRelay.Hub
