import EventRelay.Wire.Field

/-!
# Bodies

The layout of each kind of body, and the two tables that pick it: one by the payload to write, one
by the kind to read. A body of the current layout has to be read to its end. One of a newer layout
may go on after the fields known here, and what follows them is left unread. An unknown body is
its bytes.
-/

namespace EventRelay.Wire

namespace Layout

def note : Layout Note :=
  ((text "text").seq (counted "ints" int32)).as (fun (t, is) => ⟨t, is⟩) (fun n => (n.text, n.ints))

def gps : Layout Gps :=
  (address.seq (binary64.seq (binary64.seq binary64))).as
    (fun (node, lat, lng, alt) => ⟨node, lat, lng, alt⟩)
    (fun g => (g.node, g.lat, g.lng, g.alt))

def label : Layout Label :=
  (address.seq ((text "text").seq (binary32.seq (color.seq (color.seq
    (word32.seq (flag.seq (text "layer")))))))).as
    (fun (node, text, size, fore, back, expires, add, layer) =>
      ⟨node, text, size, fore, back, expires, add, layer⟩)
    (fun l => (l.node, l.text, l.fontSize, l.foreground, l.background, l.expirationMs, l.add,
      l.layer))

def edge : Layout Edge :=
  (address.seq (address.seq (color.seq (binary32.seq (flag.seq (word32.seq
    (flag.seq (text "layer")))))))).as
    (fun (node1, node2, color, width, both, expires, add, layer) =>
      ⟨node1, node2, color, width, both, expires, add, layer⟩)
    (fun e => (e.node1, e.node2, e.color, e.width, e.bidirectional, e.expirationMs, e.add,
      e.layer))

def nodeColor : Layout NodeColor :=
  (address.seq (color.seq (word32.seq (word32.seq (text "layer"))))).as
    (fun (node, color, flash, expires, layer) => ⟨node, color, flash, expires, layer⟩)
    (fun c => (c.node, c.color, c.flashPeriodMs, c.expirationMs, c.layer))

def connectivity : Layout Connectivity :=
  (address.seq ((text "layer").seq (counted "neighbors" address))).as
    (fun (node, layer, neighbors) => ⟨node, layer, neighbors⟩)
    (fun c => (c.node, c.layer, c.neighbors))

def dataPoint : Layout DataPoint :=
  (address.seq ((text "name").seq (counted "points" binary64))).as
    (fun (node, name, points) => ⟨node, name, points⟩)
    (fun d => (d.node, d.name, d.points))

def nodeStatus : Layout NodeStatus :=
  (address.seq nodeEvent).as (fun (node, event) => ⟨node, event⟩) (fun n => (n.node, n.event))

def timeRange : Layout (Int64 × Int64) := int64.seq int64

def streamInfo : Layout StreamInfo :=
  (word32.seq (text "description")).as (fun (uid, d) => ⟨uid, d⟩) (fun i => (i.uid, i.description))

def streamList : Layout (List StreamInfo) := counted "streams" streamInfo

def description : Layout String := text "description"

end Layout

open Layout

/-- The body of a payload. -/
def writeBody : Payload → Except Overlong Bytes
  | .status s => status.write s
  | .test n => note.write n
  | .gps g => gps.write g
  | .label l => label.write l
  | .edge e => edge.write e
  | .color c => nodeColor.write c
  | .connectivity c => connectivity.write c
  | .dataPoint d => dataPoint.write d
  | .nodeStatus n => nodeStatus.write n
  | .seek p => position.write p
  | .start | .stop => .ok []
  | .speed s => binary32.write s
  | .playbackTimeRange min max => timeRange.write (min, max)
  | .listStreams streams => streamList.write streams
  | .subscribeStream uid => word32.write uid
  | .streamDescription d => description.write d
  | .hello version => word16.write version
  | .unknown _ body => .ok body

/-- The fields of a known kind at the front of a body, and what follows them. -/
def readFields (kind : Kind) (body : Bytes) : Except Flaw (Payload × Bytes) :=
  match kind with
  | .status => status.readAs Payload.status body
  | .test => note.readAs Payload.test body
  | .gps => gps.readAs Payload.gps body
  | .label => label.readAs Payload.label body
  | .edge => edge.readAs Payload.edge body
  | .color => nodeColor.readAs Payload.color body
  | .connectivity => connectivity.readAs Payload.connectivity body
  | .dataPoint => dataPoint.readAs Payload.dataPoint body
  | .nodeStatus => nodeStatus.readAs Payload.nodeStatus body
  | .seek => position.readAs Payload.seek body
  | .start => .ok (.start, body)
  | .stop => .ok (.stop, body)
  | .speed => binary32.readAs Payload.speed body
  | .playbackTimeRange =>
    timeRange.readAs (fun (min, max) => Payload.playbackTimeRange min max) body
  | .listStreams => streamList.readAs Payload.listStreams body
  | .subscribeStream => word32.readAs Payload.subscribeStream body
  | .streamDescription => description.readAs Payload.streamDescription body
  | .hello => word16.readAs Payload.hello body
  | .unknown tag => .ok (.unknown tag body, [])

/-- The payload of a body. -/
def readBody (kind : Kind) (version : UInt16) (body : Bytes) : Except Flaw Payload :=
  match readFields kind body with
  | .error e => .error e
  | .ok (payload, rest) =>
    if version ≤ schemaVersion ∧ rest ≠ [] then .error (.unread rest.length) else .ok payload

end EventRelay.Wire
