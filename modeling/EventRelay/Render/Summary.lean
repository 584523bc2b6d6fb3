import EventRelay.Message
import EventRelay.Address
import EventRelay.Decimal.Notation
import EventRelay.Text.Calendar
import EventRelay.Text.Hex

/-!
# Summaries

One line of text that says what a payload is about.
-/

namespace EventRelay.Render

def quoted (s : String) : String := "\"" ++ s ++ "\""

def bracketed (items : List String) : String := "[" ++ ", ".intercalate items ++ "]"

def places2 (x : Binary64) : String := Decimal.writeFixed 2 x.value

def positionText : Position → String
  | .time ms => "Time(" ++ toString ms.toInt ++ ")"
  | .eof => "Eof"

def eventText : NodeEvent → String
  | .connect => "Connect"
  | .disconnect => "Disconnect"

def addOrRemove (add : Bool) : String := if add then "add" else "remove"

def summary : Payload → String
  | .status s => s.name
  | .test n => quoted n.text ++ " " ++ bracketed (n.ints.map fun i => toString i.toInt)
  | .gps g =>
    g.node.text ++ " at (" ++ places2 g.lat ++ ", " ++ places2 g.lng ++ ", " ++ places2 g.alt ++ ")"
  | .label l => addOrRemove l.add ++ " " ++ l.node.text ++ " " ++ quoted l.text ++ " on " ++ l.layer
  | .edge e =>
    addOrRemove e.add ++ " " ++ e.node1.text ++ (if e.bidirectional then " <-> " else " -> ") ++
      e.node2.text ++ " on " ++ e.layer
  | .color c =>
    c.node.text ++ " #" ++
      Hex.encode [c.color.red, c.color.green, c.color.blue, c.color.alpha] ++ " on " ++ c.layer
  | .connectivity c =>
    c.node.text ++ " has " ++ toString c.neighbors.length ++ " neighbors on " ++ c.layer
  | .dataPoint d =>
    d.node.text ++ " " ++ d.name ++ " = " ++
      bracketed (d.points.map fun p => Decimal.write .listed p.value)
  | .nodeStatus n => n.node.text ++ " " ++ eventText n.event
  | .seek p => positionText p
  | .start => "start"
  | .stop => "stop"
  | .speed s => Decimal.write .plain s.value ++ "x"
  | .playbackTimeRange min max => Calendar.timestamp min ++ " .. " ++ Calendar.timestamp max
  | .listStreams streams => toString streams.length ++ " streams"
  | .subscribeStream uid => "stream " ++ toString uid.toNat
  | .streamDescription d => quoted d
  | .hello version => "protocol " ++ toString version.toNat
  | .unknown tag body => "tag " ++ toString tag.toNat ++ " (" ++ toString body.length ++ " bytes)"

end EventRelay.Render
