import EventRelay.Render.Summary
import EventRelay.Text.Json

/-!
# Messages as lines

A message is shown on one line in one of three formats: for people, for scripts, or as JSON with
every field.
-/

namespace EventRelay.Render

inductive Format where
  | pretty | json | compact
  deriving DecidableEq, Inhabited

namespace Format

def name : Format → String
  | pretty => "Pretty"
  | json => "Json"
  | compact => "Compact"

/-- Formats are known by their names and by their initials, in either case. -/
def parse? (s : String) : Option Format :=
  match s.toLower with
  | "pretty" | "p" => some pretty
  | "json" | "j" => some json
  | "compact" | "c" => some compact
  | _ => none

def unknownText (s : String) : String := "Unknown format: " ++ s

end Format

/-! ## JSON -/

open Json in
section

def natJson (n : Nat) : Value := .number (toString n)
def intJson (n : Int) : Value := .number (toString n)
def json32 (x : Binary32) : Value := .number (Decimal.write .json32 x.value)
def json64 (x : Binary64) : Value := .number (Decimal.write .json64 x.value)
def addressJson (a : Address) : Value := .string a.text

def colorJson (c : Color) : Value :=
  .object [("r", natJson c.red.toNat), ("g", natJson c.green.toNat), ("b", natJson c.blue.toNat),
    ("a", natJson c.alpha.toNat)]

def positionJson : Position → Value
  | .time ms => .object [("Time", intJson ms.toInt)]
  | .eof => .string "Eof"

def payloadJson (p : Payload) : Value :=
  let tagged (v : Value) : Value := .object [(p.kind.word, v)]
  match p with
  | .status s => tagged (.string s.name)
  | .test n =>
    tagged (.object [("text", .string n.text), ("ints", .array (n.ints.map (intJson ·.toInt)))])
  | .gps g =>
    tagged (.object [("node", addressJson g.node), ("lat", json64 g.lat), ("lng", json64 g.lng),
      ("alt", json64 g.alt)])
  | .label l =>
    tagged (.object [("node", addressJson l.node), ("text", .string l.text),
      ("font_size", json32 l.fontSize), ("foreground", colorJson l.foreground),
      ("background", colorJson l.background), ("expiration_ms", natJson l.expirationMs.toNat),
      ("add", .bool l.add), ("layer", .string l.layer)])
  | .edge e =>
    tagged (.object [("node1", addressJson e.node1), ("node2", addressJson e.node2),
      ("color", colorJson e.color), ("width", json32 e.width),
      ("bidirectional", .bool e.bidirectional), ("expiration_ms", natJson e.expirationMs.toNat),
      ("add", .bool e.add), ("layer", .string e.layer)])
  | .color c =>
    tagged (.object [("node", addressJson c.node), ("color", colorJson c.color),
      ("flash_period_ms", natJson c.flashPeriodMs.toNat),
      ("expiration_ms", natJson c.expirationMs.toNat), ("layer", .string c.layer)])
  | .connectivity c =>
    tagged (.object [("node", addressJson c.node), ("layer", .string c.layer),
      ("neighbors", .array (c.neighbors.map addressJson))])
  | .dataPoint d =>
    tagged (.object [("node", addressJson d.node), ("name", .string d.name),
      ("points", .array (d.points.map json64))])
  | .nodeStatus n =>
    tagged (.object [("node", addressJson n.node), ("event", .string (eventText n.event))])
  | .seek pos => tagged (positionJson pos)
  | .start | .stop => .string p.kind.word
  | .speed s => tagged (json32 s)
  | .playbackTimeRange min max =>
    tagged (.object [("min", intJson min.toInt), ("max", intJson max.toInt)])
  | .listStreams streams =>
    tagged (.array (streams.map fun i =>
      .object [("uid", natJson i.uid.toNat), ("description", .string i.description)]))
  | .subscribeStream uid => tagged (natJson uid.toNat)
  | .streamDescription d => tagged (.string d)
  | .hello version => tagged (.object [("version", natJson version.toNat)])
  | .unknown tag body =>
    .object [("Unknown", .object [("tag", natJson tag.toNat),
      ("body", .array (body.map (natJson ·.toNat)))])]

def messageJson (m : Message) : Value :=
  .object [("timestamp", intJson m.timestamp.toInt), ("schema_version", natJson m.version.toNat),
    ("payload", payloadJson m.payload)]

end

/-! ## Lines -/

/-- Text in a terminal style, by its number; the style ends with the text. -/
def styled (color : Bool) (style : Nat) (s : String) : String :=
  if color then "\x1b[" ++ toString style ++ "m" ++ s ++ "\x1b[0m" else s

/-- The column of the kind is this wide. -/
def kindWidth : Nat := 18

def kindColumn (k : Kind) : String :=
  k.describe ++ String.ofList (List.replicate (kindWidth - k.describe.length) ' ')

/-- A message in a format. Only the one for people has colors: the time is dim, the kind cyan. -/
def line (format : Format) (color : Bool) (m : Message) : String :=
  match format with
  | .json => Json.write (messageJson m)
  | .compact =>
    toString m.timestamp.toInt ++ " " ++ toString m.kind.tag.toNat ++ " " ++ summary m.payload
  | .pretty =>
    styled color 2 (Calendar.timestamp m.timestamp) ++ " " ++ styled color 36 (kindColumn m.kind) ++
      " " ++ summary m.payload

end EventRelay.Render
