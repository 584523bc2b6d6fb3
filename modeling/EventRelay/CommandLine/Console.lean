import EventRelay.CommandLine
import EventRelay.CommandLine.Failure
import EventRelay.CommandLine.Service
import EventRelay.Render.Line
import EventRelay.Scenario

/-!
# The command line of the console

The console is a client for people. It feeds a scenario or one position to a relay, asks for the
streams or for the recorded range, or watches a stream and prints its events. Each command is a line
to read, messages to send, and a text for what comes back.
-/

namespace EventRelay.Console

open CommandLine

/-! ## The line -/

/-- Options that may stand in front of a command or behind it. -/
def everywhere : List Rule := [
  { name := "server", letter := some 's', value := some anyText },
  { name := "timeout", value := some isWide },
  { name := "log-level", value := some anyText }]

def grammar : Grammar where
  rules := everywhere
  commands := ["feed", "send-gps", "list-streams", "range", "watch"]
  versioned := true

def feedGrammar : Grammar where
  rules := everywhere ++ [
    { name := "nodes", letter := some 'n', value := some (isSmall 32) },
    { name := "steps", value := some isWide },
    { name := "interval-ms", value := some isWide },
    { name := "radius", value := some isReal },
    { name := "layers", value := some (isSmall 32) },
    { name := "label-percent", value := some (isSmall 8) },
    { name := "seed", value := some isWide }]

def positionGrammar : Grammar where
  rules := everywhere
  positionals := [Service.isAddress, isReal, isReal, isReal]
  required := 3

def plainGrammar : Grammar where
  rules := everywhere

def isFormat : Check := fun word => (Render.Format.parse? word).isSome

def watchGrammar : Grammar where
  rules := everywhere ++ [
    { name := "stream", value := some (isSmall 32) },
    { name := "seek", value := some anyText },
    { name := "speed", value := some isReal, negative := true },
    { name := "description", letter := some 'd', value := some anyText },
    { name := "format", letter := some 'f', value := some isFormat },
    { name := "count", letter := some 'n', value := some isWide }]

structure Watch where
  /-- The stream to join; without it there will be a new one. -/
  stream : Option UInt32
  /-- Where to start, as it was given. -/
  seek : Option String
  speed : Option Binary32
  description : Option String
  format : Render.Format
  /-- How many events to print; zero for all. -/
  count : Nat
  deriving DecidableEq, Inhabited

inductive Command where
  | feed (config : ScenarioConfig) (steps intervalMs : Nat) (seed : Option UInt64)
  | sendPosition (node : Address) (lat lng alt : Binary64)
  | listStreams
  | range
  | watch (w : Watch)

def natural? (p : Parsed) (name : String) : Option Nat :=
  (p.option? name).bind (Decimal.bounded? true (UInt64.size - 1))

def real (word : String) : Decimal.Written := (Decimal.written? word).getD (.finite false 0 0)

def feedOf (p : Parsed) : Command :=
  .feed
    { nodes := (natural? p "nodes").getD 10
      radius := ((p.option? "radius").map fun w => (real w).toFloat).getD 100
      layers := (natural? p "layers").getD 1
      labelPercent := min ((natural? p "label-percent").getD 10) 100 }
    ((natural? p "steps").getD 0) ((natural? p "interval-ms").getD 1000)
    ((natural? p "seed").map Nat.toUInt64)

def positionOf (p : Parsed) : Command :=
  let coordinate (i : Nat) := (real (p.positionals.getD i "0")).binary64
  .sendPosition ((Address.parse? (p.positionals.getD 0 "")).getD (.v4 0))
    (coordinate 1) (coordinate 2) (coordinate 3)

def watchOf (p : Parsed) : Command :=
  .watch
    { stream := (natural? p "stream").map Nat.toUInt32
      seek := p.option? "seek"
      speed := (p.option? "speed").map fun w => (real w).binary32
      description := p.option? "description"
      format := ((p.option? "format").bind Render.Format.parse?).getD .pretty
      count := (natural? p "count").getD 0 }

def parse (words : List String) : Except Refusal Command := do
  match (← grammar.parse words).command with
  | some ("feed", words) => do pure (feedOf (← feedGrammar.parse words))
  | some ("send-gps", words) => do pure (positionOf (← positionGrammar.parse words))
  | some ("list-streams", words) => do
    let _ ← plainGrammar.parse words
    pure .listStreams
  | some ("range", words) => do
    let _ ← plainGrammar.parse words
    pure .range
  | some ("watch", words) => do pure (watchOf (← watchGrammar.parse words))
  | _ => throw .usage

/-! ## Requests -/

/-- Why a text is no whole number of 64 bits with a sign. -/
def integerFlaw (text : String) : String :=
  match Decimal.integer? text with
  | some n =>
    if n < 0 then "number too small to fit in target type"
    else "number too large to fit in target type"
  | none =>
    if text = "" then "cannot parse integer from empty string"
    else "invalid digit found in string"

/-- A position as people write it: a time, or the end of the history by name. -/
def position (text : String) : Except Failure Position :=
  if text.toLower = "eof" then .ok .eof
  else
    match Decimal.integer? text with
    | some n =>
      if n < Int64.minValue.toInt ∨ Int64.maxValue.toInt < n then
        .error ⟨"invalid seek position '" ++ text ++ "'", [integerFlaw text]⟩
      else if n < 0 then .error ⟨"seek position must be positive or 'eof'", []⟩
      else .ok (.time (Int64.ofInt n))
    | none => .error ⟨"invalid seek position '" ++ text ++ "'", [integerFlaw text]⟩

/-- What sets a watched stream going, in one batch. -/
def Watch.control (w : Watch) : Except Failure (List Payload) := do
  let seek ← w.seek.mapM position
  pure (w.description.toList.map .streamDescription ++ seek.toList.map .seek ++
    w.speed.toList.map .speed ++ [.start])

/-- The batches that a command sends before it looks at events; a reply is awaited after each but
the last one. -/
def Command.batches : Command → Except Failure (List (List Payload))
  | .feed .. => .ok []
  | .sendPosition node lat lng alt => .ok [[.gps ⟨node, lat, lng, alt⟩]]
  | .listStreams => .ok [[.listStreams []]]
  | .range => .ok [[.playbackTimeRange 0 0]]
  | .watch w => do
    let control ← w.control
    pure ([.hello protocolVersion] :: w.stream.toList.map (fun uid => [.subscribeStream uid]) ++
      [control])

/-! ## Answers -/

def versionText : String := "watcherctl 1.0.10\n"

def padLeft (width : Nat) (text : String) : String :=
  String.ofList (List.replicate (width - text.length) ' ') ++ text

def streamsText : List StreamInfo → String
  | [] => "No streams\n"
  | streams => "   UID  DESCRIPTION\n" ++ String.join (streams.map fun s =>
      padLeft 6 (toString s.uid.toNat) ++ "  " ++ s.description ++ "\n")

/-- The recorded range. Two zeros stand for a history without events. -/
def rangeText (first last : Int64) : String :=
  if first = 0 ∧ last = 0 then "History is empty\n"
  else
    "First: " ++ Calendar.timestamp first ++ "\n" ++
    "Last:  " ++ Calendar.timestamp last ++ "\n" ++
    "Span:  " ++ Service.seconds (last.toInt - first.toInt) ++ " s\n"

end EventRelay.Console
