import EventRelay.CommandLine.Service
import EventRelay.Hub.Timeline

/-!
# The program

The service at the command line of a host. It reads the files that its line names into a disk, does
what the line says, and writes back what has changed. The disk has no engine that writes databases
to the host, so a database lasts as long as the program. A service that serves has one peer, at its
standard streams, and serves it until the peer ends its stream.
-/

namespace EventRelay.Program

open Service

/-! ## Files -/

def pathOf (place : Place) : String := Utf8.decodeLossy (if place = [] then [47] else place.toBytes)

/-- The places that a path leads past, and the one that it leads to. -/
def placesOf (here : Place) (path : List UInt8) : List Place :=
  let p := Path.ofBytes path
  let go (place : Place) (name : EntryName) : Place :=
    if name = Path.dot then place
    else if name = Path.dotDot then place.dropLast
    else place ++ [name]
  p.names.foldl (fun places name => places ++ [go (places.getLast?.getD []) name])
    [if p.absolute then [] else here]

/-- Adds what the host has at a place. -/
def fetch (disk : Disk) (place : Place) : IO Disk := do
  if ← ((← IO.currentDir) / pathOf place).isDir then
    pure { disk with directories := place :: disk.directories }
  else
    try
      pure (disk.put place (.bytes (← IO.FS.readBinFile (pathOf place)).toList))
    catch _ => pure disk

/-- Adds what the host has along a path. -/
def fetchPath (disk : Disk) (path : List UInt8) : IO Disk :=
  (placesOf disk.here path).foldlM fetch disk

/-- Writes a file to the host. -/
def save (place : Place) : File → IO Unit
  | .bytes content => IO.FS.writeBinFile (pathOf place) content.toByteArray
  | .database _ | .null => pure ()

/-- Writes to the host what has changed on the disk. -/
def saveChanges (before after : Disk) : IO Unit :=
  after.files.forM fun (place, file) =>
    if before.file? place = some file then pure () else save place file

/-! ## Serving -/

/-- A server, its peer, and what the peer has sent of a frame that is not whole yet. -/
structure Call where
  server : Server
  session : SessionId
  pending : Wire.Bytes

/-- Serves what the peer has sent now; whether the call goes on. -/
def Call.hear (c : Call) (bytes : Wire.Bytes) : Call × Bool :=
  let (relay, pending) :=
    c.server.relay.serveReady c.server.settings.framing c.session (c.pending ++ bytes)
  ({ c with server := { c.server with relay }, pending := pending.getD [] }, pending.isSome)

/-- Writes what is queued to the peer. -/
def Call.flush (c : Call) : IO Call := do
  let (server, bytes) := c.server.written c.session
  let output ← IO.getStdout
  output.write bytes.toByteArray
  output.flush
  pure { c with server }

/-- Lets time pass. -/
def Call.pass (c : Call) (ms : Nat) : Call :=
  { c with server := { c.server with relay := c.server.relay.modifyHub (·.advance ms) } }

/-- Reads what the peer sends next, while other things go on. -/
def listen : IO (Task (Except IO.Error ByteArray)) := do IO.asTask ((← IO.getStdin).read 65536)

/-- Serves the peer; `since` is when time was last told, and `input` what comes next from it. -/
partial def Call.loop (c : Call) (since : Nat) (input : Task (Except IO.Error ByteArray)) :
    IO Call := do
  let now ← IO.monoMsNow
  let c := c.pass (now - since)
  if ← IO.hasFinished input then
    let bytes := (input.get.toOption.getD ByteArray.empty).toList
    let (c, goesOn) := c.hear bytes
    let c ← c.flush
    if bytes.isEmpty || !goesOn then pure c else loop c now (← listen)
  else
    let c ← c.flush
    IO.sleep 5
    loop c now input

def serveStreams (server : Server) : IO Unit := do
  match server.dial with
  | .error fault => throw (IO.userError fault.text)
  | .ok (server, session) =>
    let _ ← Call.loop ⟨server, session, []⟩ (← IO.monoMsNow) (← listen)

/-! ## The line -/

/-- The path of a database. -/
def databasePath (name : String) : List UInt8 :=
  ((Location.ofName name).toOption.map (·.path)).getD []

/-- The paths that a line names. -/
def paths (o : Overrides) (task : Task) : List (List UInt8) :=
  let own := match task with
    | .serve => []
    | .generate path | .validate path => [Utf8.encode path]
    | .stats database => [databasePath database]
  own ++ o.config.toList.map Utf8.encode

def usageText : String :=
  "usage: [options] [gen-config [-o FILE] | validate -c FILE | stats [-d DATABASE]]\n"

def run (words : List String) : IO UInt32 := do
  let mut disk : Disk := .ofDirectory (Place.ofText (← IO.currentDir).toString)
  if let .ok (o, task) := parse words then
    disk ← (paths o task).foldlM fetchPath disk
    if let .ok s := o.settings disk then
      disk ← fetchPath disk (databasePath s.database)
  let epoch := Int64.ofNat (← IO.monoMsNow)
  match Service.run disk .up epoch words with
  | .refused .usage =>
    IO.eprint usageText
    pure 2
  | .refused .help =>
    IO.print usageText
    pure 0
  | .refused .version =>
    IO.print versionText
    pure 0
  | .failed f =>
    IO.eprint f.text
    pure 1
  | .done report =>
    saveChanges disk report.disk
    IO.print report.text
    pure 0
  | .serving server _ =>
    serveStreams server
    pure 0

end EventRelay.Program

def main (words : List String) : IO UInt32 := EventRelay.Program.run words
