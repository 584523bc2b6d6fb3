import EventRelay.CommandLine
import EventRelay.CommandLine.Failure
import EventRelay.Decimal.Notation
import EventRelay.Disk.Database
import EventRelay.Server
import EventRelay.Settings.Text

/-!
# The command line of the service

The service is started with settings from a file, or with the defaults, and options go before
both. Instead of serving it can write a file of default settings, check a file of settings, or tell
what is recorded in a database. Whichever it does, the settings it was given come first and have to
be sound.
-/

namespace EventRelay.Service

open CommandLine

/-! ## The line -/

def isAddress : Check := fun word => (Address.parse? word).isSome

def grammar : Grammar where
  rules := [
    { name := "config", letter := some 'c', value := some isPath },
    { name := "port", letter := some 'p', value := some (isSmall 16) },
    { name := "bind", letter := some 'b', value := some isAddress },
    { name := "database", letter := some 'd', value := some anyText },
    { name := "read-only" },
    { name := "workers", value := some isWide },
    { name := "log-level", value := some anyText }]
  commands := ["gen-config", "validate", "stats"]
  versioned := true

def generateGrammar : Grammar where
  rules := [{ name := "output", letter := some 'o', value := some isPath }]

def validateGrammar : Grammar where
  rules := [{ name := "config", letter := some 'c', value := some isPath }]
  mandatory := ["config"]

def statsGrammar : Grammar where
  rules := [{ name := "database", letter := some 'd', value := some anyText }]

inductive Task where
  | serve
  | generate (path : String)
  | validate (path : String)
  | stats (database : String)
  deriving DecidableEq, Inhabited

/-- The settings file and the options that go before it. -/
structure Overrides where
  config : Option String
  port : Option UInt16
  bind : Option Address
  database : Option String
  readOnly : Bool
  workers : Option UInt64
  deriving DecidableEq, Inhabited

def Overrides.ofParsed (p : Parsed) : Overrides where
  config := p.option? "config"
  port := (p.option? "port").bind fun w => (Decimal.bounded? true 65535 w).map Nat.toUInt16
  bind := (p.option? "bind").bind Address.parse?
  database := p.option? "database"
  readOnly := p.has "read-only"
  workers := (p.option? "workers").bind fun w =>
    (Decimal.bounded? false (UInt64.size - 1) w).map Nat.toUInt64

def taskOf : Option (String × List String) → Except Refusal Task
  | some ("gen-config", words) => do
    pure (.generate (((← generateGrammar.parse words).option? "output").getD "watcherd.toml"))
  | some ("validate", words) => do
    pure (.validate (((← validateGrammar.parse words).option? "config").getD ""))
  | some ("stats", words) => do
    pure (.stats (((← statsGrammar.parse words).option? "database").getD "watcher.db"))
  | _ => pure .serve

def parse (words : List String) : Except Refusal (Overrides × Task) := do
  let p ← grammar.parse words
  pure (.ofParsed p, ← taskOf p.command)

def versionText : String := "watcherd 1.0.10\n"

/-! ## Settings -/

/-- Why settings are not loaded from a file. -/
inductive LoadError where
  | unreadable (fault : FileFault)
  | malformed
  | flawed (flaw : SettingsFlaw)
  deriving DecidableEq, Inhabited

def LoadError.failure : LoadError → Failure
  | unreadable fault => ⟨"I/O error: " ++ fault.text, [fault.text]⟩
  | malformed => ⟨"TOML parse error: malformed settings", ["malformed settings"]⟩
  | flawed flaw => ⟨flaw.message, []⟩

/-- Settings that have no flaw. -/
def sound (s : Settings) : Except LoadError Settings :=
  match s.flaw? with
  | some flaw => .error (.flawed flaw)
  | none => .ok s

/-- Loads settings from a file. -/
def load (disk : Disk) (path : String) : Except LoadError Settings :=
  match disk.readText path with
  | .error fault => .error (.unreadable fault)
  | .ok text =>
    match Settings.ofText? text with
    | none => .error .malformed
    | some s => sound s

def Overrides.apply (o : Overrides) (s : Settings) : Settings :=
  { s with
    port := o.port.getD s.port
    bindAddress := o.bind.getD s.bindAddress
    database := o.database.getD s.database
    readOnly := o.readOnly || s.readOnly
    workerThreads := o.workers.getD s.workerThreads }

/-- The settings of a line. -/
def Overrides.settings (o : Overrides) (disk : Disk) : Except Failure Settings := do
  let base ← match o.config with
    | none => pure {}
    | some path => (load disk path).mapError fun e => e.failure.behind ("failed to load " ++ path)
  (sound (o.apply base)).mapError LoadError.failure

/-! ## Tasks -/

/-- What has been done: what is told about it, and the disk afterwards. -/
structure Report where
  text : String
  disk : Disk
  deriving Inhabited

def generate (disk : Disk) (path : String) : Except Failure Report :=
  match disk.writeText path (Settings.toText {}) with
  | .error fault => .error ⟨"failed to write " ++ path, [fault.text]⟩
  | .ok disk => .ok ⟨"Generated configuration: " ++ path ++ "\n", disk⟩

def validate (disk : Disk) (path : String) : Except Failure Report :=
  match load disk path with
  | .error e => .error e.failure
  | .ok s =>
    .ok ⟨"Configuration is valid: " ++ path ++ "\n" ++
      "  Listen:   " ++ s.listenAddress ++ "\n" ++
      "  Database: " ++ s.database ++ "\n" ++
      "  Replay:   " ++ toString s.bufferSize.toNat ++ " events / " ++
      toString s.timeStepMs.toNat ++ " ms step\n", disk⟩

/-- A time span in seconds with one place. -/
def seconds (ms : Int) : String :=
  Decimal.writeFixed 1 (Binary64.ofFloat (Float.ofInt ms / 1000)).value

def rangeText : Option (Int64 × Int64) → String
  | none => "  (empty)\n"
  | some (first, last) =>
    "  First:  " ++ toString first.toInt ++ " ms\n" ++
    "  Last:   " ++ toString last.toInt ++ " ms\n" ++
    "  Span:   " ++ seconds (last.toInt - first.toInt) ++ " s\n"

def stats (disk : Disk) (database : String) : Except Failure Report :=
  match disk.openStore database with
  | .error e => .error ⟨e.message, e.causes⟩
  | .ok (disk, store) =>
    .ok ⟨"Database: " ++ database ++ "\n" ++
      "  Events: " ++ toString store.count ++ "\n" ++ rangeText store.range, disk⟩

/-! ## The whole line -/

/-- What a line comes to. A line that serves ends in a server. -/
inductive Ending where
  | refused (refusal : Refusal)
  | failed (failure : Failure)
  | done (report : Report)
  | serving (server : Server) (disk : Disk)
  deriving Inhabited

/-- Sets a server up over the database of its settings and lets it serve. -/
def serve (disk : Disk) (network : Network) (epoch : Int64) (s : Settings) : Ending :=
  match disk.openStore s.database with
  | .error e => .failed ⟨(ServerError.store e).message, (ServerError.store e).causes⟩
  | .ok (disk, store) =>
    match Server.new s ⟨store, fun _ => false⟩ epoch network true >>= Server.listen with
    | .error e => .failed ⟨e.message, e.causes⟩
    | .ok server => .serving server disk

def Ending.ofReport : Except Failure Report → Ending
  | .error f => .failed f
  | .ok r => .done r

def run (disk : Disk) (network : Network) (epoch : Int64) (words : List String) : Ending :=
  match parse words with
  | .error refusal => .refused refusal
  | .ok (overrides, task) =>
    match overrides.settings disk with
    | .error f => .failed f
    | .ok s =>
      match task with
      | .serve => serve disk network epoch s
      | .generate path => .ofReport (generate disk path)
      | .validate path => .ofReport (validate disk path)
      | .stats database => .ofReport (stats disk database)

end EventRelay.Service
