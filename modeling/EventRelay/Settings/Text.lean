import EventRelay.Settings
import EventRelay.Toml.Document

/-!
# Settings as text

Settings are kept as a configuration text. Reading it takes the settings that are there, keeps the
defaults of those that are not, and steps over keys it does not know. A setting of the wrong kind or
out of range makes the text unreadable. Writing lists all settings, those of the replay in a table
of their own.
-/

namespace EventRelay

namespace Settings

open Toml

/-! ## Reading -/

/-- A whole number from zero up to a bound. -/
def number? (most : Nat) : Value → Option Nat
  | .integer n => if 0 ≤ n.toInt ∧ n.toInt ≤ most then some n.toInt.toNat else none
  | _ => none

def word? (v : Value) : Option UInt64 := (number? (UInt64.size - 1) v).map Nat.toUInt64

def text? : Value → Option String
  | .text s => some s
  | _ => none

def switch? : Value → Option Bool
  | .boolean b => some b
  | _ => none

/-- A size that may have been left out. -/
def sizeOr (default : UInt64) : Option Value → Option UInt64
  | none => some default
  | some v => word? v

def withSizes (s : Settings) (bufferSize timeStepMs : Option Value) : Option Settings := do
  some { s with
    bufferSize := ← sizeOr s.bufferSize bufferSize
    timeStepMs := ← sizeOr s.timeStepMs timeStepMs }

/-- The settings of the replay, by name in a table or in their order in an array. A date is as good
as an empty table. -/
def withReplay (s : Settings) : Value → Option Settings
  | .table _ entries => s.withSizes (entries.lookup "buffer_size") (entries.lookup "time_step_ms")
  | .array items => s.withSizes items[0]? items[1]?
  | .tables items => s.withSizes items[0]? items[1]?
  | .date => some s
  | _ => none

/-- Takes one setting, if the key is one. -/
def withEntry (s : Settings) : String × Value → Option Settings
  | ("bind_address", v) => do some { s with bindAddress := ← Address.parse? (← text? v) }
  | ("port", v) => do some { s with port := (← number? 65535 v).toUInt16 }
  | ("worker_threads", v) => do some { s with workerThreads := ← word? v }
  | ("database", v) => do some { s with database := ← text? v }
  | ("read_only", v) => do some { s with readOnly := ← switch? v }
  | ("max_message_size", v) => do some { s with maxMessageSize := ← word? v }
  | ("outbound_queue_capacity", v) => do some { s with outboundQueueCapacity := ← word? v }
  | ("log_level", v) => do some { s with logLevel := ← text? v }
  | ("replay", v) => s.withReplay v
  | _ => some s

/-- The settings in a text, unless it is malformed. -/
def ofText? (text : String) : Option Settings := do
  (← Toml.parse? text).foldlM withEntry {}

/-! ## Writing -/

def toText (s : Settings) : String :=
  let line (key value : String) := key ++ " = " ++ value ++ "\n"
  let number (n : UInt64) := toString n.toNat
  line "bind_address" (quote s.bindAddress.text) ++
  line "port" (toString s.port.toNat) ++
  line "worker_threads" (number s.workerThreads) ++
  line "database" (quote s.database) ++
  line "read_only" (if s.readOnly then "true" else "false") ++
  line "max_message_size" (number s.maxMessageSize) ++
  line "outbound_queue_capacity" (number s.outboundQueueCapacity) ++
  line "log_level" (quote s.logLevel) ++
  "\n[replay]\n" ++
  line "buffer_size" (number s.bufferSize) ++
  line "time_step_ms" (number s.timeStepMs)

end Settings

end EventRelay
