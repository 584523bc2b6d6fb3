import EventRelay.Address
import EventRelay.Replay

/-!
# Settings

What an operator can set: where the relay listens, where it keeps its history, and the sizes that
bound its work. Every setting has a default, and settings are checked before anything is done with
them; the first flaw in a fixed order is the one reported.
-/

namespace EventRelay

structure Settings where
  bindAddress : Address := .v4 0
  port : UInt16 := 8095
  workerThreads : UInt64 := 8
  /-- A file, or `memory`, or `:memory:`. -/
  database : String := "watcher.db"
  /-- Events are relayed and not recorded. -/
  readOnly : Bool := false
  maxMessageSize : UInt64 := 16777216
  outboundQueueCapacity : UInt64 := 1024
  logLevel : String := "info"
  /-- How many events a replay fetches at once. -/
  bufferSize : UInt64 := 10
  /-- Within how many milliseconds of its clock a replay delivers events together. -/
  timeStepMs : UInt64 := 250
  deriving DecidableEq, Inhabited

/-- What is wrong with settings. -/
inductive SettingsFlaw where
  | noWorkers | noDatabase | messageSize | noQueue | noBuffer | noTimeStep
  deriving DecidableEq, Inhabited

namespace SettingsFlaw

def reason : SettingsFlaw → String
  | noWorkers => "worker_threads cannot be 0"
  | noDatabase => "database cannot be empty"
  | messageSize => "max_message_size must be between 6 and 4294967295"
  | noQueue => "outbound_queue_capacity cannot be 0"
  | noBuffer => "replay.buffer_size cannot be 0"
  | noTimeStep => "replay.time_step_ms cannot be 0"

def message (flaw : SettingsFlaw) : String := "Invalid configuration: " ++ flaw.reason

end SettingsFlaw

namespace Settings

/-- The first flaw of settings, if they have one. A message is at least as long as a frame header
and no longer than one can announce. -/
def flaw? (s : Settings) : Option SettingsFlaw :=
  if s.workerThreads = 0 then some .noWorkers
  else if s.database = "" then some .noDatabase
  else if s.maxMessageSize.toNat < Wire.headerSize ∨ Wire.maxWord32 < s.maxMessageSize.toNat then
    some .messageSize
  else if s.outboundQueueCapacity = 0 then some .noQueue
  else if s.bufferSize = 0 then some .noBuffer
  else if s.timeStepMs = 0 then some .noTimeStep
  else none

def listenAddress (s : Settings) : String := s.bindAddress.text ++ ":" ++ toString s.port.toNat

/-- The time step of replays in microseconds. -/
def timeStepMicros (s : Settings) : Nat := s.timeStepMs.toNat * 1000

def replay (s : Settings) : ReplayConfig := .ofNumbers s.bufferSize.toNat s.timeStepMs.toNat

def framing (s : Settings) : Wire.Framing := .ofLimit s.maxMessageSize.toNat

end Settings

end EventRelay
