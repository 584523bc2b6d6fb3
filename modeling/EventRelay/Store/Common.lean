import EventRelay.Ieee
import EventRelay.Store.Location
import EventRelay.Wire.Frame

/-!
# What is common to stores

A store is read in a direction of play: a negative speed plays backwards, any other forwards. A
request may fail, and an error may have causes of its own, which are told one by one where the error
ends a command.
-/

namespace EventRelay

inductive Direction where
  | forward | reverse
  deriving DecidableEq, Inhabited

namespace Direction

def ofSpeed (speed : Binary32) : Direction := if speed.isNegative then reverse else forward

def name : Direction → String
  | forward => "Forward"
  | reverse => "Reverse"

end Direction

/-! ## Errors -/

/-- Why the database engine gives up on a request. -/
inductive EngineFault where
  | unavailable
  | notADatabase
  | readOnly
  /-- There is no such file, and none can be made. -/
  | noFile
  /-- The file cannot be read. -/
  | unreadable
  /-- The file that another one takes its permissions from is not there. -/
  | noStatus
  /-- What is written to the file is not kept. -/
  | unsynced
  | misnamed (fault : LocationFault)
  deriving DecidableEq, Inhabited

namespace EngineFault

def text : EngineFault → String
  | unavailable => "unavailable"
  | notADatabase => "file is not a database"
  | readOnly => "attempt to write a readonly database"
  | noFile => "unable to open database file"
  | unreadable | noStatus | unsynced => "disk I/O error"
  | misnamed fault => fault.text

/-- The number of a fault in the engine, and what the number stands for. -/
def number? : EngineFault → Option (Nat × String)
  | unavailable => none
  | notADatabase => some (26, "File opened that is not a database file")
  | readOnly => some (8, "Attempt to write a readonly database")
  | noFile => some (14, "Unable to open the database file")
  | unreadable => some (266, "Error reading from disk")
  | noStatus => some (1802, "Error invoking fstat to get file metadata")
  | unsynced => some (1034, "Error flushing data to persistent storage (fsync)")
  | misnamed (.zeroByte _) => none
  | misnamed (.deniedAccess _) => some (3, "Access permission denied")
  | misnamed _ => some (1, "SQL error or missing database")

/-- The engine's own word for the fault. -/
def source? : EngineFault → Option String
  | misnamed (.zeroByte index) => some (LocationFault.zeroByte index).text
  | fault => fault.number?.map fun (n, meaning) => "Error code " ++ toString n ++ ": " ++ meaning

end EngineFault

inductive StoreError where
  | engine (fault : EngineFault)
  /-- The database of this name can be neither opened nor made. -/
  | cannotOpen (name : String) (fault : EngineFault)
  | corrupt (source : Wire.WireError)
  | notData (kind : Kind)
  deriving DecidableEq, Inhabited

namespace StoreError

/-- Why a database is not opened. A missing file is told by the name. -/
def cannotOpenText (name : String) : EngineFault → String
  | .noFile => EngineFault.noFile.text ++ ": " ++ name
  | fault => fault.text

def message : StoreError → String
  | engine fault => "SQLite error: " ++ fault.text
  | cannotOpen name fault =>
    "failed to open database at " ++ name ++ ": " ++ cannotOpenText name fault
  | corrupt source => "stored record is corrupt: " ++ source.message
  | notData kind => "only data events are stored, got " ++ kind.describe

/-- The causes behind an error, each the cause of the one before it. -/
def causes : StoreError → List String
  | engine fault => fault.text :: fault.source?.toList
  | cannotOpen name fault => cannotOpenText name fault :: fault.source?.toList
  | corrupt source => source.message :: source.causes
  | notData _ => []

end StoreError

end EventRelay
