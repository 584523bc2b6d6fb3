import EventRelay.Disk

/-!
# Databases on a disk

The name of a database is read, and then the engine of its location opens it. The engine has its
own way with paths: it joins the names of a path before it looks for the file, so that two dots take
back whatever name is before them and a slash at the end does not count. Only what is in the way of
looking at a name stops it.
-/

namespace EventRelay.Disk

/-! ## The file of a database -/

/-- The path of a database has fewer bytes than this at each name. -/
def joinLimit : Nat := 512

/-- The most bytes that the path of a database can have, with room left for what the engine puts
behind it. -/
def databaseLimit : Nat := 504

/-- What the engine puts behind the name of a database to keep a journal beside it. -/
def journalSuffix : EntryName := Utf8.encode "-journal"

/-- Whether a place can be looked at: it is there, or it or a directory on the way is missing. -/
def isVisible (d : Disk) (place : Place) : Bool :=
  match place.dropLast.foldlM d.step [] with
  | .ok _ => (place.getLast?.getD []).length ≤ Path.nameLimit
  | .error fault => fault == .notFound

/-- Joins a name to a place. -/
def join? (d : Disk) (place : Place) (name : EntryName) : Option Place :=
  if name = Path.dot then some place
  else if name = Path.dotDot then some place.dropLast
  else if (place ++ [name]).toBytes.length < joinLimit && d.isVisible (place ++ [name]) then
    some (place ++ [name])
  else none

/-- The place of a database. -/
def databasePlace? (d : Disk) (path : List UInt8) : Option Place := do
  let p := Path.ofBytes path
  let place ← p.names.foldlM d.join? (if p.absolute then [] else d.here)
  if place = [] ∨ databaseLimit < place.toBytes.length then none else some place

/-- Finds the file of a database, or makes sure that there can be one. -/
def openFile (d : Disk) (l : Location) : Except EngineFault Place :=
  match d.databasePlace? l.path with
  | none => .error .noFile
  | some place =>
    if ((l.option? "modeof").map fun path => !d.holds path).getD false then .error .noStatus
    else if d.hasDirectory place then
      .error (if l.access = .read then .unreadable else .noFile)
    else if (d.file? place).isSome then .ok place
    else if l.access = .create && d.hasDirectory place.dropLast then .ok place
    else .error .noFile

/-! ## The engine -/

/-- The database in a file. A file of one byte passes for empty. -/
def loadFile : File → Except EngineFault Database
  | .database database => .ok database
  | .null => .ok .blank
  | .bytes content => if 1 < content.length then .error .notADatabase else .ok .blank

/-- What is in the way of writing a database to a file. -/
def writeFault? (l : Location) (name : EntryName) (file : File) : Option EngineFault :=
  if l.isReadOnly then some .readOnly
  else if file = .null then some .unsynced
  else if Path.nameLimit < (name ++ journalSuffix).length then some .noFile
  else none

/-- The engine for a location on a disk. Behind a handle are the disk and the place of the file,
which is only looked for once. -/
def engine (l : Location) : Engine Disk (Disk × Place) where
  connect d := (d.openFile l).map fun place => (d, place)
  load handle := loadFile ((handle.1.file? handle.2).getD (.bytes []))
  commit handle database :=
    let (d, place) := handle
    match writeFault? l (place.getLast?.getD []) ((d.file? place).getD (.bytes [])) with
    | some fault => .error fault
    | none => .ok (d.put place (.database database), place)
  close handle := handle.1

/-- The engine for a location that no file is kept for. The database is gone when it is closed. -/
def privateEngine (l : Location) : Engine Unit Database where
  connect _ := .ok .blank
  load handle := .ok handle
  commit _ database := if l.isReadOnly then .error .readOnly else .ok database
  close _ := ()

/-! ## The whole -/

/-- Opens a database at its location, which has a name. -/
def openLocation (d : Disk) (name : String) (l : Location) : Except StoreError (Disk × Store) :=
  if l.isPrivate then
    ((privateEngine l).openStore name ()).map fun s => (d, .table s.table)
  else
    ((engine l).openStore name d).map fun s => (s.handle.1, .table s.table)

/-- Opens a store by name. One name stands for a store that is not a database. -/
def openStore (d : Disk) (name : String) : Except StoreError (Disk × Store) :=
  if name = "memory" then .ok (d, .memory)
  else
    match Location.ofName name with
    | .error fault => .error (.cannotOpen name (.misnamed fault))
    | .ok l => d.openLocation name l

end EventRelay.Disk
