import EventRelay.Store
import EventRelay.Store.Engine
import EventRelay.Text.Utf8

/-!
# Disks

What the command line sees of a file system: directories, files in them, and the directory that
relative paths start from. A path is followed name by name, from one directory to the next, so
every name but the last has to be that of a directory. A path that ends with a slash leads to a
directory, or to nothing.
-/

namespace EventRelay

/-- The name of an entry of a directory. -/
abbrev EntryName := List UInt8

/-- A place on a disk: the names on the way from the root. -/
abbrev Place := List EntryName

/-! ## Paths -/

structure Path where
  /-- The path starts at the root. -/
  absolute : Bool
  names : List EntryName
  /-- The path ends with a slash. -/
  slash : Bool
  deriving DecidableEq, Inhabited

namespace Path

def slashByte : UInt8 := 47

/-- This directory. -/
def dot : EntryName := [46]

/-- The directory above. -/
def dotDot : EntryName := [46, 46]

/-- The parts between slashes: the first one, and the others. -/
def split (path : List UInt8) : EntryName × List EntryName :=
  path.foldr (fun b (first, others) =>
    if b = slashByte then ([], first :: others) else (b :: first, others)) ([], [])

def ofBytes (path : List UInt8) : Path :=
  let (first, others) := split path
  { absolute := path.head? == some slashByte
    names := (first :: others).filter (· != [])
    slash := path.getLast? == some slashByte }

/-- The most bytes that a name can have. -/
def nameLimit : Nat := 255

/-- A path has fewer bytes than this. -/
def limit : Nat := 4096

end Path

namespace Place

/-- A place by its names, with a slash before each. -/
def toBytes (place : Place) : List UInt8 := place.flatMap (Path.slashByte :: ·)

/-- The places on the way to a place, and the place itself. -/
def way (place : Place) : List Place := (List.range (place.length + 1)).map (place.take ·)

/-- The place of an absolute path without dots. -/
def ofText (path : String) : Place := (Path.ofBytes (Utf8.encode path)).names

end Place

/-! ## Files -/

inductive File where
  | bytes (content : List UInt8)
  | database (database : Database)
  /-- The file that is always empty, whatever is written to it. -/
  | null
  deriving DecidableEq, Inhabited

/-- Why a file cannot be read or written. -/
inductive FileFault where
  | notFound | notADirectory | isADirectory | nameTooLong | notText
  deriving DecidableEq, Inhabited

namespace FileFault

def text : FileFault → String
  | notFound => "No such file or directory (os error 2)"
  | notADirectory => "Not a directory (os error 20)"
  | isADirectory => "Is a directory (os error 21)"
  | nameTooLong => "File name too long (os error 36)"
  | notText => "stream did not contain valid UTF-8"

/-- The name of the kind of fault. -/
def kind : FileFault → String
  | notFound => "entity not found"
  | notADirectory => "not a directory"
  | isADirectory => "is a directory"
  | nameTooLong => "invalid filename"
  | notText => "invalid data"

end FileFault

structure Disk where
  directories : List Place
  files : List (Place × File)
  /-- Where relative paths start. -/
  here : Place
  deriving Inhabited

/-- Where a path leads: to a directory, or to a name in one that may be in use or not. -/
inductive Target where
  | directory
  | entry (parent : Place) (name : EntryName) (slash : Bool)
  deriving DecidableEq, Inhabited

namespace Disk

/-- Directories that every host has. -/
def common : List Place :=
  [] :: ["bin", "boot", "dev", "etc", "home", "lib", "media", "mnt", "opt", "proc", "root", "run",
    "sbin", "srv", "sys", "tmp", "usr", "var"].map Place.ofText

/-- A disk on which everything happens in one directory. -/
def ofDirectory (directory : Place) : Disk :=
  { directories := directory.way ++ common
    files := [(Place.ofText "/dev/null", .null)]
    here := directory }

def file? (d : Disk) (place : Place) : Option File := d.files.lookup place

/-- Puts a file in its place. Nothing changes the file that is always empty. -/
def put (d : Disk) (place : Place) (file : File) : Disk :=
  if d.file? place = some .null then d
  else { d with files := (place, file) :: d.files.filter (·.1 != place) }

/-- Puts a file in its place and makes the directories on the way. -/
def add (d : Disk) (place : Place) (file : File) : Disk :=
  { d with directories := Place.way place.dropLast ++ d.directories }.put place file

def hasDirectory (d : Disk) (place : Place) : Bool := place ∈ d.directories

/-! ## Following a path -/

/-- Goes on from a directory to one by name. -/
def step (d : Disk) (place : Place) (name : EntryName) : Except FileFault Place :=
  if name = Path.dot then .ok place
  else if name = Path.dotDot then .ok place.dropLast
  else if Path.nameLimit < name.length then .error .nameTooLong
  else if d.hasDirectory (place ++ [name]) then .ok (place ++ [name])
  else if (d.file? (place ++ [name])).isSome then .error .notADirectory
  else .error .notFound

/-- Follows a path up to its last name. -/
def locate (d : Disk) (path : List UInt8) : Except FileFault Target :=
  if path = [] then .error .notFound
  else if Path.limit ≤ path.length then .error .nameTooLong
  else do
    let p := Path.ofBytes path
    let parent ← p.names.dropLast.foldlM d.step (if p.absolute then [] else d.here)
    match p.names.getLast? with
    | none => pure .directory
    | some name =>
      if name = Path.dot ∨ name = Path.dotDot then pure .directory
      else pure (.entry parent name p.slash)

/-- The file at a path, or none for a directory. -/
def find (d : Disk) (path : List UInt8) : Except FileFault (Option File) := do
  match ← d.locate path with
  | .directory => pure none
  | .entry parent name slash =>
    if Path.nameLimit < name.length then throw .nameTooLong
    else if d.hasDirectory (parent ++ [name]) then pure none
    else
      match d.file? (parent ++ [name]) with
      | none => throw .notFound
      | some file => if slash then throw .notADirectory else pure (some file)

/-- Whether there is anything at a path. -/
def holds (d : Disk) (path : List UInt8) : Bool := (d.find path).toBool

/-! ## Reading and writing -/

/-- Reads a file as text. -/
def readText (d : Disk) (path : String) : Except FileFault String := do
  match ← d.find (Utf8.encode path) with
  | none => throw .isADirectory
  | some .null => pure ""
  | some (.database _) => throw .notText
  | some (.bytes content) => (Utf8.decode content).mapError fun _ => .notText

/-- Makes a file or replaces its content. -/
def write (d : Disk) (path : String) (file : File) : Except FileFault Disk := do
  match ← d.locate (Utf8.encode path) with
  | .directory => throw .isADirectory
  | .entry parent name slash =>
    if slash ∨ d.hasDirectory (parent ++ [name]) then throw .isADirectory
    else if Path.nameLimit < name.length then throw .nameTooLong
    else pure (d.put (parent ++ [name]) file)

def writeText (d : Disk) (path text : String) : Except FileFault Disk :=
  d.write path (.bytes (Utf8.encode text))

end Disk

end EventRelay
