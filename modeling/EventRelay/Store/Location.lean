import EventRelay.Text.Hex
import EventRelay.Text.Utf8

/-!
# Where a database is

A database is opened by a name. A name is the path of a file, or a locator, which starts with
`file:` and says more: behind two slashes the host, which can only be this one, then the path, and
behind a question mark options, each a name and a value, with `&` between them. A number sign ends
a locator. Paths and options may write any byte as a percent sign and two digits. The options say
what the database is opened for and which file system is to hold it.
-/

namespace EventRelay

/-- What a database may be opened for. -/
inductive Access where
  | read
  /-- To be read and written if there is one. -/
  | write
  /-- To be read and written, and made if there is none. -/
  | create
  /-- To be held in memory, away from all files. -/
  | memory
  deriving DecidableEq, Inhabited

namespace Access

def words : List (String × Access) :=
  [("ro", .read), ("rw", .write), ("rwc", .create), ("memory", .memory)]

def rank : Access → Nat
  | read => 1
  | write => 2
  | create => 3
  | memory => 4

/-- Whether a database that may be opened for the first may be opened for the second instead. -/
def allows (granted asked : Access) : Bool := asked == memory || asked.rank ≤ granted.rank

end Access

/-- Why a name is not the name of a database. -/
inductive LocationFault where
  /-- A name has no zero bytes. -/
  | zeroByte (index : Nat)
  | foreignHost (host : String)
  | unknownAccess (value : String)
  | deniedAccess (value : String)
  | unknownCache (value : String)
  | unknownSystem (value : String)
  deriving DecidableEq, Inhabited

namespace LocationFault

def text : LocationFault → String
  | zeroByte index => "nul byte found in provided data at position: " ++ toString index
  | foreignHost host => "invalid uri authority: " ++ host
  | unknownAccess value => "no such access mode: " ++ value
  | deniedAccess value => "access mode not allowed: " ++ value
  | unknownCache value => "no such cache mode: " ++ value
  | unknownSystem value => "no such vfs: " ++ value

end LocationFault

/-- A name or a value in a locator. -/
abbrev Part := List UInt8

structure Location where
  path : Part
  access : Access := .create
  /-- The file system. -/
  system : Part := Utf8.encode "unix"
  options : List (Part × Part) := []
  deriving DecidableEq, Inhabited

namespace Location

/-! ## Reading a name -/

/-- The byte that is written at the start of a text as a percent sign and two digits. -/
def escape? : List Char → Option UInt8
  | '%' :: high :: low :: _ => do
    pure ((← Hex.value? high) * 16 + (← Hex.value? low)).toUInt8
  | _ => none

/-- The bytes of a part of a locator, after `skip` characters. A zero byte ends the part. -/
def unescapeFrom (skip : Nat) : List Char → Part
  | [] => []
  | c :: cs =>
    match skip with
    | n + 1 => unescapeFrom n cs
    | 0 =>
      match escape? (c :: cs) with
      | some 0 => []
      | some b => b :: unescapeFrom 2 cs
      | none => Utf8.encode (String.singleton c) ++ unescapeFrom 0 cs

def unescape (part : List Char) : Part := unescapeFrom 0 part

/-- An option as its name and its value. One without a name does not count. -/
def entry? (item : String) : Option (Part × Part) :=
  let name := unescape (item.toList.takeWhile (· != '='))
  if name = [] then none
  else some (name, unescape ((item.toList.dropWhile (· != '=')).drop 1))

def isNamed (part : Part) (name : String) : Bool := part == Utf8.encode name

/-- Takes what an option says. Later options see what earlier ones have granted. -/
def set (l : Location) : Part × Part → Except LocationFault Location
  | (name, value) =>
    let shown := Utf8.decodeLossy value
    if isNamed name "vfs" then .ok { l with system := value }
    else if isNamed name "cache" then
      if isNamed value "shared" || isNamed value "private" then .ok l
      else .error (.unknownCache shown)
    else if isNamed name "mode" then
      match Access.words.find? fun known => isNamed value known.1 with
      | none => .error (.unknownAccess shown)
      | some (_, access) =>
        if l.access.allows access then .ok { l with access } else .error (.deniedAccess shown)
    else .ok l

def systems : List String := ["unix", "unix-none", "unix-dotfile", "unix-excl", "memdb"]

/-- What follows the host of a locator. -/
def behindHost (locator : List Char) : Except LocationFault (List Char) :=
  match locator with
  | '/' :: '/' :: rest =>
    let host := String.ofList (rest.takeWhile (· != '/'))
    if host = "" ∨ host = "localhost" then .ok (rest.dropWhile (· != '/'))
    else .error (.foreignHost host)
  | _ => .ok locator

/-- Reads a locator from behind its first five characters on. -/
def ofLocator (locator : List Char) : Except LocationFault Location := do
  let text := (← behindHost locator).takeWhile (· != '#')
  let query := String.ofList ((text.dropWhile (· != '?')).drop 1)
  let options := (query.splitOn "&").filterMap entry?
  let path := unescape (text.takeWhile (· != '?'))
  let l ← options.foldlM set { path, options }
  if systems.any (isNamed l.system) then pure l
  else throw (.unknownSystem (Utf8.decodeLossy l.system))

def ofName (name : String) : Except LocationFault Location :=
  match (Utf8.encode name).idxOf? 0 with
  | some index => .error (.zeroByte index)
  | none =>
    if name.startsWith "file:" then ofLocator (name.toList.drop 5)
    else .ok { path := Utf8.encode name }

/-! ## What it comes to -/

/-- The value of an option; of two by one name the first counts. -/
def option? (l : Location) (name : String) : Option Part := l.options.lookup (Utf8.encode name)

/-- A number is read as one byte. -/
def isOn (value : Part) : Bool :=
  let text := Utf8.decodeLossy value
  let digits := text.toList.takeWhile Char.isDigit
  if digits = [] then text.toLower ∈ ["on", "yes", "true"]
  else
    let number := Nat.ofDigitChars 10 digits 0
    number < Nat.pow 2 31 && number % 256 != 0

/-- No path leads to the database. -/
def isNameless (l : Location) : Bool :=
  l.access == .memory || l.path == [] || isNamed l.path ":memory:"

/-- No file keeps the database. -/
def isPrivate (l : Location) : Bool := l.isNameless || isNamed l.system "memdb"

/-- The database may not be written. A file that never changes is not written either. -/
def isReadOnly (l : Location) : Bool :=
  l.access == .read || (!l.isNameless && ((l.option? "immutable").map isOn).getD false)

end Location

end EventRelay
