import EventRelay.Store.Table

/-!
# Stores in files

A table of events belongs to a database, and an engine keeps the database in a file. What files are
and how they hold databases is the engine's business: it connects to a file and closes it again,
loads the database, and commits what a transaction has made of it. When a store is opened in a file
the table and its index are made, each unless it is there; a table that is there stays as it is. A
batch is appended in one transaction.
-/

namespace EventRelay

/-- What a database has of a store: the table of events, unless it is still to be made, and whether
the table has its index. -/
structure Database where
  events : Option TableStore
  indexed : Bool
  deriving DecidableEq, Inhabited

namespace Database

def blank : Database := ⟨none, false⟩

/-- The database of a store with this table. -/
def ofTable (table : TableStore) : Database := ⟨some table, true⟩

end Database

/-- An engine for files of some kind. A file that it is connected to is behind a handle. -/
structure Engine (File Handle : Type) where
  connect : File → Except EngineFault Handle
  /-- Reads the database. -/
  load : Handle → Except EngineFault Database
  /-- Writes the database, all of it or nothing. -/
  commit : Handle → Database → Except EngineFault Handle
  close : Handle → File

/-- A store in a file that is open, with its table as the last transaction has left it. -/
structure FileStore (Handle : Type) where
  handle : Handle
  table : TableStore

namespace Engine

variable {File Handle : Type} (engine : Engine File Handle)

/-- Ends a transaction that has led from one database to another. Only a change is committed. -/
def finish (handle : Handle) (before after : Database) : Except EngineFault Handle :=
  if after = before then .ok handle else engine.commit handle after

/-- Makes the table, and then its index, each unless it is there. -/
def initSchema (handle : Handle) : Except EngineFault (FileStore Handle) := do
  let found ← engine.load handle
  let table := found.events.getD .empty
  let handle ← engine.finish handle found { found with events := some table }
  let handle ← engine.finish handle { found with events := some table } (.ofTable table)
  pure { handle, table }

/-- Opens the store in a file, which goes by a name. -/
def openStore (name : String) (file : File) : Except StoreError (FileStore Handle) :=
  match engine.connect file with
  | .error fault => .error (.cannotOpen name fault)
  | .ok handle => (engine.initSchema handle).mapError .engine

/-- Closes the store and opens it again. -/
def reopen (name : String) (s : FileStore Handle) : Except StoreError (FileStore Handle) :=
  engine.openStore name (engine.close s.handle)

/-- Appends a batch in one transaction, which is not begun if an event of the batch is refused. -/
def appendBatch (s : FileStore Handle) (ms : List Message) : FileStore Handle × Option StoreError :=
  match s.table.appendBatch ms with
  | (_, some error) => (s, some error)
  | (table, none) =>
    match engine.finish s.handle (.ofTable s.table) (.ofTable table) with
    | .error fault => (s, some (.engine fault))
    | .ok handle => ({ handle, table }, none)

/-- What an engine is relied on for, as long as its handles are sound: every transaction is
committed, what has been committed is what is loaded from then on, and a file that has been closed
can be connected to again and is as it was. -/
structure Faithful (sound : Handle → Prop) : Prop where
  commit {handle : Handle} (h : sound handle) (database : Database) : ∃ written,
    engine.commit handle database = .ok written ∧ sound written ∧
      engine.load written = .ok database
  reconnect {handle : Handle} (h : sound handle) : ∃ again,
    engine.connect (engine.close handle) = .ok again ∧ sound again ∧
      engine.load again = engine.load handle

end Engine

end EventRelay
