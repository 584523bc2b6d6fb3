import EventRelay.Toml.Value

/-!
# Growing a tree of tables

Each statement changes the tree of tables that those before it have made. A table is opened by a
header once; tables on the way to it come into being without one and may get theirs later. A dotted
key makes the tables on its way, and adds only to such as dotted keys have made. What has a value
never gets another.
-/

namespace EventRelay.Toml

/-- A key with dots in it leads through tables. -/
abbrev Path := List String

/-- Changes the entries of the last of several tables. -/
def alterLast (f : Entries → Option Entries) : List Value → Option (List Value)
  | [] => none
  | [.table origin entries] => (f entries).map fun entries => [.table origin entries]
  | v :: vs => (alterLast f vs).map (v :: ·)

namespace Value

/-- Changes what is inside of a table that a header leads through. -/
def enter (f : Entries → Option Entries) : Value → Option Value
  | .table .inline _ => none
  | .table origin entries => (f entries).map (.table origin)
  | .tables items => (alterLast f items).map .tables
  | _ => none

/-- Changes what is inside of a table that no dotted key has made and no header has finished. -/
def reopen (f : Entries → Option Entries) : Value → Option Value
  | .table .implied entries => (f entries).map (.table .implied)
  | .tables items => (alterLast f items).map .tables
  | _ => none

end Value

namespace Entries

/-- Assigns a value. -/
def assign (value : Value) : Path → Entries → Option Entries
  | [], _ => none
  | [key], entries => entries.alter key fun
    | none => some value
    | some _ => none
  | key :: next :: path, entries => entries.alter key fun
    | none => (assign value (next :: path) []).map (.table .dotted)
    | some (.table .dotted inner) => (assign value (next :: path) inner).map (.table .dotted)
    | some v => if path = [] then none else v.reopen (assign value (next :: path))

/-- Changes the entries of the table that a header names. -/
def within (f : Entries → Option Entries) : Path → Entries → Option Entries
  | [], entries => f entries
  | key :: path, entries => entries.alter key fun
    | none => (within f path []).map (.table .implied)
    | some v => v.enter (within f path)

/-- Opens the table that a header names. -/
def openTable : Path → Entries → Option Entries
  | [], _ => none
  | [key], entries => entries.alter key fun
    | none => some (.table .header [])
    | some (.table .implied inner) => some (.table .header inner)
    | some _ => none
  | key :: next :: path, entries => entries.alter key fun
    | none => (openTable (next :: path) []).map (.table .implied)
    | some v => v.enter (openTable (next :: path))

/-- Opens one more table of the name that a header has. -/
def openOneMore : Path → Entries → Option Entries
  | [], _ => none
  | [key], entries => entries.alter key fun
    | none => some (.tables [.table .header []])
    | some (.tables items) => some (.tables (items ++ [.table .header []]))
    | some _ => none
  | key :: next :: path, entries => entries.alter key fun
    | none => (openOneMore (next :: path) []).map (.table .implied)
    | some v => v.enter (openOneMore (next :: path))

end Entries

end EventRelay.Toml
