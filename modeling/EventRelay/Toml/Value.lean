/-!
# Values of a configuration text

A configuration text assigns values to keys, and tables hold the keys. Which assignments may follow
each other depends on how a table came about: by a header of its own, by the header of a table
inside of it, by a dotted key, or as a value written on one line.

Numbers with a fraction and dates are values like all others. Nothing here computes with them, so
only their kind is kept.
-/

namespace EventRelay.Toml

/-- How a table came about. -/
inductive Origin where
  | header | implied | dotted | inline
  deriving DecidableEq, Inhabited

inductive Value where
  | text (s : String)
  | integer (n : Int64)
  | boolean (b : Bool)
  | fraction
  | date
  | array (items : List Value)
  | table (origin : Origin) (entries : List (String × Value))
  /-- Tables of one name, each with a header of its own. -/
  | tables (items : List Value)
  deriving Inhabited

/-- The keys of a table with their values, each key once. -/
abbrev Entries := List (String × Value)

namespace Entries

/-- Gives a key the value that `f` makes of the value it has. -/
def alter (key : String) (f : Option Value → Option Value) : Entries → Option Entries
  | [] => (f none).map fun v => [(key, v)]
  | (k, v) :: rest =>
    if k = key then (f (some v)).map fun w => (k, w) :: rest
    else (alter key f rest).map fun rest => (k, v) :: rest

end Entries

end EventRelay.Toml
