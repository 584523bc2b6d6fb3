import EventRelay.Toml.Number
import EventRelay.Toml.Tree

/-!
# Configuration texts

A configuration text is a list of lines. A line opens a table, opens one more table of a name, or
assigns a value to a key, and may end in a comment. Values are read with a bound on how deep they
nest. The statements of the lines make the tree of tables. A text that is no list of statements, or
one whose statements contradict each other, is refused as a whole.
-/

namespace EventRelay.Toml

open Reader

inductive Statement where
  | table (path : Path)
  | oneMore (path : Path)
  | assign (path : Path) (value : Value)
  deriving Inhabited

/-- Paths and nested values may be this long and this deep. -/
def nestingLimit : Nat := 79

def blanks : Reader Unit := do
  let _ ← span isBlank
  pure ()

/-- Reads something with blanks around it. -/
def spaced {α : Type} (r : Reader α) : Reader α := blanks *> r <* blanks

def isKeyChar (c : Char) : Bool :=
  isDigit c || ('a' ≤ c && c ≤ 'z') || ('A' ≤ c && c ≤ 'Z') || c == '_' || c == '-'

def key : Reader String := lineText <|> (String.ofList <$> span1 isKeyChar)

def path : Reader Path := do
  let keys ← separated (exactly ".") (spaced key)
  if keys.length ≤ nestingLimit then pure keys else refuse

def comment : Reader Unit := do
  exactly "#"
  let _ ← span isPlain
  pure ()

/-- Reads blanks, line breaks and comments. -/
def gaps : Reader Unit := do
  let _ ← many (span1 isBlank *> pure () <|> newline <|> comment)
  pure ()

def boolean : Reader Value :=
  (exactly "true" *> pure (.boolean true)) <|> (exactly "false" *> pure (.boolean false))

/-- Reads the entries of a table written on one line. -/
def pairs (value : Reader Value) : Reader (List (Path × Value)) := do
  let entries ← maybe (separated (exactly ",") do
    let path ← path
    exactly "="
    let v ← spaced value
    pure (path, v))
  blanks
  pure (entries.getD [])

/-- Reads the items of an array, with a comma behind the last or without. -/
def items (value : Reader Value) : Reader (List Value) := do
  let values ← maybe (separated (exactly ",") (gaps *> value <* gaps) <* maybe (exactly ","))
  gaps
  pure (values.getD [])

/-- Reads a value that nests at most this deep. -/
def value : Nat → Reader Value
  | 0 => .text <$> quotedText <|> boolean <|> number
  | depth + 1 =>
    .text <$> quotedText <|> boolean <|> number
    <|> (.array <$> (exactly "[" *> items (value depth) <* exactly "]"))
    <|> do
      exactly "\x7b"
      let pairs ← pairs (value depth)
      exactly "\x7d"
      match pairs.foldlM (fun entries (path, v) => Entries.assign v path entries) [] with
      | some entries => pure (.table .inline entries)
      | none => refuse

def statement : Reader Statement := do
  if ← startsWith "[[" then
    .oneMore <$> (exactly "[[" *> path <* exactly "]]")
  else if ← startsWith "[" then
    .table <$> (exactly "[" *> path <* exactly "]")
  else do
    let path ← path
    exactly "="
    let v ← spaced (value nestingLimit)
    pure (.assign path v)

/-- Reads a line up to its end. -/
def line : Reader (Option Statement) := spaced (maybe statement) <* maybe comment

/-- Reads a whole text. A mark of the byte order in front does not count. -/
def statements : Reader (List Statement) := do
  let _ ← maybe (exactly "\ufeff")
  let lines ← many (line <* newline)
  let last ← line
  pure ((lines ++ [last]).filterMap id)

/-! ## The tree of a text -/

/-- The tables made so far, and the path of the table that is open. -/
structure Draft where
  entries : Entries
  current : Path
  deriving Inhabited

def Draft.follow (d : Draft) : Statement → Option Draft
  | .table path => (d.entries.openTable path).map fun entries => ⟨entries, path⟩
  | .oneMore path => (d.entries.openOneMore path).map fun entries => ⟨entries, path⟩
  | .assign path value =>
    (Entries.within (Entries.assign value path) d.current d.entries).map fun entries =>
      { d with entries }

/-- The tree of tables that a text describes. -/
def parse? (text : String) : Option Entries := do
  let draft ← (← Reader.all statements text).foldlM Draft.follow ⟨[], []⟩
  some draft.entries

end EventRelay.Toml
