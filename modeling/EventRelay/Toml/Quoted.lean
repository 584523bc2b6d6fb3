import EventRelay.Text.Hex
import EventRelay.Toml.Reader

/-!
# Quoted text

A text stands between double quotes, where a backslash starts an escape, or between single quotes,
where everything stands for itself. Between three quotes it may run over several lines. Then a line
break right after the opening quotes does not count, one or two quotes may stand alone, also in
front of the closing ones, and a backslash at the end of a line joins it to the next text.

Writing takes the first way, of a fixed list, in which the text needs no escape, and escapes it if
there is none.
-/

namespace EventRelay.Toml

open Reader

/-- Characters that may stand in a text or a comment as they are. -/
def isPlain (c : Char) : Bool := c == '\t' || (' ' ≤ c && c != '\x7f')

def isBlank (c : Char) : Bool := c == ' ' || c == '\t'

def newline : Reader Unit := exactly "\n" <|> exactly "\r\n"

def isHexDigit (c : Char) : Bool := (Hex.value? c).isSome

/-- The number that digits of a base stand for. -/
def natural (base : Nat) (ds : List Char) : Nat :=
  ds.foldl (fun n d => n * base + (Hex.value? d).getD 0) 0

/-! ## Reading -/

/-- Reads the number of a character in `n` hexadecimal digits. -/
def scalar (n : Nat) : Reader Char := do
  let ds ← times isHexDigit n
  let code := natural 16 ds
  if code.isValidChar then pure (Char.ofNat code) else refuse

/-- Reads what follows the backslash of an escape. -/
def escape : Reader (List Char) := do
  let c ← one fun _ => true
  match c with
  | 'b' => pure ['\x08']
  | 't' => pure ['\t']
  | 'n' => pure ['\n']
  | 'f' => pure ['\x0c']
  | 'r' => pure ['\r']
  | '"' => pure ['"']
  | '\\' => pure ['\\']
  | 'u' => do pure [← scalar 4]
  | 'U' => do pure [← scalar 8]
  | _ => refuse

/-- Reads characters that stand for themselves between double quotes. -/
def basicRun : Reader (List Char) := span1 fun c => isPlain c && c != '"' && c != '\\'

def basicText : Reader (List Char) := do
  exactly "\""
  let pieces ← many (basicRun <|> exactly "\\" *> escape)
  exactly "\""
  pure pieces.flatten

/-- Reads characters that stand for themselves between single quotes. -/
def literalRun : Reader (List Char) := span1 fun c => isPlain c && c != '\''

def literalText : Reader (List Char) := do
  exactly "'"
  let run ← maybe literalRun
  exactly "'"
  pure (run.getD [])

/-- Reads the rest of a line that a backslash has ended, and the blanks before the next text. -/
def lineJoin : Reader (List Char) := do
  let _ ← span isBlank
  newline
  let _ ← many (span1 isBlank *> pure () <|> newline)
  pure []

def lineBreak : Reader (List Char) := newline *> pure ['\n']

/-- Reads a run of at least `least` and at most `most` quotes, and nothing if there are more. -/
def quotes (quote : Char) (least most : Nat) : Reader (List Char) := do
  let run ← span (· == quote)
  if least ≤ run.length ∧ run.length ≤ most then pure run else refuse

/-- Reads a text between three quotes that is made of pieces. -/
def multiLine (quote : Char) (piece : Reader (List Char)) : Reader (List Char) := do
  exactly (String.ofList [quote, quote, quote])
  let _ ← maybe newline
  let pieces ← many (piece <|> lineBreak <|> quotes quote 1 2)
  let closing ← quotes quote 3 5
  pure (pieces.flatten ++ closing.drop 3)

def longBasicText : Reader (List Char) :=
  multiLine '"' (basicRun <|> exactly "\\" *> (lineJoin <|> escape))

def longLiteralText : Reader (List Char) := multiLine '\'' literalRun

/-- Reads a quoted text on one line. -/
def lineText : Reader String := do
  let cs ← basicText <|> literalText
  pure (String.ofList cs)

/-- Reads a quoted text. -/
def quotedText : Reader String := do
  let cs ← longBasicText <|> basicText <|> longLiteralText <|> literalText
  pure (String.ofList cs)

/-! ## Writing -/

/-- The longest run of a character in a text, when `run` of them have just been seen. -/
def longestRun (c : Char) (run : Nat) : List Char → Nat
  | [] => run
  | d :: ds => if d = c then longestRun c (run + 1) ds else max run (longestRun c 0 ds)

/-- Control characters other than tabs and line breaks. -/
def isControl (c : Char) : Bool := (c < ' ' && c != '\t' && c != '\n') || c == '\x7f'

def hexText (n : Nat) : List Char :=
  let ds := (Nat.toDigits 16 n).map Char.toUpper
  List.replicate (4 - ds.length) '0' ++ ds

def escaped (c : Char) : List Char :=
  match c with
  | '\x08' => ['\\', 'b']
  | '\t' => ['\\', 't']
  | '\n' => ['\\', 'n']
  | '\x0c' => ['\\', 'f']
  | '\r' => ['\\', 'r']
  | '"' => ['\\', '"']
  | '\\' => ['\\', '\\']
  | c => if isControl c then '\\' :: 'u' :: hexText c.toNat else [c]

/-- Escapes a text. Line breaks stay if `long` allows them, and so do two quotes in a row. -/
def escapeAll (long : Bool) (run : Nat) : List Char → List Char
  | [] => []
  | '"' :: cs =>
    if long && run < 2 then '"' :: escapeAll long (run + 1) cs
    else escaped '"' ++ escapeAll long 0 cs
  | '\n' :: cs =>
    if long then '\n' :: escapeAll long 0 cs else escaped '\n' ++ escapeAll long 0 cs
  | c :: cs => escaped c ++ escapeAll long 0 cs

/-- A text between quotes, in the first way that fits it. -/
def quote (text : String) : String :=
  let cs := text.toList
  let controls := cs.any isControl
  let breaks := cs.contains '\n'
  let backslashes := cs.contains '\\'
  let doubles := longestRun '"' 0 cs
  let singles := longestRun '\'' 0 cs
  let start := if breaks then "\n" else ""
  if !controls && !backslashes && doubles = 0 && !breaks then
    "\"" ++ String.ofList (escapeAll false 0 cs) ++ "\""
  else if !controls && singles = 0 && !breaks then "'" ++ text ++ "'"
  else if !controls && !backslashes && doubles ≤ 2 then
    "\"\"\"" ++ start ++ String.ofList (escapeAll true 0 cs) ++ "\"\"\""
  else if !controls && singles ≤ 2 then "'''" ++ start ++ text ++ "'''"
  else if breaks then "\"\"\"" ++ start ++ String.ofList (escapeAll true 0 cs) ++ "\"\"\""
  else "\"" ++ String.ofList (escapeAll false 0 cs) ++ "\""

end EventRelay.Toml
