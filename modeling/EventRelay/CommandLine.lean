import EventRelay.Decimal.Reading

/-!
# Command lines

A command line is a list of words: options by name or by letter, with a value or without one,
positional values, and at most one command, which takes the words behind it. A grammar says what
is allowed, and a line outside of it is refused as a whole. Behind two dashes all words are
positional.

A word that starts with a dash is an option and never the value of one, unless the option takes
negative numbers and the word looks like one.
-/

namespace EventRelay.CommandLine

/-- Whether a text will do as a value. -/
abbrev Check := String → Bool

structure Rule where
  name : String
  letter : Option Char := none
  /-- What the option takes as its value, if it takes one. -/
  value : Option Check := none
  negative : Bool := false

structure Grammar where
  rules : List Rule := []
  positionals : List Check := []
  /-- How many of the positional values must be there. -/
  required : Nat := 0
  commands : List String := []
  /-- The options that must be there. -/
  mandatory : List String := []
  /-- The version can be asked for. -/
  versioned : Bool := false

/-- What is read of a line: options with their values, positional values, and the command with the
words behind it. -/
structure Parsed where
  options : List (String × String) := []
  positionals : List String := []
  command : Option (String × List String) := none
  deriving DecidableEq, Inhabited

/-- Why a line does not lead to a command: it is outside of the grammar, or asks for a text. -/
inductive Refusal where
  | usage | help | version
  deriving DecidableEq, Inhabited

/-- Digits, with one point and one exponent at most, and none of them in front. -/
def isNumber (point exponent first : Bool) : List Char → Bool
  | [] => true
  | c :: cs =>
    if Decimal.isDigit c then isNumber point exponent false cs
    else if c = '.' then !point && !exponent && !first && isNumber true exponent false cs
    else if c = 'e' ∨ c = 'E' then !exponent && !first && cs ≠ [] && isNumber point true false cs
    else false

/-- Whether a word looks like a negative number. -/
def isNegativeNumber (word : String) : Bool :=
  match word.toList with
  | '-' :: cs => isNumber false false true cs
  | _ => false

/-- Whether a word is taken for an option. -/
def isOption (word : String) : Bool := word.startsWith "-" && word != "-"

namespace Parsed

def has (p : Parsed) (name : String) : Bool := p.options.any (·.1 == name)

def option? (p : Parsed) (name : String) : Option String := p.options.lookup name

/-- Adds an option. None may come twice. -/
def add (p : Parsed) (rule : Rule) (value : String) : Except Refusal Parsed :=
  if p.has rule.name || !((rule.value.map (· value)).getD true) then .error .usage
  else .ok { p with options := (rule.name, value) :: p.options }

end Parsed

namespace Grammar

variable (g : Grammar)

def byName? (name : String) : Option Rule := g.rules.find? (·.name == name)

def byLetter? (letter : Char) : Option Rule := g.rules.find? (·.letter == some letter)

/-- Takes a positional value. -/
def place (p : Parsed) (word : String) : Except Refusal Parsed :=
  match g.positionals[p.positionals.length]? with
  | none => .error .usage
  | some check =>
    if check word then .ok { p with positionals := p.positionals ++ [word] } else .error .usage

/-- Takes an option by name, and its value if it stands behind a sign of equality. The rule comes
back if its value is still to come. -/
def long (p : Parsed) (word : String) : Except Refusal (Parsed × Option Rule) :=
  let name := String.ofList ((word.toList.drop 2).takeWhile (· != '='))
  let behind := (word.toList.drop 2).dropWhile (· != '=')
  match g.byName? name with
  | none =>
    if name = "help" ∧ behind = [] then .error .help
    else if name = "version" ∧ behind = [] ∧ g.versioned then .error .version
    else .error .usage
  | some rule =>
    match rule.value, behind with
    | none, [] => (p.add rule "").map (·, none)
    | none, _ => .error .usage
    | some _, [] => .ok (p, some rule)
    | some _, _ :: value => (p.add rule (String.ofList value)).map (·, none)

/-- Takes options by letter, as many as stand together. What is left behind the letter of an option
with a value is its value. -/
def short (p : Parsed) : List Char → Except Refusal (Parsed × Option Rule)
  | [] => .ok (p, none)
  | letter :: rest =>
    match g.byLetter? letter with
    | none =>
      if letter = 'h' then .error .help
      else if letter = 'V' ∧ g.versioned then .error .version
      else .error .usage
    | some rule =>
      match rule.value, rest with
      | none, rest => do short (← p.add rule "") rest
      | some _, [] => .ok (p, some rule)
      | some _, '=' :: value => (p.add rule (String.ofList value)).map (·, none)
      | some _, value => (p.add rule (String.ofList value)).map (·, none)

/-- Help on all commands or on one of them. No command has commands of its own. -/
def helpOn : List String → Refusal
  | [] => .help
  | [word] => if word = "help" ∨ word ∈ g.commands then .help else .usage
  | _ => .usage

/-- Whether a line has all that it must have. -/
def finish (p : Parsed) : Except Refusal Parsed :=
  if p.positionals.length < g.required || g.mandatory.any (!p.has ·) then .error .usage else .ok p

/-- Reads words; `pending` is an option whose value comes next. -/
def read (p : Parsed) (pending : Option Rule) : List String → Except Refusal Parsed
  | [] => if pending.isSome then .error .usage else g.finish p
  | word :: words =>
    match pending with
    | some rule =>
      if isOption word && !(rule.negative && isNegativeNumber word) then .error .usage
      else do read (← p.add rule word) none words
    | none =>
      if word = "--" then do g.finish (← words.foldlM g.place p)
      else if word.startsWith "--" then do
        let (p, pending) ← g.long p word
        read p pending words
      else if isOption word then do
        let (p, pending) ← g.short p (word.toList.drop 1)
        read p pending words
      else if word ∈ g.commands then g.finish { p with command := some (word, words) }
      else if word = "help" ∧ g.commands ≠ [] then .error (g.helpOn words)
      else do read (← g.place p word) none words

/-- Reads a line. -/
def parse (words : List String) : Except Refusal Parsed := g.read {} none words

end Grammar

/-! ## Checks -/

def anyText : Check := fun _ => true

/-- A path is not empty. -/
def isPath : Check := fun word => word != ""

def isWhole (signed : Bool) (most : Nat) : Check := fun word =>
  (Decimal.bounded? signed most word).isSome

/-- A number of 8, 16 or 32 bits. -/
def isSmall (bits : Nat) : Check := isWhole true (Nat.pow 2 bits - 1)

/-- A number of 64 bits. -/
def isWide : Check := isWhole false (UInt64.size - 1)

def isReal : Check := fun word => (Decimal.written? word).isSome

end EventRelay.CommandLine
