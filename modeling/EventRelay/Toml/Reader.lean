/-!
# Readers

A reader takes something off the front of a text or refuses the text. Readers are put together in
the usual ways, and everything that is read again and again is read by `many`, which ends because
the text gets shorter.
-/

namespace EventRelay.Toml

abbrev Reader := StateT (List Char) Option

namespace Reader

variable {α β : Type}

def refuse : Reader α := fun _ => none

/-- Whether the rest of the text starts like this. -/
def startsWith (s : String) : Reader Bool := fun cs => some (s.toList.isPrefixOf cs, cs)

/-- Reads this text. -/
def exactly (s : String) : Reader Unit := fun cs =>
  if s.toList.isPrefixOf cs then some ((), cs.drop s.length) else none

/-- Reads one character of a class. -/
def one (p : Char → Bool) : Reader Char
  | [] => none
  | c :: cs => if p c then some (c, cs) else none

/-- Reads as many characters of a class as there are. -/
def span (p : Char → Bool) : Reader (List Char) := fun cs => some (cs.takeWhile p, cs.dropWhile p)

/-- Reads as many characters of a class as there are, and at least one. -/
def span1 (p : Char → Bool) : Reader (List Char) := fun cs =>
  if cs.takeWhile p = [] then none else some (cs.takeWhile p, cs.dropWhile p)

/-- Reads `n` characters of a class. -/
def times (p : Char → Bool) : Nat → Reader (List Char)
  | 0 => pure []
  | n + 1 => do
    let c ← one p
    let cs ← times p n
    pure (c :: cs)

/-- Reads with `r` for as long as it takes something off the text. -/
def many (r : Reader α) : Reader (List α) := fun cs =>
  match r cs with
  | none => some ([], cs)
  | some (a, rest) =>
    if rest.length < cs.length then
      match many r rest with
      | some (as, rest) => some (a :: as, rest)
      | none => some ([a], rest)
    else some ([], cs)
termination_by cs => cs.length

/-- Reads with `r` if it can. -/
def maybe (r : Reader α) : Reader (Option α) := fun cs =>
  match r cs with
  | some (a, rest) => some (some a, rest)
  | none => some (none, cs)

/-- Reads one or more with a separator between them. -/
def separated (separator : Reader β) (r : Reader α) : Reader (List α) := do
  let first ← r
  let more ← many (separator *> r)
  pure (first :: more)

/-- Reads up to the end of the text. -/
def all (r : Reader α) (text : String) : Option α :=
  match r text.toList with
  | some (a, []) => some a
  | _ => none

end Reader

end EventRelay.Toml
