/-!
# Failures of a command

A command that fails tells why, and what was behind it: each cause on a line of its own, with
numbers if there are several. A cause of many lines is indented as a whole.
-/

namespace EventRelay

structure Failure where
  message : String
  /-- Each the cause of the one before it. -/
  causes : List String := []
  deriving DecidableEq, Inhabited

namespace Failure

/-- Puts a failure behind another one that it has caused. -/
def behind (f : Failure) (message : String) : Failure := ⟨message, f.message :: f.causes⟩

/-- Indents all lines of a text but the first. -/
def hang (indent text : String) : String := text.replace "\n" ("\n" ++ indent)

def numbered (number : Nat) : List String → String
  | [] => ""
  | cause :: causes =>
    "    " ++ toString number ++ ": " ++ hang "       " cause ++ "\n" ++
      numbered (number + 1) causes

def causesText : List String → String
  | [] => ""
  | [cause] => "\nCaused by:\n    " ++ hang "    " cause ++ "\n"
  | causes => "\nCaused by:\n" ++ numbered 0 causes

def text (f : Failure) : String := "Error: " ++ f.message ++ "\n" ++ causesText f.causes

end Failure

end EventRelay
