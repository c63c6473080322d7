import BootVolume.Text.Utf8

/-!
# Commands of a script

The language of the tools' scripts: words with their expansions, redirections, and commands from a
single call to loops and functions.

A script is bytes; here each byte is the character of the same number.
-/

namespace BootVolume.Script

def ofBytes (bytes : Bytes) : List Char := bytes.map fun b => .ofNat b.toNat

def toBytes (cs : List Char) : Bytes := cs.map fun c => .ofNat c.toNat

/-! ### Names of variables -/

def isNameStart (c : Char) : Bool := c.isAlpha || c = '_'

def isNameChar (c : Char) : Bool := c.isAlphanum || c = '_'

def isName (cs : List Char) : Bool := cs.head?.any isNameStart && cs.all isNameChar

/-- Builtin commands whose faults end the script; there are no functions of their names. -/
def specialCommands : List String :=
  [".", ":", "break", "continue", "eval", "exec", "exit", "export", "local", "readonly", "return",
    "set", "shift", "times", "trap", "unset"]

/-! ### Commands -/

/-- What an expansion makes of the value of its parameter. With `empty` an empty value counts as
none. -/
inductive Treatment where
  | value
  | length
  /-- The word stands in for a missing value. -/
  | orElse (empty : Bool)
  | orAssign (empty : Bool)
  | orFail (empty : Bool)
  | andThen (empty : Bool)
  /-- The value without what the pattern fits at its beginning, or at its end. -/
  | cutFront (longest : Bool)
  | cutBack (longest : Bool)
  /-- None that there is. -/
  | unknown
  deriving DecidableEq, Inhabited

inductive Arrow where
  | input
  | output
  | append
  | duplicate
  /-- A text that stands in the script itself. -/
  | inline
  deriving DecidableEq, Inhabited

mutual

/-- A part of a word. What is quoted is neither cut nor a pattern. -/
inductive Part where
  | text (chars : List Char) (quoted : Bool)
  | parameter (name : List Char) (treatment : Treatment) (word : List Part) (quoted : Bool)
  | output (command : Command) (quoted : Bool)
  | arithmetic (expression : List Part) (quoted : Bool)

/-- A stream of a command and what it is tied to. -/
inductive Redirection where
  | mk (source : Nat) (arrow : Arrow) (target : List Part)

inductive Command where
  | nothing
  | simple (line : Nat) (assignments : List (List Char × List Part)) (words : List (List Part))
    (redirections : List Redirection)
  | redirected (line : Nat) (command : Command) (redirections : List Redirection)
  | sequence (first second : Command)
  | both (first second : Command)
  | either (first second : Command)
  | negate (command : Command)
  | pipe (first second : Command)
  | background (command : Command)
  | subshell (command : Command)
  | branch (condition yes no : Command)
  /-- Runs the body as long as the condition has a status of zero, or another one. -/
  | loop (whileZero : Bool) (condition body : Command)
  /-- Without words it runs over the arguments. -/
  | forEach (name : List Char) (words : Option (List (List Part))) (body : Command)
  /-- Runs the first choice that has a pattern which the subject fits. -/
  | choose (subject : List Part) (choices : List (List (List Part) × Command))
  | function (name : List Char) (body : Command)

end

abbrev Word := List Part

instance : Inhabited Part := ⟨.text [] false⟩
instance : Inhabited Redirection := ⟨.mk 0 .input []⟩
instance : Inhabited Command := ⟨.nothing⟩

end BootVolume.Script
