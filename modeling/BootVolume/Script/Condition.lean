import BootVolume.Script.Arithmetic
import BootVolume.Script.State

/-!
# Conditions

What `test` decides, by its arguments. The shortest lists of arguments have a meaning by their
number; others are read by the precedence of their operators.
-/

namespace BootVolume.Script.Condition

def binaries : List String :=
  ["=", "!=", "<", ">", "-eq", "-ne", "-gt", "-lt", "-ge", "-le", "-nt", "-ot", "-ef"]

def unaries : List String :=
  ["-r", "-w", "-x", "-e", "-f", "-d", "-c", "-b", "-p", "-u", "-g", "-k", "-s", "-t", "-z", "-n",
    "-h", "-L", "-O", "-G", "-S"]

def isBinary (word : List Char) : Bool := binaries.contains (String.ofList word)

def isUnary (word : List Char) : Bool := unaries.contains (String.ofList word)

/-- A decision, or why there is none. -/
abbrev Decision := Except (List Char)

/-- The number that an operand is, in decimal. -/
def number (word : List Char) : Decision Int := do
  let illegal : Decision Int := .error ("Illegal number: ".toList ++ word)
  let cs := word.dropWhile Arithmetic.isBlank
  let negative := cs.head? = some '-'
  let cs := if negative || cs.head? = some '+' then cs.drop 1 else cs
  let ds := cs.takeWhile Char.isDigit
  match (String.ofList ds).toNat? with
  | none => illegal
  | some size =>
    let n : Int := if negative then -size else size
    if Arithmetic.clamp n = n && (cs.drop ds.length).all Arithmetic.isBlank then return n
    else illegal

def before : List Char → List Char → Bool
  | _, [] => false
  | [], _ :: _ => true
  | a :: as, b :: bs => a < b || a = b && before as bs

def relate (s : State) (left : List Char) (operator : String) (right : List Char) :
    Decision Bool := do
  let numbers (holds : Int → Int → Bool) : Decision Bool := do
    return holds (← number left) (← number right)
  match operator with
  | "=" => return left = right
  | "!=" => return left ≠ right
  | "<" => return before left right
  | ">" => return before right left
  | "-eq" => numbers (· = ·)
  | "-ne" => numbers (· ≠ ·)
  | "-lt" => numbers (· < ·)
  | "-le" => numbers (· ≤ ·)
  | "-gt" => numbers (· > ·)
  | "-ge" => numbers (· ≥ ·)
  | "-ef" =>
    match s.tree.find s.dir ⟨toBytes left⟩, s.tree.find s.dir ⟨toBytes right⟩ with
    | .ok (a, _), .ok (b, _) => return a = b
    | _, _ => return false
  | _ => return false

/-- What an operator in front of an operand decides. All files belong to the user. -/
def check (s : State) (operator : String) (operand : List Char) : Decision Bool := do
  let path : Path := ⟨toBytes operand⟩
  match operator with
  | "-n" => return !operand.isEmpty
  | "-z" => return operand.isEmpty
  | "-t" => return (← number operand) < 0
  | "-f" => return s.tree.isFile s.dir path
  | "-d" => return s.tree.isDir s.dir path
  | "-x" => return s.tree.isExecutable s.dir path || s.tree.isDir s.dir path
  | "-s" =>
    match s.tree.find s.dir path with
    | .ok (_, .file content _) => return !content.isEmpty
    | .ok _ => return true
    | .error _ => return false
  | "-h" => return isLink path
  | "-L" => return isLink path
  | _ => return ["-e", "-r", "-w", "-O", "-G"].contains operator && s.tree.exists? s.dir path
where
  isLink (path : Path) : Bool :=
    match s.tree.locate s.dir false path with
    | .ok place =>
      match s.tree.get? place with
      | some (.link _) => true
      | _ => false
    | .error _ => false

/-- Whether a word stands for itself, given what follows it, though it may be an operator. -/
def isOperand : List (List Char) → Bool
  | [] => true
  | [_] => false
  | next :: _ => isBinary next

abbrev Deciding := Decision (Bool × List (List Char))

mutual

def either (s : State) : Nat → List (List Char) → Deciding
  | 0, _ => .error []
  | steps + 1, words => do
    let (first, rest) ← both s steps words
    match rest with
    | ['-', 'o'] :: rest => do
      let (second, rest) ← either s steps rest
      return (first || second, rest)
    | _ => return (first, rest)

def both (s : State) : Nat → List (List Char) → Deciding
  | 0, _ => .error []
  | steps + 1, words => do
    let (first, rest) ← negated s steps words
    match rest with
    | ['-', 'a'] :: rest => do
      let (second, rest) ← both s steps rest
      return (first && second, rest)
    | _ => return (first, rest)

def negated (s : State) : Nat → List (List Char) → Deciding
  | 0, _ => .error []
  | steps + 1, words =>
    match words with
    | ['!'] :: rest => do
      let (inner, rest) ← negated s steps rest
      return (!inner, rest)
    | _ => single s steps words

def single (s : State) : Nat → List (List Char) → Deciding
  | 0, _ => .error []
  | _ + 1, [] => .ok (false, [])
  | steps + 1, word :: rest => do
    if word = ['('] && !rest.isEmpty then
      if rest.head? = some [')'] then return (false, rest.tail)
      let (inner, rest) ← either s steps rest
      if rest.head? = some [')'] then return (inner, rest.tail)
      throw "closing paren expected".toList
    match rest with
    | [] => return (!word.isEmpty, [])
    | next :: after =>
      if isUnary word && !isOperand rest then return (← check s (String.ofList word) next, after)
      if isBinary next then
        match after with
        | [] => throw (about next "argument expected")
        | right :: after => return (← relate s word (String.ofList next) right, after)
      return (!word.isEmpty, rest)

end

def decideAll (s : State) (words : List (List Char)) : Decision Bool := do
  let (result, rest) ← either s (4 * words.length + 4) words
  if rest.isEmpty then return result
  let last := (words.drop (words.length - rest.length - 1)).headD []
  throw (about last "unexpected operator")

/-- What words decide, where three or four may have a meaning of their own. -/
def holds (s : State) : (words : List (List Char)) → Decision Bool
  | [] => .ok false
  | ['!'] :: rest =>
    if rest.length = 2 && !rest.head?.any isBinary || rest.length = 3 then
      (holds s rest).map (!·)
    else decideNow (['!'] :: rest)
  | words => decideNow words
where
  decideNow (words : List (List Char)) : Decision Bool :=
    match words with
    | [left, operator, right] =>
      if isBinary operator then relate s left (String.ofList operator) right
      else if left = ['('] && right = [')'] then decideAll s [operator]
      else decideAll s words
    | [first, a, b, last] =>
      if first = ['('] && last = [')'] then decideAll s [a, b] else decideAll s words
    | _ => decideAll s words

end BootVolume.Script.Condition
