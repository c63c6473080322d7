import BootVolume.Script.Arithmetic
import BootVolume.Script.Pattern
import BootVolume.Script.State

/-!
# Fields

What a word stands for when a script runs. First its parts are expanded to pieces, which remember
what was quoted; then these are cut into fields, so that a word can become several fields or none;
and a field that is a pattern becomes the paths that fit it.
-/

namespace BootVolume.Script

/-- A piece of an expanded word. -/
inductive Piece where
  /-- A character; `cut` tells whether a separator ends the field. -/
  | char (c : Char) (quoted cut : Bool)
  /-- There is a field here, even if nothing else is. -/
  | there
  /-- The field ends here. -/
  | border
  deriving DecidableEq, Inhabited

namespace Piece

/-- The pieces of an expansion: it is either quoted or cut. -/
def ofText (chars : List Char) (quoted : Bool) : List Piece :=
  if quoted then there :: chars.map (char · true false) else chars.map (char · false true)

/-- The one field of some pieces where nothing is cut. -/
def whole (pieces : List Piece) : Field :=
  pieces.filterMap fun
    | char c quoted _ => some (c, quoted)
    | there => none
    | border => some (' ', true)

end Piece

/-! ### Cutting -/

/-- The fields so far: the finished ones, and the one that goes on, if any. -/
structure Cut where
  finished : List Field := []
  current : Option Field := none
  /-- Whether blanks ended the last field; the separator behind them belongs to them. -/
  blank : Bool := false

namespace Cut

def stop (cut : Cut) (blank : Bool) : Cut :=
  match cut.current with
  | some field => { finished := cut.finished ++ [field], blank }
  | none => { cut with blank := cut.blank && blank }

def isBlank (c : Char) : Bool := c = ' ' || c = '\t' || c = '\n'

def piece (separators : List Char) (cut : Cut) : Piece → Cut
  | .there => { cut with current := some (cut.current.getD []), blank := false }
  | .border => cut.stop false
  | .char c quoted mayCut =>
    if mayCut && separators.contains c then
      if isBlank c then
        if cut.current.isSome then cut.stop true else cut
      else if cut.current.isSome then cut.stop false
      else if cut.blank then { cut with blank := false }
      else { cut with finished := cut.finished ++ [[]] }
    else { cut with current := some (cut.current.getD [] ++ [(c, quoted)]), blank := false }

def fields (separators : List Char) (pieces : List Piece) : List Field :=
  ((pieces.foldl (piece separators) {}).stop false).finished

end Cut

/-! ### Parameters -/

namespace State

/-- What a parameter stands for, with every text changed; the arguments are several texts unless
they are quoted as one. -/
def shownBy (s : State) (name : List Char) (quoted : Bool) (change : List Char → List Char) :
    List Piece :=
  let arguments := s.arguments.map change
  let each := [Piece.border].intercalate (arguments.map (Piece.ofText · quoted))
  match name with
  | ['@'] => each
  | ['*'] =>
    if quoted then Piece.ofText ((s.separators.take 1).intercalate arguments) true else each
  | _ => Piece.ofText (change ((s.value? name).getD [])) quoted

def shown (s : State) (name : List Char) (quoted : Bool) : List Piece := s.shownBy name quoted id

/-- Whether a parameter has a value; an empty one may count as none. -/
def given (s : State) (name : List Char) (empty : Bool) : Bool :=
  match s.value? name with
  | some value => !(empty && value.isEmpty)
  | none => false

end State

def need (name : List Char) : Shell Unit := do
  let s ← get
  if s.has 'u' && (s.value? name).isNone then
    fail (about name "parameter not set")

def missing (name complaint : List Char) (empty : Bool) : List Char :=
  if complaint.isEmpty then about name ("parameter not set" ++ if empty then " or null" else "")
  else name ++ ": ".toList ++ complaint

def compute (expression : List Char) : Shell (List Char) := do
  let s ← get
  match Arithmetic.read expression >>= (Arithmetic.evaluate s.value? · []) with
  | .error fault => fail (fault.message expression)
  | .ok (n, changes) =>
    changes.reverse.forM fun (name, value) => assign name value
    return (toString n).toList

/-- The output of a command as it stands in a word: without the line ends behind it. -/
def trimmed (output : List Char) : List Char :=
  ((output.filter (· ≠ '\x00')).reverse.dropWhile (· = '\n')).reverse

/-! ### Words -/

abbrev Substitute := Command → Shell (List Char)

mutual

/-- The pieces of a part; `inner` tells whether it belongs to an expansion. -/
def Part.expand (substitute : Substitute) (inner : Bool) : Part → Shell (List Piece)
  | .text chars quoted =>
    pure (if quoted then Piece.ofText chars true else chars.map (.char · false inner))
  | .output command quoted => do
    return Piece.ofText (trimmed (← substitute command)) quoted
  | .arithmetic expression quoted => do
    let pieces ← expandAll substitute false expression
    return Piece.ofText (← compute (Piece.whole pieces).text) quoted
  | .parameter name treatment word quoted => do
    let s ← get
    let instead : Shell (List Piece) := do
      let pieces ← expandAll substitute true word
      return if quoted then .there :: pieces else pieces
    match treatment with
    | .unknown => fail "Bad substitution".toList
    | .value =>
      need name
      return s.shown name quoted
    | .length =>
      need name
      return Piece.ofText (numeral ((s.value? name).getD []).length) quoted
    | .orElse empty => if s.given name empty then return s.shown name quoted else instead
    | .andThen empty =>
      if s.given name empty then instead else return if quoted then [.there] else []
    | .orAssign empty =>
      if s.given name empty then return s.shown name quoted
      let value := (Piece.whole (← instead)).text
      unless isName name do fail (about name "bad variable name")
      assign name value
      return Piece.ofText value quoted
    | .orFail empty =>
      if s.given name empty then return s.shown name quoted
      fail (missing name (Piece.whole (← instead)).text empty)
    | .cutFront longest =>
      need name
      let pattern := Piece.whole (← instead)
      return s.shownBy name quoted (Pattern.cutFront pattern longest)
    | .cutBack longest =>
      need name
      let pattern := Piece.whole (← instead)
      return s.shownBy name quoted (Pattern.cutBack pattern longest)

def expandAll (substitute : Substitute) (inner : Bool) : List Part → Shell (List Piece)
  | [] => pure []
  | part :: rest => do
    let first ← part.expand substitute inner
    return first ++ (← expandAll substitute inner rest)

end

/-- The directory that a tilde with a user behind it stands for. -/
def State.homeOf (s : State) (user : List Char) : Option (List Char) :=
  if user.isEmpty then s.value? "HOME".toList
  else if user = "root".toList then some "/root".toList
  else none

/-- Whether a part is the character of a user's name. -/
def Part.isUser (assigned : Bool) : Part → Bool
  | .text [c] false => !(c = '/' || assigned && c = ':')
  | _ => false

/-- A word with the tilde resolved that it begins with. -/
def State.untilde (s : State) (assigned : Bool) (word : Word) : Word :=
  match word with
  | .text ['~'] false :: rest =>
    let user := rest.takeWhile (Part.isUser assigned)
    let after := rest.drop user.length
    let ended :=
      match after with
      | [] => true
      | .text [_] false :: _ => true
      | _ => false
    match if ended then s.homeOf (plainText user) else none with
    | some home => .text home true :: after
    | none => word
  | _ => word
where
  plainText (parts : List Part) : List Char :=
    parts.flatMap fun part =>
      match part with
      | .text chars _ => chars
      | _ => []

/-- A value to be assigned, with its tildes resolved: at the beginning and behind colons. -/
def State.untildeAll (s : State) : Word → Word
  | [] => []
  | .text [':'] false :: rest => .text [':'] false :: s.untilde true (s.untildeAll rest)
  | part :: rest => part :: s.untildeAll rest

def wholeField (substitute : Substitute) (word : Word) : Shell Field := do
  let word := (← get).untilde false word
  return Piece.whole (← expandAll substitute false word)

def assignedText (substitute : Substitute) (word : Word) : Shell (List Char) := do
  let s ← get
  return (Piece.whole (← expandAll substitute false (s.untilde true (s.untildeAll word)))).text

def State.resolved (s : State) (field : Field) : List (List Char) :=
  if s.has 'f' || !Pattern.isPattern field then [field.text]
  else
    match Pattern.paths s.tree s.dir field with
    | [] => [field.text]
    | paths => paths

def expandWords (substitute : Substitute) : List Word → Shell (List (List Char))
  | [] => pure []
  | word :: rest => do
    let pieces ← expandAll substitute false ((← get).untilde false word)
    let s ← get
    let first := (Cut.fields s.separators pieces).flatMap s.resolved
    return first ++ (← expandWords substitute rest)

end BootVolume.Script
