import BootVolume.Script.Command
import BootVolume.Text.Pieces

/-!
# Reading scripts

A script is read command by command, since each is run before the next one is read. The numbers that
the readers take bound their depth; four times the length of the script and some more is enough.
-/

namespace BootVolume.Script

/-- What is left to read, and the line that it begins on. -/
structure Source where
  rest : List Char
  line : Nat := 1
  /-- How many lines behind this one are taken out already. -/
  below : Nat := 0
  deriving Inhabited

/-- Why a script cannot be read, and where. -/
structure Unreadable where
  line : Nat
  reason : String
  deriving Inhabited

abbrev Reader := StateT Source (Except Unreadable)

/-! ### Characters -/

def isSpecial (c : Char) : Bool := "@*#?$!-".toList.contains c

/-- The characters that end a word. -/
def endsWord (c : Char) : Bool := " \t\n;&|<>()".toList.contains c

/-- The characters that make a word more than its text. -/
def isActive (c : Char) : Bool := "\\'\"$\x60".toList.contains c

namespace Reader

def fail {α : Type} (reason : String) : Reader α := fun s => .error { line := s.line, reason }

def ahead : Reader (List Char) := return (← get).rest

def take : Reader (Option Char) :=
  modifyGet fun s =>
    match s.rest with
    | [] => (none, s)
    | '\n' :: rest => (some '\n', { rest, line := s.line + 1 + s.below, below := 0 })
    | c :: rest => (some c, { s with rest })

/-- Leaves out some characters, none of which ends a line. -/
def drop (count : Nat) : Reader Unit := modify fun s => { s with rest := s.rest.drop count }

def accept (text : String) : Reader Bool := do
  if text.toList.isPrefixOf (← ahead) then
    drop text.length
    return true
  return false

/-- Takes the characters that satisfy a condition; the end of a line does not. -/
def takeWhile (p : Char → Bool) : Reader (List Char) := do
  let cs := (← ahead).takeWhile p
  drop cs.length
  return cs

def skipBlanks : Nat → Reader Unit
  | 0 => pure ()
  | steps + 1 => do
    match ← ahead with
    | ' ' :: _ => drop 1; skipBlanks steps
    | '\t' :: _ => drop 1; skipBlanks steps
    | '\\' :: '\n' :: _ => drop 1; let _ ← take; skipBlanks steps
    | '#' :: _ => let _ ← takeWhile (· ≠ '\n')
    | _ => pure ()

def skipLines : Nat → Reader Unit
  | 0 => pure ()
  | steps + 1 => do
    skipBlanks (steps + 1)
    if (← ahead).head? = some '\n' then
      let _ ← take
      skipLines steps

/-- The text of the next word, if it is written without quotes and expansions. -/
def plainAhead : Reader (Option (List Char)) := do
  let cs ← ahead
  let word := cs.takeWhile fun c => !(endsWord c || isActive c)
  return if word.isEmpty || (cs.drop word.length).head?.any isActive then none else some word

def keywords : List String :=
  ["!", "\x7b", "\x7d", "case", "do", "done", "elif", "else", "esac", "fi", "for", "if", "then",
    "until", "while"]

def keywordAhead : Reader (Option String) := do
  return (← plainAhead).bind fun word =>
    let word := String.ofList word
    if keywords.contains word then some word else none

def operators : List String :=
  [";;", "&&", "||", ";", "&", "|", "(", ")"]

def isArrow (c : Char) : Bool := c = '<' || c = '>'

/-- Whether a redirection comes next; it may begin with one digit. -/
def atRedirection : Reader Bool := do
  match ← ahead with
  | [] => return false
  | c :: rest => return isArrow c || c.isDigit && rest.head?.any isArrow

/-- How what comes next is told, where a keyword may be a mere word. -/
def describeAhead (mayBeKeyword : Bool) : Reader String := do
  let cs ← ahead
  match (← keywordAhead).filter fun _ => mayBeKeyword with
  | some word => return "\"" ++ word ++ "\""
  | none =>
    match cs with
    | [] => return "end of file"
    | '\n' :: _ => return "newline"
    | _ =>
      match operators.find? fun sign => sign.toList.isPrefixOf cs with
      | some sign => return "\"" ++ sign ++ "\""
      | none => return if ← atRedirection then "redirection" else "word"

/-- What comes next cannot stand there. -/
def unexpected {α : Type} (expecting : Option String) (mayBeKeyword : Bool := true) :
    Reader α := do
  let described ← describeAhead mayBeKeyword
  fail ("Syntax error: " ++ described ++ " unexpected" ++
    expecting.elim "" fun token => " (expecting " ++ describeToken token ++ ")")
where
  describeToken (token : String) : String :=
    if token = "word" then token else "\"" ++ token ++ "\""

def expectKeyword (word : String) : Reader Unit := do
  if (← keywordAhead) = some word then drop word.length else unexpected (some word)

def expectSign (sign : String) : Reader Unit := do
  unless ← accept sign do unexpected (some sign)

/-- The words that end a sequence of commands. -/
def closing : List String := ["do", "done", "elif", "else", "esac", "fi", "then", "\x7d"]

def atClosing : Reader Bool := do
  match ← ahead with
  | [] => return true
  | ')' :: _ => return true
  | ';' :: ';' :: _ => return true
  | _ => return (← keywordAhead).any closing.contains

end Reader

open Reader

/-- Where the parts of a word end. -/
inductive Ending where
  | word
  | quote
  | brace (quoted : Bool)
  /-- At the end of the text. -/
  | text
  | arithmetic (depth : Nat)
  deriving DecidableEq, Inhabited

/-- Whether everything up to the ending is quoted. -/
def Ending.quotes : Ending → Bool
  | word => false
  | quote => true
  | brace quoted => quoted
  | text => true
  | arithmetic _ => true

/-- The characters that a backslash takes their meaning where not every character has one. -/
def Ending.escapes : Ending → List Char
  | text => "$\x60\\".toList
  | brace _ => "$\x60\"\\\x7d".toList
  | _ => "$\x60\"\\".toList

/-- The text up to a closing backquote, with its escapes resolved. -/
def untilBackquote (quoted : Bool) : Nat → Reader (List Char)
  | 0 => fail "Syntax error: EOF in backquote substitution"
  | steps + 1 => do
    match ← take with
    | none => fail "Syntax error: EOF in backquote substitution"
    | some '\x60' => return []
    | some '\\' =>
      match ← take with
      | none => fail "Syntax error: EOF in backquote substitution"
      | some c =>
        let escaped := c = '\x60' || c = '\\' || c = '$' || c = '"' && quoted
        let rest ← untilBackquote quoted steps
        return if escaped then c :: rest else '\\' :: c :: rest
    | some c => return c :: (← untilBackquote quoted steps)

/-- The text of some lines up to one that is the mark, and the lines behind that. -/
def linesUntil (mark : List Char) (indented : Bool) :
    List (List Char) → List Char × List (List Char)
  | [] => ([], [])
  | line :: rest =>
    let line := if indented then line.dropWhile (· = '\t') else line
    if line = mark then ([], rest)
    else
      let (text, after) := linesUntil mark indented rest
      (line ++ (if rest.isEmpty then [] else ['\n']) ++ text, after)

/-- Takes the text out of the lines below that ends with a mark, or with the last line. -/
def takeInline (mark : List Char) (indented : Bool) : Reader (List Char) :=
  modifyGet fun s =>
    match pieces (· = '\n') s.rest with
    | [] => ([], s)
    | current :: below =>
      let (text, rest) := linesUntil mark indented below
      let rest := if rest.isEmpty then [[]] else rest
      (text,
        { s with
          rest := ['\n'].intercalate (current :: rest)
          below := s.below + below.length - rest.length })

def wordText (word : Word) : List Char :=
  word.flatMap fun part =>
    match part with
    | .text chars _ => chars
    | _ => []

def Part.isQuoted : Part → Bool
  | text _ quoted => quoted
  | parameter _ _ _ quoted => quoted
  | output _ quoted => quoted
  | arithmetic _ quoted => quoted

def bare? (word : Word) : Option (List Char) :=
  (word.mapM plain?).map List.flatten
where
  plain? : Part → Option (List Char)
    | .text chars false => some chars
    | _ => none

def isFunctionName (name : List Char) : Bool :=
  isName name && !specialCommands.contains (String.ofList name)

def assignment? (word : Word) : Option (List Char × Word) :=
  let plain := word.takeWhile isPlain
  match word.drop plain.length with
  | .text ['='] false :: value =>
    let name := wordText plain
    if isName name then some (name, value) else none
  | _ => none
where
  isPlain : Part → Bool
    | .text chars false => chars.all isNameChar
    | _ => false

def treatment? : List Char → Option (Treatment × Nat)
  | ':' :: '-' :: _ => some (.orElse true, 2)
  | ':' :: '=' :: _ => some (.orAssign true, 2)
  | ':' :: '?' :: _ => some (.orFail true, 2)
  | ':' :: '+' :: _ => some (.andThen true, 2)
  | '-' :: _ => some (.orElse false, 1)
  | '=' :: _ => some (.orAssign false, 1)
  | '?' :: _ => some (.orFail false, 1)
  | '+' :: _ => some (.andThen false, 1)
  | '#' :: '#' :: _ => some (.cutFront true, 2)
  | '#' :: _ => some (.cutFront false, 1)
  | '%' :: '%' :: _ => some (.cutBack true, 2)
  | '%' :: _ => some (.cutBack false, 1)
  | _ => none

def parameterName : Reader (Option (List Char)) := do
  match ← ahead with
  | [] => return none
  | c :: _ =>
    if isNameStart c then return some (← takeWhile isNameChar)
    else if c.isDigit then return some (← takeWhile Char.isDigit)
    else if isSpecial c then
      drop 1
      return some [c]
    else return none

/-- Whether braces hold nothing but a parameter whose length is asked for. -/
def asksLength : List Char → Bool
  | '#' :: c :: rest =>
    if isNameStart c then (rest.dropWhile isNameChar).head? = some '\x7d'
    else if c.isDigit then (rest.dropWhile Char.isDigit).head? = some '\x7d'
    else isSpecial c && rest.head? = some '\x7d'
  | _ => false

/-- The arrow of a redirection with the stream that it stands for by itself. -/
def arrows : List (String × Nat × Arrow) :=
  [("<<-", 0, .inline), ("<<", 0, .inline), ("<&", 0, .duplicate), ("<", 0, .input),
    (">>", 1, .append), (">&", 1, .duplicate), (">|", 1, .output), (">", 1, .output)]

mutual

def parts : Nat → Ending → Reader Word
  | 0, _ => fail "Syntax error: too deep"
  | steps + 1, ending => do
    let quoted := ending.quotes
    let literal (c : Char) : Reader Word := do
      let _ ← take
      return .text [c] quoted :: (← parts steps ending)
    let escape : Reader Word := do
      let _ ← take
      match ← take with
      | none => return .text ['\\'] true :: (← parts steps ending)
      | some '\n' => parts steps ending
      | some c =>
        let kept := if quoted && !ending.escapes.contains c then ['\\', c] else [c]
        return .text kept true :: (← parts steps ending)
    let single : Reader Word := do
      let _ ← take
      let inner ← untilSingle steps
      return .text inner true :: (← parts steps ending)
    let double : Reader Word := do
      let _ ← take
      let inner ← parts steps .quote
      let inner := if inner.isEmpty then [.text [] true] else inner
      return inner ++ (← parts steps ending)
    match ← ahead with
    | [] =>
      match ending with
      | .word => return []
      | .text => return []
      | .quote => fail "Syntax error: Unterminated quoted string"
      | .brace true => fail "Syntax error: Unterminated quoted string"
      | .brace false => fail "Syntax error: Missing '\x7d'"
      | .arithmetic _ => fail "Syntax error: Missing '))'"
    | '$' :: _ => do
      let _ ← take
      let part ← dollar steps quoted
      return part :: (← parts steps ending)
    | '\x60' :: _ => do
      let _ ← take
      let inner ← untilBackquote quoted steps
      let part ← backquoted steps inner quoted
      return part :: (← parts steps ending)
    | c :: rest =>
      match ending with
      | .word =>
        if c = '\\' then escape
        else if c = '\'' then single
        else if c = '"' then double
        else if endsWord c then return []
        else literal c
      | .quote =>
        if c = '\\' then escape
        else if c = '"' then
          let _ ← take
          return []
        else literal c
      | .brace inQuotes =>
        if c = '\x7d' then
          let _ ← take
          return []
        else if c = '\\' then escape
        else if c = '\'' && !inQuotes then single
        else if c = '"' then double
        else literal c
      | .text => if c = '\\' then escape else literal c
      | .arithmetic depth =>
        if c = ')' && depth = 0 && rest.head? = some ')' then
          drop 2
          return []
        else if c = '"' then
          let _ ← take
          parts steps ending
        else
          let _ ← take
          let depth := if c = '(' then depth + 1 else if c = ')' then depth - 1 else depth
          return .text [c] quoted :: (← parts steps (.arithmetic depth))

def untilSingle : Nat → Reader (List Char)
  | 0 => fail "Syntax error: Unterminated quoted string"
  | steps + 1 => do
    match ← take with
    | none => fail "Syntax error: Unterminated quoted string"
    | some '\'' => return []
    | some c => return c :: (← untilSingle steps)

def dollar : Nat → (quoted : Bool) → Reader Part
  | 0, _ => fail "Syntax error: too deep"
  | steps + 1, quoted => do
    if ← accept "((" then
      return .arithmetic (← parts steps (.arithmetic 0)) quoted
    else if ← accept "(" then
      let inner ← sequence steps
      expectSign ")"
      return .output inner quoted
    else if ← accept "\x7b" then
      if asksLength (← ahead) then
        drop 1
        let name ← parameterName
        drop 1
        return .parameter (name.getD []) .length [] quoted
      let unknown : Reader Part := do
        return .parameter [] .unknown (← parts steps (.brace quoted)) quoted
      match ← parameterName with
      | none => unknown
      | some name =>
        if ← accept "\x7d" then return .parameter name .value [] quoted
        match treatment? (← ahead) with
        | none => unknown
        | some (treatment, length) =>
          drop length
          let cuts := match treatment with
            | .cutFront _ => true
            | .cutBack _ => true
            | _ => false
          return .parameter name treatment (← parts steps (.brace (quoted && !cuts))) quoted
    else
      match ← ahead with
      | c :: _ =>
        if c.isDigit then
          drop 1
          return .parameter [c] .value [] quoted
        match ← parameterName with
        | some name => return .parameter name .value [] quoted
        | none => return .text ['$'] true
      | [] => return .text ['$'] true

def backquoted : Nat → List Char → (quoted : Bool) → Reader Part
  | 0, _, _ => fail "Syntax error: too deep"
  | steps + 1, inner, quoted => do
    let outer ← get
    set { rest := inner : Source }
    let command ← sequence steps
    unless (← ahead).isEmpty do unexpected none
    set outer
    return .output command quoted

def redirection : Nat → Reader Redirection
  | 0 => fail "Syntax error: too deep"
  | steps + 1 => do
    let number ← takeWhile Char.isDigit
    let cs ← ahead
    match arrows.find? fun arrow => arrow.1.toList.isPrefixOf cs with
    | none => unexpected none
    | some (sign, standard, arrow) =>
      drop sign.length
      skipBlanks steps
      if ← atRedirection then unexpected none
      let word ← parts steps .word
      if word.isEmpty then unexpected none
      let source := (String.ofList number).toNat?.getD standard
      if arrow ≠ .inline then return .mk source arrow word
      let text ← takeInline (wordText word) (sign = "<<-")
      if word.any Part.isQuoted then return .mk source arrow [.text text true]
      let outer ← get
      set { rest := text, line := outer.line : Source }
      let body ← parts steps .text
      set outer
      return .mk source arrow body

def redirections : Nat → Reader (List Redirection)
  | 0 => fail "Syntax error: too deep"
  | steps + 1 => do
    skipBlanks steps
    if ← atRedirection then
      let first ← redirection steps
      return first :: (← redirections steps)
    return []

/-- At least one command, and then as `sequence`; or the end of the text. -/
def commands : Nat → Reader Command
  | 0 => fail "Syntax error: too deep"
  | steps + 1 => do
    skipLines steps
    if !(← ahead).isEmpty && (← atClosing) then unexpected none
    sequence steps

/-- Commands up to the end of the text or to a word that closes them. -/
def sequence : Nat → Reader Command
  | 0 => fail "Syntax error: too deep"
  | steps + 1 => do
    skipLines steps
    if ← atClosing then return .nothing
    let first ← chain steps
    skipBlanks steps
    let cs ← ahead
    if ';' :: ';' :: [] |>.isPrefixOf cs then return first
    if ← accept ";" then return .sequence first (← sequence steps)
    if ← accept "&" then return .sequence (.background first) (← sequence steps)
    if cs.head? = some '\n' then return .sequence first (← sequence steps)
    if ← atClosing then return first
    unexpected none

def chain : Nat → Reader Command
  | 0 => fail "Syntax error: too deep"
  | steps + 1 => do
    let first ← pipeline steps
    joined steps first

/-- What is joined to a command by conditions, which group to the left. -/
def joined : Nat → Command → Reader Command
  | 0, _ => fail "Syntax error: too deep"
  | steps + 1, first => do
    skipBlanks steps
    if ← accept "&&" then
      skipLines steps
      let second ← pipeline steps
      joined steps (.both first second)
    else if ← accept "||" then
      skipLines steps
      let second ← pipeline steps
      joined steps (.either first second)
    else return first

/-- Commands of which each reads what the one before it writes. -/
def pipeline : Nat → Reader Command
  | 0 => fail "Syntax error: too deep"
  | steps + 1 => do
    skipBlanks steps
    let negated := (← keywordAhead) = some "!"
    if negated then drop 1
    let first ← command steps
    let all ← piped steps first
    return if negated then .negate all else all

def piped : Nat → Command → Reader Command
  | 0, _ => fail "Syntax error: too deep"
  | steps + 1, first => do
    skipBlanks steps
    let cs ← ahead
    if cs.head? = some '|' && !"||".toList.isPrefixOf cs then
      drop 1
      skipLines steps
      let next ← command steps
      return .pipe first (← piped steps next)
    return first

def command : Nat → Reader Command
  | 0 => fail "Syntax error: too deep"
  | steps + 1 => do
    skipBlanks steps
    let line := (← get).line
    let redirected (inner : Command) : Reader Command := do
      let others ← redirections steps
      return if others.isEmpty then inner else .redirected line inner others
    match ← keywordAhead with
    | some "\x7b" =>
      drop 1
      let inner ← commands steps
      expectKeyword "\x7d"
      redirected inner
    | some "if" =>
      drop 2
      redirected (← conditional steps)
    | some "while" =>
      drop 5
      redirected (← loop steps true)
    | some "until" =>
      drop 5
      redirected (← loop steps false)
    | some "for" =>
      drop 3
      redirected (← forEach steps)
    | some "case" =>
      drop 4
      skipBlanks steps
      if (← ahead).head?.all endsWord then unexpected (some "word")
      let subject ← parts steps .word
      skipLines steps
      unless (← plainAhead) = some "in".toList do unexpected (some "in")
      drop 2
      redirected (.choose subject (← choices steps))
    | some _ => unexpected none
    | none =>
      if ← accept "(" then
        let inner ← commands steps
        expectSign ")"
        redirected (.subshell inner)
      else simple steps line

def conditional : Nat → Reader Command
  | 0 => fail "Syntax error: too deep"
  | steps + 1 => do
    let condition ← commands steps
    expectKeyword "then"
    let yes ← commands steps
    match ← keywordAhead with
    | some "else" =>
      drop 4
      let no ← commands steps
      expectKeyword "fi"
      return .branch condition yes no
    | some "elif" =>
      drop 4
      return .branch condition yes (← conditional steps)
    | _ =>
      expectKeyword "fi"
      return .branch condition yes .nothing

def loop : Nat → (whileZero : Bool) → Reader Command
  | 0, _ => fail "Syntax error: too deep"
  | steps + 1, whileZero => do
    let condition ← commands steps
    expectKeyword "do"
    let body ← commands steps
    expectKeyword "done"
    return .loop whileZero condition body

def forEach : Nat → Reader Command
  | 0 => fail "Syntax error: too deep"
  | steps + 1 => do
    skipBlanks steps
    match ← plainAhead with
    | none => fail "Syntax error: Bad for loop variable"
    | some name =>
      unless isName name do fail "Syntax error: Bad for loop variable"
      drop name.length
      skipLines steps
      let words ←
        if (← plainAhead) = some "in".toList then
          drop 2
          pure (some (← loopWords steps))
        else pure none
      skipBlanks steps
      let _ ← accept ";"
      skipLines steps
      expectKeyword "do"
      let body ← commands steps
      expectKeyword "done"
      return .forEach name words body

def loopWords : Nat → Reader (List Word)
  | 0 => fail "Syntax error: too deep"
  | steps + 1 => do
    skipBlanks steps
    match ← ahead with
    | [] => unexpected none
    | c :: _ =>
      if c = ';' || c = '\n' then return []
      if endsWord c then unexpected none
      let first ← parts steps .word
      return first :: (← loopWords steps)

def choices : Nat → Reader (List (List Word × Command))
  | 0 => fail "Syntax error: too deep"
  | steps + 1 => do
    skipLines steps
    if (← keywordAhead) = some "esac" then
      drop 4
      return []
    let _ ← accept "("
    let patterns ← patternWords steps
    let body ← sequence steps
    if ← accept ";;" then return (patterns, body) :: (← choices steps)
    if (← keywordAhead) = some "esac" then
      drop 4
      return [(patterns, body)]
    unexpected (some ";;")

def patternWords : Nat → Reader (List Word)
  | 0 => fail "Syntax error: too deep"
  | steps + 1 => do
    skipBlanks steps
    if (← ahead).head?.all endsWord then unexpected (some ")")
    let first ← parts steps .word
    skipBlanks steps
    if ← accept ")" then return [first]
    if ← accept "|" then return first :: (← patternWords steps)
    unexpected (some ")")

def simple : Nat → (line : Nat) → Reader Command
  | 0, _ => fail "Syntax error: too deep"
  | steps + 1, line => do
    let (assignments, words, others) ← simpleParts steps true
    if (← ahead).head? = some '(' && assignments.isEmpty && others.isEmpty then
      match words with
      | [only] =>
        drop 1
        skipBlanks steps
        unless ← accept ")" do unexpected (some ")") false
        match (bare? only).filter isFunctionName with
        | none => fail "Syntax error: Bad function name"
        | some name =>
          skipLines steps
          return .function name (← command steps)
      | _ => unexpected none
    if assignments.isEmpty && words.isEmpty && others.isEmpty then unexpected none
    return .simple line assignments words others

def simpleParts : Nat → (leading : Bool) →
    Reader (List (List Char × Word) × List Word × List Redirection)
  | 0, _ => fail "Syntax error: too deep"
  | steps + 1, leading => do
    skipBlanks steps
    if ← atRedirection then
      let first ← redirection steps
      let (assignments, words, others) ← simpleParts steps leading
      return (assignments, words, first :: others)
    if (← ahead).head?.all endsWord then return ([], [], [])
    let word ← parts steps .word
    match if leading then assignment? word else none with
    | some assignment =>
      let (assignments, words, others) ← simpleParts steps true
      return (assignment :: assignments, words, others)
    | none =>
      let (assignments, words, others) ← simpleParts steps false
      return (assignments, word :: words, others)

end

/-- The commands of the next lines that belong together; none at the end of the text. -/
def nextCommand (steps : Nat) : Reader (Option Command) := do
  skipLines steps
  if (← ahead).isEmpty then return none
  let first ← chain steps
  return some (← following steps first)
where
  following : Nat → Command → Reader Command
    | 0, first => pure first
    | again + 1, first => do
      skipBlanks steps
      let cs ← ahead
      let atEnd : Reader Bool := do
        skipBlanks steps
        return (← ahead).head?.all (· = '\n')
      if cs.head?.all (· = '\n') then return first
      if ";;".toList.isPrefixOf cs then unexpected none
      if ← accept ";" then
        if ← atEnd then return first
        let second ← chain steps
        return .sequence first (← following again second)
      if ← accept "&" then
        if ← atEnd then return .background first
        let second ← chain steps
        return .sequence (.background first) (← following again second)
      unexpected none

/-- The next command of a source and what is left behind it. -/
def Source.next (source : Source) : Except Unreadable (Option Command × Source) :=
  nextCommand (4 * source.rest.length + 64) source

end BootVolume.Script
