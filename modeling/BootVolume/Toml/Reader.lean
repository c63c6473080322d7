import BootVolume.Toml.Node

/-!
# Reading the words of a TOML document

A reader takes the characters that are left and gives a value with the characters after it, or the
fault that it met. Here are quoted strings, blanks, comments, ends of lines and keys.
-/

namespace BootVolume.Toml

def isSpace (c : Char) : Bool := c = ' ' || c = '\t'

/-- The characters that text may hold unescaped: no control characters but the tab. -/
def isPlain (c : Char) : Bool := c = '\t' || (0x20 ≤ c.toNat && c.toNat ≠ 0x7F)

/-- The characters of keys that need no quotes. -/
def isBare (c : Char) : Bool := c.isAlphanum || c = '_' || c = '-'

def hexValue? (c : Char) : Option Nat :=
  if '0' ≤ c ∧ c ≤ '9' then some (c.toNat - '0'.toNat)
  else if 'a' ≤ c ∧ c ≤ 'f' then some (c.toNat - 'a'.toNat + 10)
  else if 'A' ≤ c ∧ c ≤ 'F' then some (c.toNat - 'A'.toNat + 10)
  else none

/-- The number written by digits that `value?` knows, in a given base. -/
def number? (base : Nat) (value? : Char → Option Nat) (digits : List Char) : Option Nat :=
  digits.foldlM (fun n c => (value? c).map (n * base + ·)) 0

/-- The character with a code in hexadecimal digits; surrogates are none. -/
def scalar? (digits : List Char) : Option Char := do
  let n ← number? 16 hexValue? digits
  if n.isValidChar then some (.ofNat n) else none

def escape? : Char → Option Char
  | 'b' => some '\x08'
  | 't' => some '\t'
  | 'n' => some '\n'
  | 'f' => some '\x0c'
  | 'r' => some '\r'
  | '"' => some '"'
  | '\\' => some '\\'
  | _ => none

/-- What a string consists of: its text and what follows its closing quotes. -/
abbrev Quoted := Except Fault (List Char × List Char)

def Quoted.cons (c : Char) : Quoted → Quoted :=
  Except.map fun (text, rest) => (c :: text, rest)

def Quoted.cons? (c : Option Char) (more : Quoted) : Quoted :=
  c.elim (.error .grammar) (more.cons ·)

def basicBody : List Char → Quoted
  | '"' :: rest => .ok ([], rest)
  | '\\' :: 'u' :: a :: b :: c :: d :: rest => .cons? (scalar? [a, b, c, d]) (basicBody rest)
  | '\\' :: 'U' :: a :: b :: c :: d :: e :: f :: g :: h :: rest =>
    .cons? (scalar? [a, b, c, d, e, f, g, h]) (basicBody rest)
  | '\\' :: c :: rest => .cons? (escape? c) (basicBody rest)
  | c :: rest => if isPlain c then .cons c (basicBody rest) else .error .grammar
  | [] => .error .grammar

/-- The rest of a string in single quotes on one line, where nothing is escaped. -/
def literalBody : List Char → Quoted
  | '\'' :: rest => .ok ([], rest)
  | c :: rest => if isPlain c then .cons c (literalBody rest) else .error .grammar
  | [] => .error .grammar

/-- Whether a line ends here, but for blanks. -/
def endsLine (cs : List Char) : Bool :=
  match cs.dropWhile isSpace with
  | '\n' :: _ => true
  | '\r' :: '\n' :: _ => true
  | _ => false

/-- The rest of a string in three double quotes. Up to two quotes may stand directly in front of
the closing ones. A backslash at the end of a line hides all blanks and line ends up to the next
character; `skip` says that this is going on. Either line end is read as a line feed. -/
def multilineBody (skip : Bool) : List Char → Quoted
  | '"' :: '"' :: '"' :: '"' :: '"' :: rest => .ok (['"', '"'], rest)
  | '"' :: '"' :: '"' :: '"' :: rest => .ok (['"'], rest)
  | '"' :: '"' :: '"' :: rest => .ok ([], rest)
  | '\r' :: '\n' :: rest =>
    if skip then multilineBody true rest else .cons '\n' (multilineBody false rest)
  | '\\' :: 'u' :: a :: b :: c :: d :: rest =>
    .cons? (scalar? [a, b, c, d]) (multilineBody false rest)
  | '\\' :: 'U' :: a :: b :: c :: d :: e :: f :: g :: h :: rest =>
    .cons? (scalar? [a, b, c, d, e, f, g, h]) (multilineBody false rest)
  | '\\' :: c :: rest =>
    if endsLine (c :: rest) then multilineBody true rest
    else .cons? (escape? c) (multilineBody false rest)
  | c :: rest =>
    if skip && (c = '\n' || isSpace c) then multilineBody true rest
    else if c = '\n' || isPlain c then .cons c (multilineBody false rest)
    else .error .grammar
  | [] => .error .grammar

def multilineLiteralBody : List Char → Quoted
  | '\'' :: '\'' :: '\'' :: '\'' :: '\'' :: rest => .ok (['\'', '\''], rest)
  | '\'' :: '\'' :: '\'' :: '\'' :: rest => .ok (['\''], rest)
  | '\'' :: '\'' :: '\'' :: rest => .ok ([], rest)
  | '\r' :: '\n' :: rest => .cons '\n' (multilineLiteralBody rest)
  | c :: rest =>
    if c = '\n' || isPlain c then .cons c (multilineLiteralBody rest) else .error .grammar
  | [] => .error .grammar

/-- A line end directly behind opening quotes of several lines is no part of the string. -/
def skipFirstLineEnd : List Char → List Char
  | '\n' :: rest => rest
  | '\r' :: '\n' :: rest => rest
  | cs => cs

def string? : List Char → Option Quoted
  | '"' :: '"' :: '"' :: rest => some (multilineBody false (skipFirstLineEnd rest))
  | '\'' :: '\'' :: '\'' :: rest => some (multilineLiteralBody (skipFirstLineEnd rest))
  | '"' :: rest => some (basicBody rest)
  | '\'' :: rest => some (literalBody rest)
  | _ => none

def skipSpace (cs : List Char) : List Char := cs.dropWhile isSpace

def skipComment : List Char → List Char
  | '#' :: rest => rest.dropWhile isPlain
  | cs => cs

/-- What follows the end of a line, or nothing at the end of the document. -/
def lineEnd? : List Char → Option (List Char)
  | [] => some []
  | '\n' :: rest => some rest
  | '\r' :: '\n' :: rest => some rest
  | _ => none

/-- What follows the rest of a line that holds nothing but blanks and a comment. -/
def restOfLine (cs : List Char) : Except Fault (List Char) :=
  (lineEnd? (skipComment (skipSpace cs))).elim (.error .grammar) .ok

/-- One part of a key: bare, or quoted on one line. -/
def keyPart : List Char → Quoted
  | '"' :: rest => basicBody rest
  | '\'' :: rest => literalBody rest
  | cs =>
    if (cs.takeWhile isBare).isEmpty then .error .grammar
    else .ok (cs.takeWhile isBare, cs.dropWhile isBare)

/-- The most parts that a key may have, and the most arrays and inline tables in one another. -/
def depthLimit : Nat := 79

/-- The parts of a key between dots, with blanks around them, and what follows. The number bounds
the parts that are read. -/
def keyParts : Nat → List Char → Except Fault (List String × List Char)
  | 0, _ => .error .tooDeep
  | parts + 1, cs => do
    let (part, rest) ← keyPart (skipSpace cs)
    match skipSpace rest with
    | '.' :: rest =>
      let (more, rest) ← keyParts parts rest
      return (String.ofList part :: more, rest)
    | rest => return ([String.ofList part], rest)

def key (cs : List Char) : Except Fault (List String × List Char) :=
  keyParts depthLimit cs

end BootVolume.Toml
