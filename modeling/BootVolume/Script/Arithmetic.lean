import BootVolume.Script.Command

/-!
# Arithmetic

Expressions over whole numbers of 64 bits. They are read by the precedence of their operators and
evaluated over variables that hold texts; an assignment changes one of these.
-/

namespace BootVolume.Script.Arithmetic

/-- Operators with two operands whose values are both needed. -/
inductive Binary where
  | bitOr | bitXor | bitAnd
  | equal | unequal | less | lessEqual | greater | greaterEqual
  | shiftLeft | shiftRight
  | add | subtract | multiply | divide | remainder
  deriving DecidableEq, Inhabited

inductive Unary where
  | plus | minus | complement | negate
  deriving DecidableEq, Inhabited

inductive Expression where
  | number (value : Int)
  | named (name : List Char)
  | unary (op : Unary) (operand : Expression)
  | binary (op : Binary) (left right : Expression)
  | both (left right : Expression)
  | either (left right : Expression)
  | choice (condition yes no : Expression)
  /-- With an operator the old value is its left operand. -/
  | assign (name : List Char) (op : Option Binary) (value : Expression)
  deriving Inhabited

inductive Fault where
  | expectingPrimary
  | expectingEnd
  | expectingColon
  | expectingParenthesis
  | divisionByZero
  /-- A variable that holds no number. -/
  | illegalNumber (text : List Char)
  deriving DecidableEq, Inhabited

def Fault.message (expression : List Char) (fault : Fault) : List Char :=
  let told (text : String) : List Char :=
    "arithmetic expression: ".toList ++ text.toList ++ ": \"".toList ++ expression ++ ['"']
  match fault with
  | expectingPrimary => told "expecting primary"
  | expectingEnd => told "expecting EOF"
  | expectingColon => told "expecting ':'"
  | expectingParenthesis => told "expecting ')'"
  | divisionByZero => told "division by zero"
  | illegalNumber text => "Illegal number: ".toList ++ text

/-! ### Numbers -/

def bits : Nat := 64

def bound : Int := 0x8000000000000000

/-- A number that has wrapped around. -/
def wrap (n : Int) : Int := Int.bmod n (2 * bound.toNat)

/-- A number that is cut to the range. -/
def clamp (n : Int) : Int := max (-bound) (min n (bound - 1))

def digitIn? (base : Nat) (c : Char) : Option Nat :=
  let n := c.toNat
  let digit :=
    if '0' ≤ c && c ≤ '9' then n - '0'.toNat
    else if 'a' ≤ c && c ≤ 'z' then n - 'a'.toNat + 10
    else if 'A' ≤ c && c ≤ 'Z' then n - 'A'.toNat + 10
    else base
  if digit < base then some digit else none

/-- The digits that a text begins with, as a number, and what follows them. -/
def digits (base : Nat) (cs : List Char) : Nat × List Char :=
  let ds := cs.takeWhile fun c => (digitIn? base c).isSome
  (ds.foldl (fun n c => base * n + (digitIn? base c).getD 0) 0, cs.drop ds.length)

/-- The number without a sign that a text begins with; its first digits tell its base. -/
def unsigned? (cs : List Char) : Option (Nat × List Char) :=
  match cs with
  | '0' :: x :: d :: rest =>
    if (x = 'x' || x = 'X') && (digitIn? 16 d).isSome then some (digits 16 (d :: rest))
    else some (digits 8 cs)
  | '0' :: _ => some (digits 8 cs)
  | c :: _ => if c.isDigit then some (digits 10 cs) else none
  | [] => none

def isBlank (c : Char) : Bool := c = ' ' || ('\t' ≤ c && c ≤ '\r')

/-- The number that the whole text is, with blanks around it. -/
def number? (cs : List Char) : Option Int :=
  let cs := cs.dropWhile isBlank
  let (negative, cs) :=
    match cs with
    | '-' :: rest => (true, rest)
    | '+' :: rest => (false, rest)
    | all => (false, all)
  match unsigned? cs with
  | some (n, rest) =>
    if rest.all isBlank then some (clamp (if negative then -n else n)) else none
  | none => none

/-! ### Reading -/

inductive Token where
  | number (value : Int)
  | name (chars : List Char)
  | sign (chars : String)
  deriving DecidableEq, Inhabited

def signs : List String :=
  ["<<=", ">>=", "<<", ">>", "<=", ">=", "==", "!=", "&&", "||", "+=", "-=", "*=", "/=", "%=",
    "&=", "^=", "|=", "+", "-", "*", "/", "%", "<", ">", "&", "^", "|", "!", "~", "?", ":", "=",
    "(", ")"]

/-- The tokens of an expression; a character that begins none is a sign of its own. -/
def tokens : Nat → List Char → List Token
  | 0, _ => []
  | _ + 1, [] => []
  | steps + 1, c :: rest =>
    if isBlank c then tokens steps rest
    else if isNameStart c then
      .name (c :: rest.takeWhile isNameChar) :: tokens steps (rest.dropWhile isNameChar)
    else
      match unsigned? (c :: rest) with
      | some (n, rest) => .number (clamp n) :: tokens steps rest
      | none =>
        match signs.find? fun sign => sign.toList.isPrefixOf (c :: rest) with
        | some sign => .sign sign :: tokens steps ((c :: rest).drop sign.length)
        | none => .sign (.singleton c) :: tokens steps rest

def binaries : List (String × Nat × Binary) :=
  [("|", 3, .bitOr), ("^", 4, .bitXor), ("&", 5, .bitAnd), ("==", 6, .equal), ("!=", 6, .unequal),
    ("<", 7, .less), ("<=", 7, .lessEqual), (">", 7, .greater), (">=", 7, .greaterEqual),
    ("<<", 8, .shiftLeft), (">>", 8, .shiftRight), ("+", 9, .add), ("-", 9, .subtract),
    ("*", 10, .multiply), ("/", 10, .divide), ("%", 10, .remainder)]

/-- The operator of an assignment; without one the value is taken as it is. -/
def assignments : List (String × Option Binary) :=
  [("=", none), ("+=", some .add), ("-=", some .subtract), ("*=", some .multiply),
    ("/=", some .divide), ("%=", some .remainder), ("<<=", some .shiftLeft),
    (">>=", some .shiftRight), ("&=", some .bitAnd), ("^=", some .bitXor), ("|=", some .bitOr)]

abbrev Reading := Except Fault (Expression × List Token)

mutual

def readAssignment : Nat → List Token → Reading
  | 0, _ => .error .expectingPrimary
  | steps + 1, ts =>
    match ts with
    | .name name :: .sign s :: rest =>
      match assignments.lookup s with
      | some op => do
        let (value, rest) ← readAssignment steps rest
        return (.assign name op value, rest)
      | none => readChoice steps ts
    | ts => readChoice steps ts

def readChoice : Nat → List Token → Reading
  | 0, _ => .error .expectingPrimary
  | steps + 1, ts => do
    let (condition, rest) ← readEither steps ts
    match rest with
    | .sign "?" :: rest =>
      let (yes, rest) ← readAssignment steps rest
      match rest with
      | .sign ":" :: rest =>
        let (no, rest) ← readChoice steps rest
        return (.choice condition yes no, rest)
      | _ => throw .expectingColon
    | rest => return (condition, rest)

def readEither : Nat → List Token → Reading
  | 0, _ => .error .expectingPrimary
  | steps + 1, ts => do
    let (left, rest) ← readBoth steps ts
    match rest with
    | .sign "||" :: rest =>
      let (right, rest) ← readEither steps rest
      return (.either left right, rest)
    | rest => return (left, rest)

def readBoth : Nat → List Token → Reading
  | 0, _ => .error .expectingPrimary
  | steps + 1, ts => do
    let (first, rest) ← readUnary steps ts
    let (left, rest) ← readBinary steps 0 first rest
    match rest with
    | .sign "&&" :: rest =>
      let (right, rest) ← readBoth steps rest
      return (.both left right, rest)
    | rest => return (left, rest)

/-- What follows a left operand, as far as it binds at least as tightly as asked. -/
def readBinary : Nat → (tight : Nat) → Expression → List Token → Reading
  | 0, _, _, _ => .error .expectingPrimary
  | steps + 1, tight, left, ts =>
    match ts with
    | .sign s :: rest =>
      match binaries.lookup s with
      | some (level, op) =>
        if level < tight then .ok (left, ts)
        else do
          let (first, rest) ← readUnary steps rest
          let (right, rest) ← readBinary steps (level + 1) first rest
          readBinary steps tight (.binary op left right) rest
      | none => .ok (left, ts)
    | ts => .ok (left, ts)

def readUnary : Nat → List Token → Reading
  | 0, _ => .error .expectingPrimary
  | steps + 1, ts =>
    let under (op : Unary) (rest : List Token) : Reading := do
      let (operand, rest) ← readUnary steps rest
      return (.unary op operand, rest)
    match ts with
    | .sign "+" :: rest => under .plus rest
    | .sign "-" :: rest => under .minus rest
    | .sign "~" :: rest => under .complement rest
    | .sign "!" :: rest => under .negate rest
    | .sign "(" :: rest => do
      let (inner, rest) ← readAssignment steps rest
      match rest with
      | .sign ")" :: rest => return (inner, rest)
      | _ => throw .expectingParenthesis
    | .number n :: rest => .ok (.number n, rest)
    | .name name :: rest => .ok (.named name, rest)
    | _ => .error .expectingPrimary

end

def read (cs : List Char) : Except Fault Expression := do
  let ts := tokens (cs.length + 1) cs
  let (expression, rest) ← readAssignment (16 * ts.length + 16) ts
  if rest.isEmpty then return expression else throw .expectingEnd

/-! ### Evaluation -/

def ofBool (b : Bool) : Int := if b then 1 else 0

/-- Two numbers combined bit by bit, in two's complement. -/
def bitwise (combine : BitVec bits → BitVec bits → BitVec bits) (a b : Int) : Int :=
  (combine (.ofInt bits a) (.ofInt bits b)).toInt

/-- How far a number says to shift. -/
def distance (n : Int) : Nat := (n % 64).toNat

def Binary.apply (op : Binary) (a b : Int) : Except Fault Int :=
  match op with
  | bitOr => .ok (bitwise (· ||| ·) a b)
  | bitXor => .ok (bitwise (· ^^^ ·) a b)
  | bitAnd => .ok (bitwise (· &&& ·) a b)
  | equal => .ok (ofBool (a = b))
  | unequal => .ok (ofBool (a ≠ b))
  | less => .ok (ofBool (a < b))
  | lessEqual => .ok (ofBool (a ≤ b))
  | greater => .ok (ofBool (b < a))
  | greaterEqual => .ok (ofBool (b ≤ a))
  | shiftLeft => .ok (wrap (a * (1 <<< distance b : Nat)))
  | shiftRight => .ok (a >>> distance b)
  | add => .ok (wrap (a + b))
  | subtract => .ok (wrap (a - b))
  | multiply => .ok (wrap (a * b))
  | divide => if b = 0 then .error .divisionByZero else .ok (wrap (a.tdiv b))
  | remainder => if b = 0 then .error .divisionByZero else .ok (a.tmod b)

def Unary.apply (op : Unary) (a : Int) : Int :=
  match op with
  | plus => a
  | minus => wrap (-a)
  | complement => -a - 1
  | negate => ofBool (a = 0)

abbrev Variables := List Char → Option (List Char)

/-- What an expression has assigned so far, the newest first. -/
abbrev Changes := List (List Char × List Char)

/-- The number that a variable holds; without a text it is zero. -/
def valueOf (held : Variables) (changes : Changes) (name : List Char) : Except Fault Int :=
  let text := ((changes.lookup name).or (held name)).getD []
  if text.isEmpty then .ok 0
  else
    match number? text with
    | some n => .ok n
    | none => .error (.illegalNumber text)

def evaluate (held : Variables) : Expression → Changes → Except Fault (Int × Changes)
  | .number n, changes => .ok (n, changes)
  | .named name, changes => do return (← valueOf held changes name, changes)
  | .unary op operand, changes => do
    let (a, changes) ← evaluate held operand changes
    return (op.apply a, changes)
  | .binary op left right, changes => do
    let (a, changes) ← evaluate held left changes
    let (b, changes) ← evaluate held right changes
    return (← op.apply a b, changes)
  | .both left right, changes => do
    let (a, changes) ← evaluate held left changes
    if a = 0 then return (0, changes)
    let (b, changes) ← evaluate held right changes
    return (ofBool (b ≠ 0), changes)
  | .either left right, changes => do
    let (a, changes) ← evaluate held left changes
    if a ≠ 0 then return (1, changes)
    let (b, changes) ← evaluate held right changes
    return (ofBool (b ≠ 0), changes)
  | .choice condition yes no, changes => do
    let (a, changes) ← evaluate held condition changes
    if a ≠ 0 then evaluate held yes changes else evaluate held no changes
  | .assign name op value, changes => do
    let (b, changes) ← evaluate held value changes
    let result ←
      match op with
      | none => pure b
      | some op => do op.apply (← valueOf held changes name) b
    return (result, (name, (toString result).toList) :: changes)

end BootVolume.Script.Arithmetic
