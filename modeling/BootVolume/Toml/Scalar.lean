import BootVolume.Text.Pieces
import BootVolume.Toml.Reader

/-!
# Numbers, truth values, dates and times in TOML

These are words without blanks, but for the one blank that may stand between a date and a time.
-/

namespace BootVolume.Toml

def isWord (c : Char) : Bool :=
  c.isAlphanum || c = '+' || c = '-' || c = '_' || c = '.' || c = ':'

def decimalValue? (c : Char) : Option Nat :=
  if c.isDigit then some (c.toNat - '0'.toNat) else none

/-- The digits of a number, in which single underscores may stand between digits. -/
def digits? (value? : Char → Option Nat) (cs : List Char) : Option (List Char) :=
  let groups := pieces (· = '_') cs
  if groups.all fun group => !group.isEmpty && group.all fun c => (value? c).isSome then
    some groups.flatten
  else none

/-- The digits of a decimal integer, which has no needless zero in front. -/
def wholeDigits? (cs : List Char) : Option (List Char) :=
  if cs.head? = some '0' && cs.length ≠ 1 then none else digits? decimalValue? cs

/-- A sign in front, and whether it is a minus. -/
def splitSign : List Char → Bool × List Char
  | '-' :: rest => (true, rest)
  | '+' :: rest => (false, rest)
  | cs => (false, cs)

def integerValue? (word : List Char) : Option Int :=
  let digitsIn (base : Nat) (cs : List Char) : Option Int :=
    let value? (c : Char) := (hexValue? c).filter (· < base)
    (digits? value? cs).bind fun ds => (number? base value? ds).map Int.ofNat
  match word with
  | '0' :: 'x' :: cs => digitsIn 16 cs
  | '0' :: 'o' :: cs => digitsIn 8 cs
  | '0' :: 'b' :: cs => digitsIn 2 cs
  | word => do
    let (negative, cs) := splitSign word
    let n ← number? 10 decimalValue? (← wholeDigits? cs)
    return if negative then -(n : Int) else n

/-- Integers have 64 bits and a sign. -/
def integer (n : Int) : Except Fault Node :=
  if Int64.minValue.toInt ≤ n ∧ n ≤ Int64.maxValue.toInt then .ok (.integer n)
  else .error .outOfRange

/-- The decimal exponent written behind the letter `e`. -/
def exponent? : List Char → Option Int
  | [] => some 0
  | e :: cs => do
    if e ≠ 'e' && e ≠ 'E' then none
    let (negative, cs) := splitSign cs
    let n ← number? 10 decimalValue? (← digits? decimalValue? cs)
    return if negative then -(n : Int) else n

def floatValue? (word : List Char) : Option Double := do
  let (negative, cs) := splitSign word
  if cs = ['i', 'n', 'f'] then return .infinite negative
  if cs = ['n', 'a', 'n'] then return .nan
  let inMantissa (c : Char) := c.isDigit || c = '_'
  let whole ← wholeDigits? (cs.takeWhile inMantissa)
  match cs.dropWhile inMantissa with
  | '.' :: rest =>
    let fraction ← digits? decimalValue? (rest.takeWhile inMantissa)
    let exponent ← exponent? (rest.dropWhile inMantissa)
    let n ← number? 10 decimalValue? (whole ++ fraction)
    return .ofDecimal negative n (exponent - fraction.length)
  | rest =>
    let exponent ← exponent? rest
    return .ofDecimal negative (← number? 10 decimalValue? whole) exponent

/-- A number too large for the format is refused above zero only. -/
def float (word : List Char) (x : Double) : Except Fault Node :=
  if x = .infinite false && word.any Char.isDigit then .error .outOfRange else .ok (.float x)

/-! Dates and times -/

def daysIn (year month : Nat) : Nat :=
  if month = 2 then
    if year % 4 = 0 ∧ (year % 100 ≠ 0 ∨ year % 400 = 0) then 29 else 28
  else if month = 4 ∨ month = 6 ∨ month = 9 ∨ month = 11 then 30
  else 31

/-- Two digits with a value between the bounds, and what follows. -/
def twoDigits? (low high : Nat) : List Char → Option (Nat × List Char)
  | a :: b :: rest => do
    let n := 10 * (← decimalValue? a) + (← decimalValue? b)
    if low ≤ n ∧ n ≤ high then some (n, rest) else none
  | _ => none

def skip? (c : Char) : List Char → Option (List Char)
  | d :: rest => if c = d then some rest else none
  | [] => none

def skipDate? (cs : List Char) : Option (List Char) := do
  let (century, rest) ← twoDigits? 0 99 cs
  let (year, rest) ← twoDigits? 0 99 rest
  let (month, rest) ← twoDigits? 1 12 (← skip? '-' rest)
  let (_, rest) ← twoDigits? 1 (daysIn (100 * century + year) month) (← skip? '-' rest)
  return rest

/-- What follows a time of day; a second may be the sixtieth. -/
def skipTime? (cs : List Char) : Option (List Char) := do
  let (_, rest) ← twoDigits? 0 23 cs
  let (_, rest) ← twoDigits? 0 59 (← skip? ':' rest)
  let (_, rest) ← twoDigits? 0 60 (← skip? ':' rest)
  match rest with
  | '.' :: rest =>
    if (rest.takeWhile Char.isDigit).isEmpty then none else some (rest.dropWhile Char.isDigit)
  | rest => some rest

/-- What follows the distance from universal time, if it is given. -/
def skipOffset? : List Char → Option (List Char)
  | [] => some []
  | c :: rest =>
    if c = 'Z' || c = 'z' then some rest
    else if c = '+' || c = '-' then do
      let (_, rest) ← twoDigits? 0 23 rest
      let (_, rest) ← twoDigits? 0 59 (← skip? ':' rest)
      return rest
    else none

def isDate (word : List Char) : Bool := skipDate? word = some []

def isTime (word : List Char) : Bool := skipTime? word = some []

/-- A time that may have an offset, as it follows a date. -/
def isZonedTime (word : List Char) : Bool := (skipTime? word).bind skipOffset? = some []

/-- A date and a time joined by a letter. -/
def isDateTime (word : List Char) : Bool :=
  match skipDate? word with
  | some (c :: rest) => (c = 'T' || c = 't') && isZonedTime rest
  | _ => false

/-- A value without quotes and brackets. A blank and a digit behind a date begin its time. -/
def scalar (cs : List Char) : Except Fault (Node × List Char) :=
  let word := cs.takeWhile isWord
  let rest := cs.dropWhile isWord
  if word = "true".toList then .ok (.boolean true, rest)
  else if word = "false".toList then .ok (.boolean false, rest)
  else if isDate word then
    match rest with
    | ' ' :: c :: more =>
      if !c.isDigit then .ok (.moment, rest)
      else if isZonedTime ((c :: more).takeWhile isWord) then
        .ok (.moment, (c :: more).dropWhile isWord)
      else .error .grammar
    | _ => .ok (.moment, rest)
  else if isDateTime word || isTime word then .ok (.moment, rest)
  else
    match integerValue? word, floatValue? word with
    | some n, _ => (integer n).map (·, rest)
    | none, some x => (float word x).map (·, rest)
    | none, none => .error .grammar

end BootVolume.Toml
