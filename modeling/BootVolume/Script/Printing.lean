import BootVolume.Script.Arithmetic

/-!
# Printing

The texts that `echo` and `printf` write: escapes are resolved, and the directives of a format are
filled with the arguments, again and again as long as there are arguments left.
-/

namespace BootVolume.Script

/-! ### Escapes -/

/-- The characters that letters behind a backslash stand for. -/
def escapes : List (Char × Char) :=
  [('\\', '\\'), ('a', '\x07'), ('b', '\x08'), ('e', '\x1b'), ('f', '\x0c'), ('n', '\n'),
    ('r', '\r'), ('t', '\t'), ('v', '\x0b')]

def isOctal (c : Char) : Bool := '0' ≤ c && c ≤ '7'

/-- The character of an octal number of at most three digits, and what follows it. -/
def octal (cs : List Char) : Char × List Char :=
  let ds := (cs.take 3).takeWhile isOctal
  (.ofNat (ds.foldl (fun n c => 8 * n + (c.toNat - '0'.toNat)) 0 % 256), cs.drop ds.length)

/-- What an escape stands for, given by what follows the backslash, and what follows it. -/
def escape? (cs : List Char) : Option (Char × List Char) :=
  match cs with
  | [] => none
  | c :: rest => if isOctal c then some (octal cs) else (escapes.lookup c).map (·, rest)

/-- A text with its escapes resolved, and whether it ends early. -/
def unescape : (steps : Nat) → List Char → List Char × Bool
  | 0, _ => ([], false)
  | _ + 1, [] => ([], false)
  | steps + 1, '\\' :: rest =>
    let next (c : Char) (rest : List Char) : List Char × Bool :=
      let (text, ended) := unescape steps rest
      (c :: text, ended)
    match rest with
    | 'c' :: _ => ([], true)
    | '0' :: number =>
      let (c, rest) := octal number
      next c rest
    | _ =>
      match escape? rest with
      | some (c, rest) => next c rest
      | none => next '\\' rest
  | steps + 1, c :: rest =>
    let (text, ended) := unescape steps rest
    (c :: text, ended)

def resolveEscapes (cs : List Char) : List Char × Bool := unescape (cs.length + 1) cs

def echo (arguments : List (List Char)) : List Char :=
  let (arguments, newline) :=
    match arguments with
    | ['-', 'n'] :: rest => (rest, [])
    | all => (all, ['\n'])
  let (text, ended) := resolveEscapes ([' '].intercalate arguments)
  if ended then text else text ++ newline

/-! ### Formats -/

/-- How a directive wants its value. -/
structure Shape where
  flags : List Char := []
  width : Nat := 0
  precision : Option Nat := none

namespace Shape

def has (shape : Shape) (flag : Char) : Bool := shape.flags.contains flag

def pad (shape : Shape) (text : List Char) : List Char :=
  let blanks := List.replicate (shape.width - text.length) ' '
  if shape.has '-' then text ++ blanks else blanks ++ text

def text (shape : Shape) (chars : List Char) : List Char :=
  shape.pad (shape.precision.elim chars (chars.take ·))

/-- The digits of a number with zeros in front, up to the precision or to the width. -/
def number (shape : Shape) (lead : List Char) (ds : List Char) : List Char :=
  match shape.precision with
  | some least =>
    let ds := if ds = ['0'] && least = 0 then [] else ds
    shape.pad (lead ++ List.replicate (least - ds.length) '0' ++ ds)
  | none =>
    if shape.has '0' && !shape.has '-' then
      lead ++ List.replicate (shape.width - (lead ++ ds).length) '0' ++ ds
    else shape.pad (lead ++ ds)

def signed (shape : Shape) (n : Int) : List Char :=
  let lead :=
    if n < 0 then ['-'] else if shape.has '+' then ['+'] else if shape.has ' ' then [' '] else []
  shape.number lead (Nat.toDigits 10 n.natAbs)

def unsigned (shape : Shape) (directive : Char) (n : Nat) : List Char :=
  match directive with
  | 'o' =>
    let ds := Nat.toDigits 8 n
    shape.number [] (if shape.has '#' && n ≠ 0 then '0' :: ds else ds)
  | 'x' => shape.number (if shape.has '#' && n ≠ 0 then ['0', 'x'] else []) (Nat.toDigits 16 n)
  | 'X' =>
    shape.number (if shape.has '#' && n ≠ 0 then ['0', 'X'] else [])
      ((Nat.toDigits 16 n).map Char.toUpper)
  | _ => shape.number [] (Nat.toDigits 10 n)

end Shape

structure Printed where
  text : List Char := []
  /-- The arguments that are left. -/
  arguments : List (List Char) := []
  complaints : List (List Char) := []
  deriving Inhabited

inductive PrintHalt where
  | done
  | misuse (complaint : List Char)

abbrev Printer := ExceptT PrintHalt (StateM Printed)

namespace Printer

def put (chars : List Char) : Printer Unit := modify fun p => { p with text := p.text ++ chars }

def complain (complaint : List Char) : Printer Unit :=
  modify fun p => { p with complaints := p.complaints ++ [complaint] }

def argument : Printer (Option (List Char)) :=
  modifyGet fun p => (p.arguments.head?, { p with arguments := p.arguments.tail })

/-- The first number that is too large for 64 bits without a sign. -/
def wide : Nat := 2 * Arithmetic.bound.toNat

def value (signed : Bool) : Printer Int := do
  let text := (← argument).getD []
  match text with
  | [] => return 0
  | c :: quoted =>
    if c = '"' || c = '\'' then return ((quoted.head?.map Char.toNat).getD 0 : Nat)
    let cs := text.dropWhile Arithmetic.isBlank
    let negative := cs.head? = some '-'
    let cs := if negative || cs.head? = some '+' then cs.drop 1 else cs
    match Arithmetic.unsigned? cs with
    | none =>
      complain (text ++ ": expected numeric value".toList)
      return 0
    | some (size, rest) =>
      let n : Int := if negative then -size else size
      let limited : Int :=
        if signed then Arithmetic.clamp n
        else if size < wide then n % (wide : Int)
        else (wide - 1 : Nat)
      if !rest.isEmpty then complain (text ++ ": not completely converted".toList)
      else if if signed then limited ≠ n else wide ≤ size then
        complain (text ++ ": Numerical result out of range".toList)
      return limited

/-- A number in a directive, which an asterisk takes from the arguments. -/
def size (cs : List Char) : Printer (Option Int × List Char) := do
  match cs with
  | '*' :: rest => return (some (← value true), rest)
  | _ =>
    let ds := cs.takeWhile Char.isDigit
    return ((String.ofList ds).toNat?.map Int.ofNat, cs.drop ds.length)

/-- A directive behind its sign: how it wants its value, and what follows that. -/
def shape (cs : List Char) : Printer (Shape × List Char) := do
  let flags := cs.takeWhile fun c => "#-+ 0".toList.contains c
  let (width, cs) ← size (cs.drop flags.length)
  let width := width.getD 0
  let flags := if width < 0 then '-' :: flags else flags
  match cs with
  | '.' :: cs =>
    let (precision, cs) ← size cs
    let precision := precision.getD 0
    let precision := if precision < 0 then none else some precision.toNat
    return ({ flags, width := width.natAbs, precision }, cs)
  | _ => return ({ flags, width := width.natAbs }, cs)

def directive (shape : Shape) (c : Char) (written : List Char) : Printer Unit := do
  match c with
  | 's' => put (shape.text ((← argument).getD []))
  | 'b' =>
    let (text, ended) := resolveEscapes ((← argument).getD [])
    put (shape.text text)
    if ended then throw .done
  | 'c' => put (shape.pad [((← argument).bind List.head?).getD '\x00'])
  | 'd' => put (shape.signed (← value true))
  | 'i' => put (shape.signed (← value true))
  | 'o' => put (shape.unsigned c (← value false).toNat)
  | 'u' => put (shape.unsigned c (← value false).toNat)
  | 'x' => put (shape.unsigned c (← value false).toNat)
  | 'X' => put (shape.unsigned c (← value false).toNat)
  | _ => throw (.misuse ('%' :: written ++ c :: ": invalid directive".toList))

def fill : (steps : Nat) → List Char → Printer Unit
  | 0, _ => pure ()
  | _ + 1, [] => pure ()
  | steps + 1, '%' :: '%' :: rest => do
    put ['%']
    fill steps rest
  | steps + 1, '%' :: rest => do
    let (shape, after) ← shape rest
    match after with
    | [] => throw (.misuse "missing format character".toList)
    | c :: after =>
      directive shape c (rest.take (rest.length - after.length - 1))
      fill steps after
  | steps + 1, '\\' :: rest => do
    match escape? rest with
    | some (c, rest) =>
      put [c]
      fill steps rest
    | none =>
      put ['\\']
      fill steps rest
  | steps + 1, c :: rest => do
    put [c]
    fill steps rest

/-- Fills a format as long as that takes arguments that are there. -/
def fillAll (format : List Char) : (again : Nat) → Printer Unit
  | 0 => pure ()
  | again + 1 => do
    let before := (← get).arguments.length
    fill (format.length + 1) format
    let left := (← get).arguments.length
    if left ≠ 0 && left < before then fillAll format again

end Printer

/-- What `printf` writes and what it complains about; the last is a misuse of the format. -/
def printFormat (format : List Char) (arguments : List (List Char)) :
    Printed × Option (List Char) :=
  match (Printer.fillAll format (arguments.length + 1)) { arguments } with
  | (.error (.misuse complaint), printed) => (printed, some complaint)
  | (_, printed) => (printed, none)

end BootVolume.Script
