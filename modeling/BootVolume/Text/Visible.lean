import BootVolume.Text.Utf8

/-!
# What a terminal shows

A text that is written to a terminal may hold sequences that steer it. `visible` is the text that is
seen: control characters other than blanks are dropped, and with them every sequence that begins
with an escape character.
-/

namespace BootVolume

namespace Visible

/-- What the characters in front of one make of it. -/
inductive Mode where
  | text
  | escape
  /-- Behind an escape character and signs from the blank to the slash. -/
  | designation
  | control
  /-- A string for the device: its beginning, its parameters, the signs behind them. -/
  | device
  | deviceParameters
  | deviceSigns
  /-- A string that nobody reads. -/
  | payload
  /-- A command to the system around the terminal, which a bell ends too. -/
  | command
  deriving DecidableEq, Inhabited

def escapeChar : Char := '\x1b'

/-- The blanks among the control characters. -/
def isBlankControl (c : Char) : Bool := c = '\t' || c = '\n' || c = '\x0c' || c = '\r'

/-- Whether a character is seen. A blank is seen inside the sequences that letters end. -/
def isSeen (mode : Mode) (c : Char) : Bool :=
  match mode with
  | .text => (' ' ≤ c && c ≠ '\x7f') || isBlankControl c
  | .escape => isBlankControl c
  | .designation => isBlankControl c
  | .control => isBlankControl c
  | _ => false

/-- The byte that ends a string for the device. -/
def terminator : UInt8 := 0x9C

def next (mode : Mode) (c : Char) : Mode :=
  if c = escapeChar then .escape
  else if c = '\x18' || c = '\x1a' then .text
  else
    match mode with
    | .text => .text
    | .escape =>
      if ' ' ≤ c && c ≤ '/' then .designation
      else if c = '[' then .control
      else if c = ']' then .command
      else if c = 'P' then .device
      else if c = 'X' || c = '^' || c = '_' then .payload
      else if '0' ≤ c && c ≤ '~' then .text
      else mode
    | .designation => if '0' ≤ c && c ≤ '~' then .text else mode
    | .control => if '@' ≤ c && c ≤ '~' then .text else mode
    | .device =>
      if ' ' ≤ c && c ≤ '/' then .deviceSigns
      else if '0' ≤ c && c ≤ '?' then .deviceParameters
      else if '@' ≤ c && c ≤ '~' then .payload
      else mode
    | .deviceParameters =>
      if ' ' ≤ c && c ≤ '/' then .deviceSigns
      else if '<' ≤ c && c ≤ '~' then .payload
      else mode
    | .deviceSigns => if '0' ≤ c && c ≤ '~' then .payload else mode
    | .payload => if terminator ∈ Utf8.encode (.singleton c) then .text else mode
    | .command => if c = '\x07' then .text else mode

/-- The characters that are seen; behind one of them a sequence is over. -/
def seen : Mode → List Char → List Char
  | _, [] => []
  | mode, c :: rest => if isSeen mode c then c :: seen .text rest else seen (next mode c) rest

end Visible

def visible (text : String) : String := .ofList (Visible.seen .text text.toList)

end BootVolume
