import BootVolume.Text.Utf8

/-!
# Messages

The lines that the program prints: a marker, a step and what is said about it.
-/

namespace BootVolume

inductive Level where
  | info
  | error
  | warning
  | debug
  deriving DecidableEq, Inhabited

namespace Level

def marker : Level → String
  | info => "[+]"
  | error => "[E]"
  | warning => "[!]"
  | debug => "[?]"

def colour : Level → String
  | info => "92"
  | error => "91"
  | warning => "93"
  | debug => "94"

end Level

structure Message where
  level : Level
  step : String
  content : String
  deriving DecidableEq, Inhabited

namespace Message

def head (m : Message) : String := m.level.marker ++ " " ++ m.step ++ ":"

/-- The message as a line of plain text. -/
def plain (m : Message) : String := m.head ++ " " ++ m.content ++ "\n"

end Message

namespace Style

def escape (attributes : String) : List Char := ('\x1b' :: '[' :: attributes.toList) ++ ['m']

def reset : List Char := escape "0"

/-- A text in which every reset is followed by `style` again, so that it is styled to its end. -/
def restore (style : List Char) : List Char → List Char
  | '\x1b' :: '[' :: '0' :: 'm' :: rest => reset ++ style ++ restore style rest
  | c :: rest => c :: restore style rest
  | [] => []

/-- A text between the escape of its attributes and a reset. -/
def apply (attributes text : String) : String :=
  String.ofList (escape attributes ++ restore (escape attributes) text.toList ++ reset)

end Style

namespace Message

/-- The message as a line for a terminal with colours. -/
def coloured (m : Message) : String :=
  Style.apply ("1;" ++ m.level.colour) m.head ++ " " ++ Style.apply "1" m.content ++ "\n"

end Message
end BootVolume
