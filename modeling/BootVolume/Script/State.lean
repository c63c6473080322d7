import BootVolume.Process.SearchPath
import BootVolume.Script.Command
import BootVolume.Trace

/-!
# The state of a shell

What a running script has: its variables, functions and options, the channels that its commands read
and write, and the files.
-/

namespace BootVolume.Script

structure Variable where
  /-- Without a value it is only marked. -/
  value : Option (List Char) := none
  /-- Whether the programs that the script starts get it. -/
  exported : Bool := false
  fixed : Bool := false

/-- What a number of a stream is tied to. -/
inductive Channel where
  | stream (stream : Stream)
  | file (place : Place)
  /-- A text that is written at its end and read from its beginning. -/
  | text (index : Nat)
  | nowhere
  deriving DecidableEq, Inhabited

/-- What ends a command early. -/
inductive Halt where
  /-- The shell ends, with its status. -/
  | exit
  /-- A fault ends the shell too, unless it is one of a command that may fail. -/
  | fault
  | signal (number : Nat)
  /-- The end of so many loops, or of their turns. -/
  | leave (loops : Nat)
  | proceed (loops : Nat)
  | back
  deriving DecidableEq, Inhabited

structure State where
  /-- Where the shell is among the files. -/
  shell : Place
  tree : FileTree
  dir : Place
  /-- The path that the current directory goes by. -/
  path : List Char
  name : List Char := []
  arguments : List (List Char) := []
  bindings : List (List Char × Variable) := []
  functions : List (List Char × Command) := []
  /-- The letters of the options that are on. -/
  options : List Char := []
  channels : List (Nat × Channel) :=
    [(0, .nowhere), (1, .stream .out), (2, .stream .err)]
  texts : List (List Char) := []
  output : Output := []
  status : Nat := 0
  /-- The status of the last command whose output stood for a text. -/
  substituted : Nat := 0
  background : Option Nat := none
  /-- The line of the running command, and the builtin command that it is part of. -/
  line : Nat := 0
  builtin : Option (List Char) := none
  /-- How many loops are around the running command. -/
  loops : Nat := 0
  /-- What the variables were that the running function has for itself. -/
  saved : Option (List (List Char × Option Variable)) := none
  /-- What is done on a signal, or at the end. -/
  traps : List (Nat × List Char) := []
  mask : Nat := 0o22

abbrev Shell := ExceptT Halt (StateM State)

/-- The number by which a script refers to its own process. -/
def ownNumber : Nat := 1

def numeral (n : Nat) : List Char := (toString n).toList

namespace State

def has (s : State) (option : Char) : Bool := s.options.contains option

def optionLetters : List Char := "ubaCEVvxsnmiIfe".toList

/-- The value of a parameter by its name, if it has one. All arguments have one together. -/
def value? (s : State) (name : List Char) : Option (List Char) :=
  match name with
  | ['#'] => some (numeral s.arguments.length)
  | ['?'] => some (numeral s.status)
  | ['-'] => some (optionLetters.filter s.has)
  | ['$'] => some (numeral ownNumber)
  | ['!'] => s.background.map fun _ => numeral (ownNumber + 1)
  | ['@'] => some ([' '].intercalate s.arguments)
  | ['*'] => some ([' '].intercalate s.arguments)
  | _ =>
    if name.all Char.isDigit then
      match (String.ofList name).toNat? with
      | some 0 => some s.name
      | some (n + 1) => s.arguments[n]?
      | none => none
    else (s.bindings.lookup name).bind Variable.value

def text (s : State) (name : String) : List Char := (s.value? name.toList).getD []

/-- The characters at which expansions and lines are cut. -/
def separators (s : State) : List Char := (s.value? "IFS".toList).getD " \t\n".toList

def setVariable (s : State) (name : List Char) (held : Option Variable) : State :=
  let others := s.bindings.filter (·.1 ≠ name)
  { s with bindings := held.elim others fun v => (name, v) :: others }

def channel? (s : State) (number : Nat) : Option Channel := s.channels.lookup number

def setChannel (s : State) (number : Nat) (channel : Option Channel) : State :=
  let others := s.channels.filter (·.1 ≠ number)
  { s with channels := channel.elim others fun c => (number, c) :: others }

def addText (s : State) (chars : List Char) : State × Nat :=
  ({ s with texts := s.texts ++ [chars] }, s.texts.length)

def write (s : State) (channel : Channel) (chars : List Char) : State :=
  match channel with
  | .stream stream => { s with output := s.output ++ [(stream, toBytes chars)] }
  | .file place =>
    match s.tree.get? place with
    | some (.file old executable) =>
      { s with tree := s.tree.put place (.file (old ++ toBytes chars) executable) }
    | _ => s
  | .text index => { s with texts := s.texts.modify index (· ++ chars) }
  | .nowhere => s

end State

def setStatus (status : Nat) : Shell Unit := modify ({ · with status })

/-- Writes to the channel of a number, if there is one. -/
def emit (number : Nat) (chars : List Char) : Shell Unit :=
  modify fun s => (s.channel? number).elim s (s.write · chars)

/-- Tells what is wrong, and where. -/
def complain (complaint : List Char) : Shell Unit := do
  let s ← get
  let part := s.builtin.elim [] (· ++ ": ".toList)
  emit 2 (s.name ++ ": ".toList ++ numeral s.line ++ ": ".toList ++ part ++ complaint ++ ['\n'])

/-- The status of a command that cannot be carried out. -/
def misuse : Nat := 2

def failWith {α : Type} (complaint : List Char) (status : Nat) : Shell α := do
  complain complaint
  setStatus status
  throw .fault

def fail {α : Type} (complaint : List Char) : Shell α := failWith complaint misuse

/-- What is wrong with a name. -/
def about (name : List Char) (what : String) : List Char := name ++ ": ".toList ++ what.toList

/-- Changes a variable that is not fixed. -/
def changeVariable (name : List Char) (change : Variable → Option Variable) : Shell Unit := do
  let s ← get
  let old := (s.bindings.lookup name).getD {}
  if old.fixed then fail (about name "is read only")
  set (s.setVariable name (change old))

def assign (name value : List Char) : Shell Unit := do
  let all := (← get).has 'a'
  changeVariable name fun v => some { v with value := some value, exported := v.exported || all }

def takeLine : Shell (List Char) :=
  modifyGet fun s =>
    match s.channel? 0 with
    | some (.text index) =>
      let all := s.texts[index]?.getD []
      let line := all.takeWhile (· ≠ '\n')
      let ended := (all.drop line.length).take 1
      (line ++ ended, { s with texts := s.texts.set index (all.drop (line ++ ended).length) })
    | _ => ([], s)

/-- Runs something and then puts the channels back. -/
def keepingChannels {α : Type} (action : Shell α) : Shell α := fun s =>
  let (result, t) := action s
  (result, { t with channels := s.channels })

/-- Runs something in a shell of its own. What it does to the files stays, and so do its texts, its
output and its status. -/
def apart (action : Shell Unit) : Shell Unit := fun s =>
  let (result, t) := action s
  let after :=
    { s with tree := t.tree, texts := t.texts, output := t.output, status := t.status }
  match result with
  | .error (.signal number) => (.error (.signal number), after)
  | _ => (.ok (), after)

end BootVolume.Script
