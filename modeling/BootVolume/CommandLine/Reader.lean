import BootVolume.CommandLine.Complaint
import BootVolume.CommandLine.Help

/-!
# Reading the command line

The arguments are read from left to right on the level of the program until a task is named, and on
the level of that task from there on. What is chosen behind the task goes before what is chosen in
front of it, and both go before the defaults. An option that takes a value is checked when the next
one is met or the arguments end; a stray argument is reported before that.
-/

namespace BootVolume.CommandLine

/-- Why reading ends before the arguments do. -/
inductive Stop where
  | help (full : Bool) (topic : Topic)
  | version
  | complaint (complaint : Complaint)
  deriving DecidableEq, Inhabited

/-- The value of a setting that is one of a few. -/
def readChoice {α : Type} (s : Setting) (name : α → String) (choices : List α) (value : Bytes) :
    Except Complaint α :=
  if value = [] then .error (.valueRequired s)
  else
    match (Utf8.decode? value).bind (choose? name choices false) with
    | some a => .ok a
    | none => .error (.invalidValue s (Utf8.lossy value))

def readText (value : Bytes) : Except Complaint String :=
  match Utf8.decode? value with
  | some text => .ok text
  | none => .error .notText

def readPath (s : Setting) (value : Bytes) : Except Complaint Path :=
  if value = [] then .error (.valueRequired s) else .ok ⟨value⟩

def Setting.read (s : Setting) (value : Bytes) : Except Complaint Choice :=
  match s with
  | memory => (readText value).map .memory
  | output => (readText value).map .output
  | profile => (readChoice s Profile.name Profile.all value).map .profile
  | bios => (readPath s value).map .bios
  | boot => (readPath s value).map .boot
  | debugListen => (readText value).map .debugListen
  | manifestScan => (readChoice s ManifestScan.name ManifestScan.all value).map .manifestScan

/-- What is read on one level so far: the choices, and a setting whose value is not checked yet or
is still to come. -/
structure Progress where
  choices : List Choice := []
  pending : Option (Setting × Option Bytes) := none
  deriving DecidableEq

namespace Progress

def has (p : Progress) (opt : Opt) : Bool := p.choices.any (·.opt = opt)

/-- Makes the choice of a setting. -/
def choose (p : Progress) (s : Setting) : Option Bytes → Except Stop Progress
  | none => .error (.complaint (.valueRequired s))
  | some value =>
    if p.has (.setting s) then .error (.complaint (.repeated (.setting s)))
    else
      match s.read value with
      | .ok choice => .ok { choices := p.choices ++ [choice] }
      | .error complaint => .error (.complaint complaint)

def settle (p : Progress) : Except Stop Progress :=
  match p.pending with
  | none => .ok p
  | some (s, value) => { p with pending := none }.choose s value

def turnOn (p : Progress) (s : Switch) : Except Stop Progress := do
  let p ← p.settle
  if p.has (.switch s) then throw (.complaint (.repeated (.switch s)))
  return { p with choices := p.choices ++ [.switch s] }

def give (p : Progress) (s : Setting) (value : Bytes) : Except Stop Progress := do
  let p ← p.settle
  p.choose s (some value)

def await (p : Progress) (s : Setting) : Except Stop Progress := do
  let p ← p.settle
  return { p with pending := some (s, none) }

def awaited? (p : Progress) : Option Setting :=
  match p.pending with
  | some (s, none) => some s
  | _ => none

def meet (p : Progress) (level : Level) (full : Bool) : Opt → Except Stop Progress
  | .switch s => p.turnOn s
  | .setting s => p.await s
  | .help => do
    let _ ← p.settle
    throw (.help full level.topic)
  | .version => do
    let _ ← p.settle
    throw .version

/-- An option by its long name, with what stands behind the equals sign. -/
def long (p : Progress) (level : Level) (name : Bytes) (value : Option Bytes) :
    Except Stop Progress :=
  match (Utf8.decode? name).bind level.ofLong?, value with
  | some (.setting s), some value => p.give s value
  | some opt, some value => throw (.complaint (.unexpectedValue opt (Utf8.lossy value)))
  | some opt, none => p.meet level true opt
  | none, _ => throw (.complaint (.unknownArgument ("--" ++ Utf8.lossy name)))

/-- Letters that stand together, and the bytes behind them that are no text. What follows the letter
of a setting is its value, with or without an equals sign in front. -/
def letters (p : Progress) (level : Level) (rest : Bytes) : List Char → Except Stop Progress
  | [] =>
    if rest = [] then .ok p
    else throw (.complaint (.unknownArgument ("-" ++ Utf8.lossy rest)))
  | c :: cs =>
    match level.ofShort? c with
    | none => throw (.complaint (.unknownArgument ("-" ++ String.singleton c)))
    | some (.setting s) =>
      match Utf8.encode (.ofList cs) ++ rest with
      | 0x3D :: value => p.give s value
      | [] => p.await s
      | value => p.give s value
    | some opt => do
      let p ← p.meet level false opt
      p.letters level rest cs

end Progress

/-- The kinds of arguments. -/
inductive Argument where
  | word
  /-- No options follow. -/
  | endMark
  | long (name : Bytes) (value : Option Bytes)
  | letters (bytes : Bytes)
  deriving DecidableEq

def equalsSign : UInt8 := 0x3D

def Argument.ofBytes : Bytes → Argument
  | 0x2D :: 0x2D :: [] => endMark
  | 0x2D :: 0x2D :: rest =>
    let name := rest.takeWhile (· ≠ equalsSign)
    long name ((rest.drop name.length).tail?)
  | 0x2D :: b :: rest => letters (b :: rest)
  | _ => word

def taskNamed? (name : Bytes) : Option Task :=
  (Utf8.decode? name).bind (choose? Task.name Task.all false)

def isHelpWord (name : Bytes) : Bool := name = Utf8.encode Help.word

def topicNamed? (name : Bytes) : Option Topic :=
  if isHelpWord name then some .help else (taskNamed? name).map .task

/-- What help is asked about by the names behind the word. Only the program has tasks. -/
def helpTopic : List Bytes → Stop
  | [] => .help true .program
  | name :: rest =>
    match topicNamed? name, rest with
    | none, _ => .complaint (.unknownTask (Utf8.lossy name))
    | some topic, [] => .help true topic
    | some _, other :: _ => .complaint (.unknownTask (Utf8.lossy other))

def stray : Level → Bytes → Stop
  | .program, word => .complaint (.unknownTask (Utf8.lossy word))
  | .task _, word => .complaint (.unknownArgument (Utf8.lossy word))

/-- An argument where no options follow. A task cannot be named there. -/
def strayAtEnd (level : Level) (word : Bytes) : Stop :=
  if (topicNamed? word).isSome then
    .complaint (.unknownArgument (Utf8.lossy word))
  else stray level word

/-- The valid text that bytes begin with, and the bytes behind it. -/
def textPrefix (bytes : Bytes) : List Char × Bytes :=
  let valid := (Utf8.scan bytes).takeWhile (·.isSome)
  let chars := valid.filterMap id
  (chars, bytes.drop (Utf8.encode (.ofList chars)).length)

/-- Reads arguments: the task that they ask for and all choices, those in front of the task
first. -/
def readArguments (level : Level) (p : Progress) : List Bytes → Except Stop (Task × List Choice)
  | [] => do
    let p ← p.settle
    return (level.request, p.choices)
  | arg :: rest =>
    let kind := Argument.ofBytes arg
    let awaited := p.awaited?.filter fun s => s.takesAnything || kind = .word
    match awaited, kind with
    | some s, _ => readArguments level { p with pending := some (s, some arg) } rest
    | none, .endMark =>
      match rest with
      | [] => do
        let p ← p.settle
        return (level.request, p.choices)
      | word :: _ => throw (strayAtEnd level word)
    | none, .long name value => do
      let p ← p.long level name value
      readArguments level p rest
    | none, .letters bytes => do
      let (chars, others) := textPrefix bytes
      let p ← p.letters level others chars
      readArguments level p rest
    | none, .word =>
      match level, taskNamed? arg with
      | .program, some task => do
        let (task, inner) ← readArguments (.task task) {} rest
        let p ← p.settle
        return (task, p.choices ++ inner)
      | .program, none =>
        throw (if isHelpWord arg then helpTopic rest else stray level arg)
      | .task _, _ => throw (stray level arg)

def configure (task : Task) (choices : List Choice) : Config :=
  choices.foldl Choice.apply { task }

/-- The configuration that arguments ask for; the name of the program is none of them. -/
def read (arguments : List Bytes) : Except Stop Config := do
  let (task, choices) ← readArguments .program {} arguments
  return configure task choices

/-- The name of the program as it was called. -/
def calledName? (called : Bytes) : Option String :=
  (Path.fileName? ⟨called⟩).bind Utf8.decode?

end BootVolume.CommandLine
