import BootVolume.Script.Builtin
import BootVolume.Script.Fields
import BootVolume.Script.Interpreter
import BootVolume.Script.Reader
import BootVolume.Script.Redirect

/-!
# Running scripts

How the commands of a script change the state of its shell. Every rule is given for a runner of the
commands inside; `Command.run` ties them together up to a depth.
-/

namespace BootVolume.Script

/-- Runs a command. Where its status is tested a failure does not end the script. -/
abbrev Runner := Command → (tested : Bool) → Shell Unit

/-- Ends the script after a failure, if that is asked for. -/
def checkStatus (tested : Bool) : Shell Unit := do
  let s ← get
  if s.has 'e' && !tested && s.status ≠ 0 then throw .exit

/-! ### Texts of commands -/

/-- Runs the commands of a text, each before the next one is read. -/
def runSource (run : Runner) (tested : Bool) : (more : Nat) → Source → Shell Unit
  | 0, _ => pure ()
  | more + 1, source =>
    match source.next with
    | .error fault => do
      modify ({ · with line := fault.line })
      fail fault.reason.toList
    | .ok (none, _) => pure ()
    | .ok (some command, rest) => do
      run command tested
      runSource run tested more rest

def runText (run : Runner) (tested : Bool) (text : List Char) : Shell Unit :=
  runSource run tested (text.length + 1) { rest := text }

/-- Runs something to the end of a shell. What is set to be done at the end is done then. -/
def ending (run : Runner) (action : Shell Unit) : Shell Unit := do
  tryCatch action fun halt =>
    match halt with
    | .signal number => throw (.signal number)
    | _ => pure ()
  let s ← get
  match s.traps.lookup 0 with
  | none => pure ()
  | some last =>
    set { s with traps := s.traps.filter (·.1 ≠ 0) }
    let exited ← tryCatch (do runText run false last; pure false) fun halt => pure (halt = .exit)
    unless exited do setStatus s.status

/-- Runs something in a copy of the shell. Only what is ignored is still trapped there. -/
def inCopy (run : Runner) (action : Shell Unit) : Shell Unit :=
  apart do
    modify fun s => { s with traps := s.traps.filter (·.2.isEmpty) }
    ending run action

/-- The output of a command. Its status is kept aside. -/
def substitute (run : Runner) (command : Command) : Shell (List Char) := do
  let (s, index) := (← get).addText []
  set s
  inCopy run do
    modify (·.setChannel 1 (some (.text index)))
    run command false
  modify fun t => { t with status := s.status, substituted := t.status }
  return (← get).texts[index]?.getD []

/-! ### Programs -/

def initialVariables : List (List Char × Variable) :=
  [("IFS", " \t\n"), ("OPTIND", "1"), ("PS1", "# "), ("PS2", "> "), ("PS4", "+ "),
    ("PPID", "0")].map fun (name, value) => (name.toList, { value := some value.toList })

namespace State

/-- The state of a new shell with the variables that it is given. It goes by the path of the
directory that they tell, if that is right. -/
def start (shell : Place) (tree : FileTree) (dir : Place)
    (environment : List (List Char × Variable)) : State :=
  let s : State :=
    environment.foldl (fun s (name, held) => s.setVariable name (some held))
      { shell, tree, dir, path := [], bindings := initialVariables }
  let told := s.text "PWD"
  let right :=
    match s.tree.find dir ⟨toBytes told⟩ with
    | .ok (place, .dir) => told.head? = some '/' && place = dir
    | _ => false
  let path := if right then told else ofBytes (Place.path dir).bytes
  { s.setVariable "PWD".toList (some { value := some path, exported := true }) with path }

def started (s : State) : State :=
  { start s.shell s.tree s.dir (s.bindings.filter (·.2.exported)) with
    channels := s.channels, texts := s.texts, output := s.output, mask := s.mask }

end State

def takeInput : Shell (List Char) :=
  modifyGet fun s =>
    match s.channel? 0 with
    | some (.text index) => (s.texts[index]?.getD [], { s with texts := s.texts.set index [] })
    | _ => ([], s)

/-- Runs a shell that has just started by its arguments: a command, a file or the input. -/
def runShell (run : Runner) (argv : List (List Char)) : Shell Unit := do
  modify ({ · with name := argv.headD [] })
  let (others, _) ← Builtin.shellOptions true argv.tail
  let s ← get
  if s.has 'c' then
    match others with
    | [] => fail "-c requires an argument".toList
    | command :: others =>
      set { s with
        options := s.options.filter (· ≠ 'c')
        name := others.headD s.name
        arguments := others.tail }
      runText run false command
  else
    match if s.has 's' then [] else others with
    | [] =>
      set { s with arguments := others }
      runText run false (← takeInput)
    | file :: arguments =>
      match s.tree.find s.dir ⟨toBytes file⟩ with
      | .error cause =>
        fail ("cannot open ".toList ++ file ++ ": ".toList ++ refusal "No such file" cause)
      | .ok (_, entry) =>
        set { s with name := file, arguments }
        match entry with
        | .file content _ => runText run false (ofBytes content)
        | _ => pure ()

/-- Runs another shell, and tells of a signal that ends it. -/
def runStarted (run : Runner) (argv : List (List Char)) : Shell Unit := do
  let told ← fun s =>
    match (ending run (runShell run argv)) s.started with
    | (result, t) =>
      let after := { s with tree := t.tree, texts := t.texts, output := t.output }
      match result with
      | .error (.signal number) =>
        (.ok ((Builtin.signals[number - 1]?).elim "" (·.2)), { after with status := 128 + number })
      | _ => (.ok "", { after with status := t.status })
  unless told.isEmpty do emit 2 (told.toList ++ ['\n'])

/-- Starts the file that a path leads to. A file of no known format is taken for a script. -/
def launch (run : Runner) (path : List Char) (argv : List (List Char)) : Shell (Option Errno) := do
  let s ← get
  match shellCall s.shell s.dir s.tree ⟨toBytes path⟩ (argv.map toBytes) with
  | .ok call =>
    runStarted run (call.map ofBytes)
    return none
  | .error cause =>
    if cause = .execFormat then
      runStarted run (ofBytes (Place.path s.shell).bytes :: path :: argv.tail)
      return none
    else return some cause

/-- The path of a program by its name: itself if it holds a slash, else the first one along the
search path that may be run. -/
def State.findProgram (s : State) (name : List Char) : Except Errno (List Char) :=
  if name.contains '/' then .ok name
  else
    search .noEntry ((SearchPath.dirs (toBytes (s.text "PATH"))).map (·.join ⟨toBytes name⟩))
where
  search (refusal : Errno) : List Path → Except Errno (List Char)
    | [] => .error refusal
    | path :: rest =>
      if s.tree.isExecutable s.dir path then .ok (ofBytes path.bytes)
      else search (if s.tree.exists? s.dir path then .accessDenied else refusal) rest

def complainOf (name : List Char) (cause : Errno) : Shell Unit :=
  complain (name ++ ": ".toList ++ refusal "not found" (.os cause))

/-- The status of a program that is not found, and of one that cannot be started. -/
def notFound : Nat := 127
def notStarted : Nat := 126

def statusOf (cause : Errno) : Nat :=
  if [Errno.noEntry, .notDirectory, .loop, .nameTooLong].contains cause then notFound
  else notStarted

/-- Runs a program by its name. Tells why it was not started, if so. -/
def runProgram (run : Runner) (name : List Char) (arguments : List (List Char)) :
    Shell (Option Errno) := do
  match (← get).findProgram name with
  | .error cause =>
    complainOf name cause
    setStatus notFound
    return some cause
  | .ok path =>
    let refusal ← launch run path (name :: arguments)
    refusal.forM fun cause => do
      complainOf name cause
      setStatus (statusOf cause)
    return refusal

/-! ### Functions and loops -/

def call (run : Runner) (tested : Bool) (body : Command) (arguments : List (List Char)) :
    Shell Unit := fun s =>
  let (result, t) := run body tested { s with arguments, saved := some [], loops := 0 }
  let t := (t.saved.getD []).foldl (fun t (name, old) => t.setVariable name old) t
  let t := { t with arguments := s.arguments, saved := s.saved, loops := s.loops }
  match result with
  | .error .back => (.ok (), t)
  | result => (result, t)

/-- Runs a part of a loop and tells whether the loop goes on. -/
def inLoop (action : Shell Bool) : Shell Bool := fun s =>
  let (result, t) := action { s with loops := s.loops + 1 }
  let t := { t with loops := s.loops }
  match result with
  | .error (.leave loops) =>
    if loops ≤ 1 then (.ok false, t) else (.error (.leave (loops - 1)), t)
  | .error (.proceed loops) =>
    if loops ≤ 1 then (.ok true, t) else (.error (.proceed (loops - 1)), t)
  | result => (result, t)

/-- How often a loop may run. -/
def turnLimit : Nat := 10000000

def repeatTurns (turn : Shell Bool) : (limit : Nat) → Shell Unit
  | 0 => pure ()
  | limit + 1 => do
    if ← turn then repeatTurns turn limit

/-- A turn of a loop over a condition. The state keeps the status of the last body aside. -/
def conditionTurn (run : Runner) (tested whileZero : Bool) (condition body : Command) :
    Shell Bool := do
  let before := (← get).status
  let holds ← inLoop do
    run condition true
    return ((← get).status = 0) = whileZero
  if holds then inLoop do
    run body tested
    return true
  else
    setStatus before
    return false

def forTurns (run : Runner) (tested : Bool) (name : List Char) (body : Command) :
    List (List Char) → Shell Unit
  | [] => pure ()
  | value :: rest => do
    assign name value
    let goesOn ← inLoop do
      run body tested
      return true
    if goesOn then forTurns run tested name body rest

/-! ### Builtin commands over others -/

/-- What a name stands for, in a few words or in a sentence. -/
def describe (long : Bool) (name : List Char) : Shell Nat := do
  let s ← get
  let tell (what : String) : Shell Nat :=
    Builtin.say (if long then name ++ " is ".toList ++ what.toList ++ ['\n'] else name ++ ['\n'])
  if Reader.keywords.contains (String.ofList name) then tell "a shell keyword"
  else if Builtin.isSpecial name then tell "a special shell builtin"
  else if (s.functions.lookup name).isSome then tell "a shell function"
  else if Builtin.isBuiltin name then tell "a shell builtin"
  else
    match (s.findProgram name).toOption.filter fun p => s.tree.exists? s.dir ⟨toBytes p⟩ with
    | some path =>
      Builtin.say (if long then name ++ " is ".toList ++ path ++ ['\n'] else path ++ ['\n'])
    | none =>
      if long then
        let _ ← Builtin.say (about name "not found" ++ ['\n'])
      return notFound

def runFileHere (run : Runner) (name : List Char) : Shell Unit := do
  let s ← get
  let path :=
    if name.contains '/' then some name
    else
      ((SearchPath.dirs (toBytes (s.text "PATH"))).map (·.join ⟨toBytes name⟩)).find?
        (s.tree.isFile s.dir ·) |>.map fun path => ofBytes path.bytes
  match path with
  | none => fail (about name "not found")
  | some path =>
    match s.tree.find s.dir ⟨toBytes path⟩ with
    | .error cause =>
      fail ("cannot open ".toList ++ path ++ ": ".toList ++ refusal "No such file" cause)
    | .ok (_, .file content _) =>
      setStatus 0
      modify ({ · with builtin := some path })
      tryCatch (runText run false (ofBytes content)) fun halt =>
        if halt = .back then pure () else throw halt
    | .ok _ => setStatus 0

def loopCount (arguments : List (List Char)) : Shell Nat := do
  let count ← arguments.head?.elim (pure 1) Builtin.number
  if count = 0 then fail ("Illegal number: ".toList ++ arguments.headD [])
  return min count (← get).loops

def givenStatus (arguments : List (List Char)) : Shell Unit := do
  let status ← arguments.head?.elim (do return (← get).status) Builtin.number
  setStatus status

def runBuiltin (run : Runner) (tested : Bool) (name : List Char) (arguments : List (List Char)) :
    Shell Unit := do
  match Builtin.perform? name arguments with
  | some action => setStatus (← action)
  | none =>
    match String.ofList name with
    | "exit" =>
      givenStatus arguments
      modify fun s => { s with status := s.status % 256 }
      throw .exit
    | "return" =>
      givenStatus arguments
      throw .back
    | "break" =>
      let loops ← loopCount arguments
      setStatus 0
      if loops ≠ 0 then throw (.leave loops)
    | "continue" =>
      let loops ← loopCount arguments
      setStatus 0
      if loops ≠ 0 then throw (.proceed loops)
    | "eval" =>
      let line := (← get).line
      setStatus 0
      runText run tested ([' '].intercalate arguments)
      modify ({ · with line })
    | "." =>
      match arguments with
      | [] => setStatus 0
      | file :: _ => runFileHere run file
    | "exec" =>
      match arguments with
      | [] => setStatus 0
      | program :: arguments =>
        match ← runProgram run program arguments with
        | none => modify fun s => { s with traps := s.traps.filter (·.1 ≠ 0) }
        | some cause => setStatus (statusOf cause)
        throw .exit
    | "kill" =>
      let (status, action) ← Builtin.kill arguments
      setStatus status
      unless action.isEmpty do
        runText run false action
        setStatus status
    | "type" =>
      let statuses ← arguments.mapM (describe true)
      setStatus (statuses.foldl max 0)
    | _ => setStatus 0

/-- Runs a command by its name, but no function. Its faults do not end the script. -/
def runCommand (run : Runner) (tested : Bool) : (words : List (List Char)) → Shell Unit
  | [] => setStatus 0
  | ['-', 'v'] :: names => do setStatus (← names.head?.elim (pure 0) (describe false))
  | ['-', 'V'] :: names => do setStatus (← names.head?.elim (pure 0) (describe true))
  | ['-', 'p'] :: words => runCommand run tested words
  | ['-', '-'] :: words => runCommand run tested words
  | name :: arguments => do
    if name = "command".toList then runCommand run tested arguments
    else if Builtin.isBuiltin name then
      modify ({ · with builtin := some name })
      tryCatch (runBuiltin run tested name arguments) fun halt =>
        if halt = .fault then pure () else throw halt
    else
      let _ ← runProgram run name arguments

/-! ### Simple commands -/

/-- The words of a call. Behind some commands an assignment is not cut. -/
def callWords (run : Runner) : (before : List (List Char)) → List Word → Shell (List (List Char))
  | before, [] => pure before
  | before, word :: rest => do
    let name := (before.dropWhile (· = "command".toList)).head?
    let assigning := name.any fun name => Builtin.assigning.contains (String.ofList name)
    match if assigning then assignment? word else none with
    | some (name, value) =>
      let value ← assignedText (substitute run) value
      callWords run (before ++ [name ++ '=' :: value]) rest
    | none =>
      let fields ← expandWords (substitute run) [word]
      callWords run (before ++ fields) rest

/-- Makes assignments, and gives them as they are traced. -/
def makeAssignments (run : Runner) (exported : Bool) :
    List (List Char × Word) → Shell (List (List Char))
  | [] => pure []
  | (name, word) :: rest => do
    let value ← assignedText (substitute run) word
    assign name value
    if exported then
      changeVariable name fun v => some { v with exported := true }
    return (name ++ '=' :: value) :: (← makeAssignments run exported rest)

/-- Runs something and then puts some variables back. -/
def keepingVariables (names : List (List Char)) (action : Shell Unit) : Shell Unit := fun s =>
  let (result, t) := action s
  (result, names.foldl (fun t name => t.setVariable name (s.bindings.lookup name)) t)

def traceCommand (channels : List (Nat × Channel)) (words : List (List Char)) : Shell Unit :=
  modify fun s =>
    match if s.has 'x' then channels.lookup 2 else none with
    | some channel => s.write channel (s.text "PS4" ++ [' '].intercalate words ++ ['\n'])
    | none => s

/-- Runs a builtin command in its name. Its faults end the script if it is a special one. -/
def runNamed (run : Runner) (tested : Bool) (name : List Char) (arguments : List (List Char)) :
    Shell Unit := fun s =>
  let (result, t) :=
    if name = "command".toList then runCommand run tested arguments s
    else runBuiltin run tested name arguments { s with builtin := some name }
  let t := { t with builtin := s.builtin }
  match result with
  | .error .fault => (if Builtin.isSpecial name then .error .fault else .ok (), t)
  | result => (result, t)

def perform (run : Runner) (tested : Bool) (name : List Char) (arguments : List (List Char)) :
    Shell Unit := do
  if Builtin.isSpecial name then runNamed run tested name arguments
  else
    match (← get).functions.lookup name with
    | some body => call run tested body arguments
    | none =>
      if Builtin.isBuiltin name then runNamed run tested name arguments
      else
        let _ ← runProgram run name arguments

/-- Runs a call: its words are expanded, then its redirections, and then its assignments. -/
def runSimple (run : Runner) (tested : Bool) (assignments : List (List Char × Word))
    (words : List Word) (redirections : List Redirection) : Shell Unit := do
  modify ({ · with substituted := 0 })
  let fields ← callWords run [] words
  let ties ← expandRedirections (substitute run) redirections
  let before := (← get).channels
  match fields with
  | [] =>
    keepingChannels do
      if ← makeTies ties then
        traceCommand before (← makeAssignments run false assignments)
        modify fun s => { s with status := s.substituted }
  | name :: arguments =>
    if name = "exec".toList && arguments.isEmpty then
      unless ← makeTies ties do throw .fault
      traceCommand before ((← makeAssignments run false assignments) ++ fields)
      setStatus 0
    else
      let special := Builtin.isSpecial name
      keepingChannels do
        if ← makeTies ties then
          let action : Shell Unit := do
            let made ← makeAssignments run (!special) assignments
            traceCommand before (made ++ fields)
            perform run tested name arguments
          if special then action else keepingVariables (assignments.map (·.1)) action
        else if special then throw .fault
  checkStatus tested

/-! ### All commands -/

def fitsAny (run : Runner) (subject : List Char) : List Word → Shell Bool
  | [] => pure false
  | word :: rest => do
    let pattern ← wholeField (substitute run) word
    if Pattern.fits pattern subject then return true else fitsAny run subject rest

def runChoice (run : Runner) (tested : Bool) (subject : List Char) :
    List (List Word × Command) → Shell Unit
  | [] => setStatus 0
  | (patterns, body) :: rest => do
    if ← fitsAny run subject patterns then
      match body with
      | .nothing => setStatus 0
      | body => run body tested
    else runChoice run tested subject rest

/-- Runs a command by a runner of the commands inside. -/
def Command.step (run : Runner) (command : Command) (tested : Bool) : Shell Unit := do
  match command with
  | nothing => pure ()
  | simple line assignments words redirections =>
    modify ({ · with line })
    runSimple run tested assignments words redirections
  | redirected line inner redirections =>
    modify ({ · with line })
    let ties ← expandRedirections (substitute run) redirections
    keepingChannels do
      if ← makeTies ties then run inner tested else checkStatus tested
  | sequence first second =>
    run first tested
    run second tested
  | both first second =>
    run first true
    if (← get).status = 0 then run second tested
  | either first second =>
    run first true
    if (← get).status ≠ 0 then run second tested
  | negate inner =>
    run inner true
    modify fun s => { s with status := if s.status = 0 then 1 else 0 }
  | pipe first second =>
    let (s, index) := (← get).addText []
    set s
    inCopy run do
      modify (·.setChannel 1 (some (.text index)))
      run first tested
    inCopy run do
      modify (·.setChannel 0 (some (.text index)))
      run second tested
    checkStatus tested
  | background inner =>
    inCopy run do
      modify (·.setChannel 0 (some .nowhere))
      run inner false
    modify fun s => { s with status := 0, background := some s.status }
  | subshell inner =>
    inCopy run (run inner tested)
    checkStatus tested
  | branch condition yes no =>
    run condition true
    if (← get).status = 0 then run yes tested
    else
      match no with
      | .nothing => setStatus 0
      | no => run no tested
  | loop whileZero condition body =>
    setStatus 0
    repeatTurns (conditionTurn run tested whileZero condition body) turnLimit
  | forEach name words body =>
    let values ←
      match words with
      | some words => expandWords (substitute run) words
      | none => pure (← get).arguments
    match values with
    | [] => setStatus 0
    | values => forTurns run tested name body values
  | choose subject choices =>
    let subject ← wholeField (substitute run) subject
    runChoice run tested subject.text choices
  | function name body =>
    modify fun s =>
      { s with functions := (name, body) :: s.functions.filter (·.1 ≠ name), status := 0 }

/-- Runs a command whose parts lie in each other at most so deep; deeper ones are a fault. -/
def Command.run : (depth : Nat) → Runner
  | 0 => fun _ _ => do
    setStatus misuse
    throw .fault
  | depth + 1 => Command.step (Command.run depth)

/-- How deep the commands of a script may lie in each other. -/
def depthLimit : Nat := 5000

end BootVolume.Script
