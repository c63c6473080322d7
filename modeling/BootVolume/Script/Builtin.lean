import BootVolume.Script.Condition
import BootVolume.Script.Pattern
import BootVolume.Script.Printing

/-!
# Builtin commands

The commands that a shell carries out itself, except those that run other commands.
-/

namespace BootVolume.Script

namespace Builtin

/-- The builtin commands whose faults do not end the script. -/
def regular : List String :=
  ["[", "alias", "cd", "command", "echo", "false", "hash", "kill", "printf", "pwd", "read", "test",
    "true", "type", "umask", "wait"]

/-- Builtin commands whose arguments may be assignments. -/
def assigning : List String := ["export", "local", "readonly"]

def isSpecial (name : List Char) : Bool := specialCommands.contains (String.ofList name)

def isBuiltin (name : List Char) : Bool :=
  isSpecial name || regular.contains (String.ofList name)

/-! ### Arguments -/

/-- The letters of the options in front of the arguments, and the others. -/
def options (allowed : String) : List (List Char) → Shell (List Char × List (List Char))
  | [] => pure ([], [])
  | ['-', '-'] :: rest => pure ([], rest)
  | ('-' :: c :: letters) :: rest => do
    match (c :: letters).find? fun c => !allowed.toList.contains c with
    | some unknown => fail ("Illegal option -".toList ++ [unknown])
    | none =>
      let (others, rest) ← options allowed rest
      return (c :: letters ++ others, rest)
  | rest => pure ([], rest)

def numberBound : Nat := 0x80000000

def number (word : List Char) : Shell Nat := do
  match if word.all Char.isDigit then (String.ofList word).toNat? else none with
  | some n => if n < numberBound then return n
  | none => pure ()
  fail ("Illegal number: ".toList ++ word)

def say (chars : List Char) : Shell Nat := do
  if (← get).channel? 1 |>.isSome then
    emit 1 chars
    return 0
  let s ← get
  complain (about (s.builtin.getD []) "I/O error")
  return 1

/-- A text in quotes from which it is read again. -/
def quoted (chars : List Char) : List Char :=
  '\'' :: chars.flatMap (fun c => if c = '\'' then "'\"'\"'".toList else [c]) ++ ['\'']

/-! ### Variables -/

/-- A name and what stands behind it and a sign of equality, if there is one. -/
def splitAssignment (word : List Char) : List Char × Option (List Char) :=
  let name := word.takeWhile (· ≠ '=')
  (name, if name.length < word.length then some (word.drop (name.length + 1)) else none)

def requireName (name : List Char) : Shell Unit := do
  unless isName name do fail (about name "bad variable name")

def describeVariables (word : String) (bindings : List (List Char × Variable)) : List Char :=
  let ordered := bindings.mergeSort fun a b => !Condition.before b.1 a.1
  let lead := word.toList ++ if word.isEmpty then [] else [' ']
  ordered.flatMap fun (name, held) =>
    lead ++ name ++ held.value.elim [] (fun v => '=' :: quoted v) ++ ['\n']

/-- Marks variables, which may be assigned before. -/
def mark (word : String) (isMarked : Variable → Bool) (setMark : Variable → Variable)
    (arguments : List (List Char)) : Shell Nat := do
  let (letters, names) ← options "p" arguments
  if names.isEmpty || !letters.isEmpty then
    say (describeVariables word ((← get).bindings.filter fun v => isMarked v.2))
  else
    names.forM fun argument => do
      let (name, value) := splitAssignment argument
      requireName name
      value.forM (assign name ·)
      let s ← get
      set (s.setVariable name (some (setMark ((s.bindings.lookup name).getD {}))))
    return 0

def keepLocal (arguments : List (List Char)) : Shell Nat := do
  let (_, names) ← options "" arguments
  if (← get).saved.isNone then fail "not in a function".toList
  names.forM fun argument => do
    let (name, value) := splitAssignment argument
    requireName name
    modify fun s => { s with saved := s.saved.map ((name, s.bindings.lookup name) :: ·) }
    value.forM (assign name ·)
  return 0

def unset (arguments : List (List Char)) : Shell Nat := do
  let (letters, names) ← options "fv" arguments
  names.forM fun name => do
    if letters.getLast? = some 'f' then
      modify fun s => { s with functions := s.functions.filter (·.1 ≠ name) }
    else
      requireName name
      changeVariable name fun _ => none
  return 0

/-! ### Options and arguments of the shell -/

def optionNames : List (String × Char) :=
  [("allexport", 'a'), ("notify", 'b'), ("noclobber", 'C'), ("emacs", 'E'), ("vi", 'V'),
    ("verbose", 'v'), ("xtrace", 'x'), ("stdin", 's'), ("noexec", 'n'), ("monitor", 'm'),
    ("interactive", 'i'), ("ignoreeof", 'I'), ("noglob", 'f'), ("errexit", 'e'), ("nounset", 'u')]

def setOption (on : Bool) (letter : Char) : Shell Unit := do
  unless State.optionLetters.contains letter do fail ("Illegal option -".toList ++ [letter])
  modify fun s =>
    let others := s.options.filter (· ≠ letter)
    { s with options := if on then letter :: others else others }

def setNamedOption (on : Bool) (name : List Char) : Shell Unit := do
  match optionNames.lookup (String.ofList name) with
  | some letter => setOption on letter
  | none => fail ("Illegal option -o ".toList ++ name)

/-- Takes the options in front of the arguments of a shell, and gives the others, with whether the
end of the options is marked. Only a shell that starts has a command among its options. -/
def shellOptions (starting : Bool) : List (List Char) → Shell (List (List Char) × Bool)
  | [] => pure ([], false)
  | word :: rest =>
    match word with
    | ['-'] => do
      unless starting do
        setOption false 'x'
        setOption false 'v'
      return (rest, false)
    | ['-', '-'] => pure (rest, true)
    | sign :: letters =>
      if sign = '-' || sign = '+' then do
        letters.forM fun letter => do
          if starting && letter = 'c' then modify fun s => { s with options := 'c' :: s.options }
          else if letter ≠ 'o' then setOption (sign = '-') letter
        if letters.contains 'o' then
          match rest with
          | [] => pure ([], false)
          | name :: rest => do
            setNamedOption (sign = '-') name
            shellOptions starting rest
        else shellOptions starting rest
      else pure (word :: rest, false)
    | [] => pure (word :: rest, false)

def configure (arguments : List (List Char)) : Shell Nat := do
  if arguments.isEmpty then
    say (describeVariables "" ((← get).bindings.filter fun v => v.2.value.isSome))
  else
    let (others, reset) ← shellOptions false arguments
    if reset || !others.isEmpty then modify fun s => { s with arguments := others }
    return 0

def shift (arguments : List (List Char)) : Shell Nat := do
  let count ← arguments.head?.elim (pure 1) number
  let s ← get
  if s.arguments.length < count then fail "can't shift that many".toList
  set { s with arguments := s.arguments.drop count }
  return 0

/-! ### Directories -/

/-- A path without dots and doubled slashes, as seen from another one. -/
def normalized (here path : List Char) : List Char :=
  let start := if path.head? = some '/' then [] else pieces (· = '/') here
  let names := (start ++ pieces (· = '/') path).foldl
    (fun names name =>
      if name.isEmpty || name = ['.'] then names
      else if name = ['.', '.'] then names.dropLast
      else names ++ [name])
    []
  '/' :: ['/'].intercalate names

def cd (arguments : List (List Char)) : Shell Nat := do
  let (letters, others) ← options "LP" arguments
  let s ← get
  let asked := others.headD (s.text "HOME")
  let back := asked = ['-']
  let asked := if back then s.text "OLDPWD" else asked
  let path := normalized s.path asked
  match s.tree.find s.dir ⟨toBytes (if letters.getLast? = some 'P' then asked else path)⟩ with
  | .ok (place, .dir) =>
    let path :=
      if letters.getLast? = some 'P' then ofBytes (Place.path place).bytes else path
    let exported (value : List Char) : Option Variable := some { value, exported := true }
    set { ((s.setVariable "OLDPWD".toList (exported s.path)).setVariable "PWD".toList
      (exported path)) with dir := place, path }
    if back then say (path ++ ['\n']) else return 0
  | _ => fail ("can't cd to ".toList ++ asked)

def pwd (arguments : List (List Char)) : Shell Nat := do
  let (letters, _) ← options "LP" arguments
  let s ← get
  let path := if letters.getLast? = some 'P' then ofBytes (Place.path s.dir).bytes else s.path
  say (path ++ ['\n'])

/-! ### Reading -/

/-- A line of the input; unless it is taken raw, a backslash quotes the next character, or joins the
next line. The flag tells whether the line has an end. -/
def readLine (raw : Bool) : (more : Nat) → Shell (Field × Bool)
  | 0 => pure ([], false)
  | more + 1 => do
    let line ← takeLine
    let (field, joined) := if raw then (Field.ofText line false, false) else resolve line
    if joined then
      let (others, ended) ← readLine raw more
      return (field ++ others, ended)
    let ended := field.getLast? = some ('\n', false)
    return (if ended then field.dropLast else field, ended)
where
  /-- The characters of a line, and whether the next line is joined to it. -/
  resolve : List Char → Field × Bool
    | [] => ([], false)
    | ['\\'] => ([], false)
    | '\\' :: c :: rest =>
      if c = '\n' then ([], true)
      else
        let (field, joined) := resolve rest
        ((c, true) :: field, joined)
    | c :: rest =>
      let (field, joined) := resolve rest
      ((c, false) :: field, joined)

/-- Whether a character is a separator, and whether it is a blank one. -/
def separates (separators : List Char) (c : Char × Bool) : Bool :=
  !c.2 && separators.contains c.1

def separatesBlank (separators : List Char) (c : Char × Bool) : Bool :=
  separates separators c && (c.1 = ' ' || c.1 = '\t' || c.1 = '\n')

/-- The first value of a line, and what follows the separator behind it. -/
def firstValue (separators : List Char) (line : Field) : Field × Field :=
  let value := line.takeWhile (!separates separators ·)
  let after := (line.drop value.length).dropWhile (separatesBlank separators)
  let after := if after.head?.any (separates separators) then after.tail else after
  (value, after.dropWhile (separatesBlank separators))

/-- The values of so many variables; the last one takes what is left. -/
def lineValues (separators : List Char) : (count : Nat) → Field → List (List Char)
  | 0, _ => []
  | 1, line =>
    let (value, after) := firstValue separators line
    if after.isEmpty then [value.text]
    else [Field.text (line.reverse.dropWhile (separatesBlank separators)).reverse]
  | count + 2, line =>
    let (value, after) := firstValue separators line
    value.text :: lineValues separators (count + 1) after

/-- How many lines may be joined to one. -/
def joinLimit : Nat := 100000

def readValues (arguments : List (List Char)) : Shell Nat := do
  let (letters, names) ← options "r" (withoutPrompt arguments)
  if names.isEmpty then fail "arg count".toList
  names.forM requireName
  let s ← get
  let (line, ended) ← readLine (letters.contains 'r') joinLimit
  let line := line.dropWhile (separatesBlank s.separators)
  (names.zip (lineValues s.separators names.length line)).forM fun (name, value) =>
    assign name value
  return if ended then 0 else 1
where
  /-- The arguments without a prompt, which only a terminal shows. -/
  withoutPrompt : List (List Char) → List (List Char)
    | ['-', 'p'] :: _ :: rest => rest
    | all => all

/-! ### Signals -/

/-- The names of the signals in order, with what is told of a command that one of them ends. -/
def signals : List (String × String) :=
  [("HUP", "Hangup"), ("INT", ""), ("QUIT", "Quit"), ("ILL", "Illegal instruction"),
    ("TRAP", "Trace/breakpoint trap"), ("ABRT", "Aborted"), ("BUS", "Bus error"),
    ("FPE", "Floating point exception"), ("KILL", "Killed"), ("USR1", "User defined signal 1"),
    ("SEGV", "Segmentation fault"), ("USR2", "User defined signal 2"), ("PIPE", ""),
    ("ALRM", "Alarm clock"), ("TERM", "Terminated"), ("STKFLT", "Stack fault"), ("CHLD", ""),
    ("CONT", ""), ("STOP", ""), ("TSTP", ""), ("TTIN", ""), ("TTOU", ""), ("URG", ""),
    ("XCPU", "CPU time limit exceeded"), ("XFSZ", "File size limit exceeded"),
    ("VTALRM", "Virtual timer expired"), ("PROF", "Profiling timer expired"), ("WINCH", ""),
    ("IO", "I/O possible"), ("PWR", "Power failure"), ("SYS", "Bad system call")]

/-- The signals that end no command. -/
def harmless : List Nat := [0, 17, 18, 19, 20, 21, 22, 23, 28]

/-- The number of a signal by its name or number. The end of the script counts as one. -/
def signal? (word : List Char) : Option Nat :=
  if word.isEmpty then none
  else if word.all Char.isDigit then
    ((String.ofList word).toNat?).filter (· ≤ signals.length)
  else
    let name := word.map Char.toUpper
    if name = "EXIT".toList then some 0
    else (signals.findIdx? (·.1.toList = name)).map (· + 1)

def signalName (number : Nat) : List Char :=
  match number with
  | 0 => "EXIT".toList
  | n + 1 => (signals[n]?.elim "" (·.1)).toList

def trap (arguments : List (List Char)) : Shell Nat := do
  let (_, arguments) ← options "" arguments
  match arguments with
  | [] =>
    let s ← get
    say <| (List.range (signals.length + 1)).flatMap fun number =>
      (s.traps.lookup number).elim [] fun action =>
        "trap -- ".toList ++ quoted action ++ [' '] ++ signalName number ++ ['\n']
  | [only] => change none [only]
  | action :: names => change (if action = ['-'] then none else some action) names
where
  change (action : Option (List Char)) : List (List Char) → Shell Nat
    | [] => pure 0
    | name :: rest => do
      match signal? name with
      | none =>
        emit 2 ("trap: ".toList ++ about name "bad trap" ++ ['\n'])
        return 1
      | some number =>
        modify fun s =>
          let others := s.traps.filter (·.1 ≠ number)
          { s with traps := action.elim others fun a => (number, a) :: others }
        change action rest

def killed : List (List Char) → Shell (Nat × List (List Char))
  | ['-', 's'] :: name :: rest => do
    match signal? name with
    | some number => return (number, rest)
    | none => fail ("invalid signal number or name: ".toList ++ name)
  | ['-', '-'] :: rest => pure (15, rest)
  | ('-' :: c :: name) :: rest => do
    match signal? (c :: name) with
    | some number => return (number, rest)
    | none => fail ("Illegal option -".toList ++ [c])
  | rest => pure (15, rest)

/-- Sends a signal, which a command may be set to meet: what that is, if anything. -/
def kill (arguments : List (List Char)) : Shell (Nat × List Char) := do
  let (signal, targets) ← killed arguments
  if targets.isEmpty then
    fail ("Usage: kill [-s sigspec | -signum | -sigspec] [pid | job]... or\n".toList ++
      "kill -l [exitstatus]".toList)
  let numbers ← targets.mapM number
  if numbers.any (· ≠ ownNumber) then
    complain "No such process\n".toList
    return (1, [])
  if harmless.contains signal then return (0, [])
  match (← get).traps.lookup signal with
  | some action => return (0, action)
  | none => throw (.signal signal)

/-! ### Others -/

def printf (arguments : List (List Char)) : Shell Nat := do
  let (_, arguments) ← options "" arguments
  match arguments with
  | [] => fail "usage: printf format [arg ...]".toList
  | format :: arguments =>
    let (printed, misuse) := printFormat format arguments
    printed.complaints.forM complain
    let status ← if printed.text.isEmpty then pure 0 else say printed.text
    misuse.forM fun complaint => (fail complaint : Shell Unit)
    return if printed.complaints.isEmpty then status else 1

def test (words : List (List Char)) : Shell Nat := do
  match Condition.holds (← get) words with
  | .ok holds => return if holds then 0 else 1
  | .error complaint => fail complaint

def umask (arguments : List (List Char)) : Shell Nat := do
  let (_, arguments) ← options "" arguments
  match arguments with
  | [] =>
    let ds := Nat.toDigits 8 (← get).mask
    say (List.replicate (4 - ds.length) '0' ++ ds ++ ['\n'])
  | mask :: _ =>
    unless mask.all isOctal do fail ("Illegal number: ".toList ++ mask)
    let mask := mask.foldl (fun n c => 8 * n + (c.toNat - '0'.toNat)) 0
    modify ({ · with mask := mask % 0o1000 })
    return 0

def wait (arguments : List (List Char)) : Shell Nat := do
  match arguments with
  | [] => return 0
  | job :: _ =>
    let job ← number job
    let last := (← get).background
    return (last.filter fun _ => job = ownNumber + 1).getD 127

/-- The builtin commands that need nothing but the state. -/
def perform? (name : List Char) (arguments : List (List Char)) : Option (Shell Nat) :=
  match String.ofList name with
  | ":" => some (pure 0)
  | "true" => some (pure 0)
  | "false" => some (pure 1)
  | "echo" => some (say (echo arguments))
  | "printf" => some (printf arguments)
  | "test" => some (test arguments)
  | "[" =>
    some <| if arguments.getLast? = some [']'] then test arguments.dropLast
      else fail "missing ]".toList
  | "cd" => some (cd arguments)
  | "pwd" => some (pwd arguments)
  | "set" => some (configure arguments)
  | "shift" => some (shift arguments)
  | "export" =>
    some (mark "export" (·.exported) (fun v => { v with exported := true }) arguments)
  | "readonly" =>
    some (mark "readonly" (·.fixed) (fun v => { v with fixed := true }) arguments)
  | "local" => some (keepLocal arguments)
  | "unset" => some (unset arguments)
  | "read" => some (readValues arguments)
  | "trap" => some (trap arguments)
  | "umask" => some (umask arguments)
  | "wait" => some (wait arguments)
  | "hash" => some (pure 0)
  | "alias" => some (pure 0)
  | "times" => some (say "0m0.00s 0m0.00s\n0m0.00s 0m0.00s\n".toList)
  | _ => none

end Builtin
end BootVolume.Script
