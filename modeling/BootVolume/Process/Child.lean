import BootVolume.Executor
import BootVolume.Process.SearchPath

/-!
# Starting children

How the system starts a program: it goes to the child's directory, finds the program and runs it.
What the program then does is given by `Programs`, a function of its file, its arguments, its
directory and the files.
-/

namespace BootVolume

/-- How a child went: the files that it left, what it wrote, and its code unless a signal ended
it. -/
structure ChildRun where
  tree : FileTree
  output : Output := []
  code : Option Int := some 0

/-- How children go, as the program sees it: what becomes of an invocation may depend on the files
and on all the invocations before it. -/
abbrev Children := List Invocation → Invocation → FileTree → Except SystemError ChildRun

/-- The executor that starts children and finds tools as it is told. A dry run starts nothing. -/
def Executor.starting (config : Config) (find? : FileTree → String → Option Path)
    (children : Children) : Executor where
  locate tree tool :=
    match find? tree tool with
    | some path => .ok path
    | none => .error (.toolNotFound tool)
  execute calls inv tree :=
    let events : List Event :=
      if config.showDebug then
        [.said { level := .debug, step := "Executing", content := inv.display }]
      else []
    if config.dryRun then { result := .ok .skipped, tree, events }
    else
      match children calls inv tree with
      | .error cause =>
        { result := .error (.spawn inv.commandLine cause)
          tree
          events := events ++ [.notStarted inv cause] }
      | .ok run =>
        { result := .ok (.exited run.code)
          tree := run.tree
          events := events ++ [.ran inv run.output run.code] }

/-- The behaviour of every file that can be run: `program` is the file that `path` leads to. -/
structure Programs where
  run : (path : Path) → (program : Place) → (argv : List Bytes) → (dir : Place) → FileTree →
    Except Errno ChildRun

/-- What surrounds the program: the search path, the user's home and the programs. -/
structure Machine where
  searchPath : Bytes
  home : Path
  programs : Programs

namespace Machine

/-- Runs the file that a path leads to, if it may be run. -/
def start (m : Machine) (tree : FileTree) (dir : Place) (p : Path) (argv : List Bytes) :
    Except Errno ChildRun :=
  (tree.program dir p).bind fun place => m.programs.run p place argv dir tree

/-- Runs the first of some files that is there, or tells why the last one is not; that one of them
may not be run goes before that. -/
def startFirst (m : Machine) (tree : FileTree) (dir : Place) (argv : List Bytes) :
    (refusal : Errno) → List Path → Except Errno ChildRun
  | refusal, [] => .error refusal
  | refusal, p :: rest =>
    match m.start tree dir p argv with
    | .ok run => .ok run
    | .error cause =>
      if cause = .accessDenied || cause = .noEntry || cause = .notDirectory then
        startFirst m tree dir argv (if refusal = .accessDenied then refusal else cause) rest
      else .error cause

/-- Runs a program by its name: a path if it holds a slash, else looked for along the search path,
where an empty directory is the child's own. -/
def startNamed (m : Machine) (tree : FileTree) (dir : Place) (argv : List Bytes)
    (program : Bytes) : Except Errno ChildRun :=
  if program = [] then .error .noEntry
  else if Path.slash ∈ program then m.start tree dir ⟨program⟩ argv
  else
    m.startFirst tree dir argv .noEntry <|
      (SearchPath.dirs m.searchPath).map fun d => d.join ⟨program⟩

def spawn (m : Machine) (tree : FileTree) (here : Place) (inv : Invocation) (dir : Path) :
    Except SystemError ChildRun :=
  if inv.argv.any (0 ∈ ·) || 0 ∈ dir.bytes then .error .nulInCommand
  else
    match tree.find here dir with
    | .error cause => .error cause
    | .ok (place, .dir) => (m.startNamed tree place inv.argv inv.program).mapError .os
    | .ok _ => .error (.os .notDirectory)

def workdir (site : Site) (inv : Invocation) : Path :=
  inv.workdir.elim site.root site.path

/-- The executor that starts children of the machine and finds tools along the search path. -/
def executor (m : Machine) (config : Config) (site : Site) : Executor :=
  .starting config (fun tree tool => SearchPath.find? tree m.searchPath m.home site.here tool)
    fun _ inv tree => m.spawn tree site.here inv (workdir site inv)

end Machine
end BootVolume
