import BootVolume.Failure
import BootVolume.Files.Operations
import BootVolume.Trace

/-!
# Jobs and executors

A job is a part of the program's work: it reads and changes files, prints messages, hands
invocations to an executor, and ends with a value or a failure. Whatever was done before a failure
stays done.

The executor stands for everything outside the program: where tools are found, and what becomes of
an invocation, including what the child does to the files.
-/

namespace BootVolume

/-- What became of an invocation. -/
inductive Outcome where
  /-- The child ended; a signal leaves no code. -/
  | exited (code : Option Int)
  | skipped
  deriving DecidableEq, Inhabited

def Outcome.success : Outcome → Bool
  | exited code => code = some 0
  | skipped => true

/-- An executor's answer to an invocation, with the files and the trace that it leaves. -/
structure Reply where
  result : Except Failure Outcome
  tree : FileTree
  events : List Event := []

structure Executor where
  locate : FileTree → String → Except Failure Path
  /-- What becomes of an invocation; the list holds those before it. -/
  execute : List Invocation → Invocation → FileTree → Reply

/-- Where the program works: the current directory of its process, and the project root, which
every relative path of the project starts from. -/
structure Site where
  here : Place
  root : Path

/-- A place that has a name too long for anything to be made there. -/
def Place.gone : Place := [⟨List.replicate (nameLimit + 1) 0x2D, by decide⟩]

/-- The site once the files have changed: a current directory that was removed stays gone, whatever
is made in its place. -/
def Site.after (site : Site) (tree : FileTree) : Site :=
  if tree.get? site.here = some .dir then site else { site with here := Place.gone }

/-- A path of the project as seen from the root of the files. -/
def Site.path (site : Site) (p : Path) : Path := site.root.join p

structure World where
  tree : FileTree
  /-- The invocations handed to the executor so far. -/
  calls : List Invocation := []
  events : List Event := []

abbrev Job (α : Type) := ExceptT Failure (StateM World) α

namespace Job

def ask {α : Type} (question : FileTree → α) : Job α :=
  fun w => (.ok (question w.tree), w)

def say (level : Level) (step content : String) : Job Unit :=
  fun w => (.ok (), { w with events := w.events ++ [.said { level, step, content }] })

/-- A message that is printed only where details are. -/
def detail (config : Config) (step content : String) : Job Unit :=
  if config.showDebug then say .debug step content else pure ()

/-- The world after a request, with the files as it leaves them. -/
def record (w : World) (request : FileRequest) (granted : Bool) (tree : FileTree) : World :=
  { w with tree, events := w.events ++ [.asked request granted] }

def query {α : Type} (request : FileRequest) (question : FileTree → Except SystemError α) :
    Job α :=
  fun w =>
    match question w.tree with
    | .ok a => (.ok a, record w request true w.tree)
    | .error cause => (.error (.files request cause), record w request false w.tree)

/-- A change of the files, which may stop half-way. -/
def change (request : FileRequest) (operation : FileTree → Change) : Job Unit :=
  fun w =>
    match operation w.tree with
    | (tree, .ok ()) => (.ok (), record w request true tree)
    | (tree, .error cause) => (.error (.files request cause), record w request false tree)

/-- A change of the files that is made whole or not at all. -/
def update (request : FileRequest) (operation : FileTree → Except SystemError FileTree) :
    Job Unit :=
  change request fun tree =>
    match operation tree with
    | .ok changed => (changed, .ok ())
    | .error cause => (tree, .error cause)

end Job

namespace Executor

def find (executor : Executor) (tool : String) : Job Path :=
  fun w => (executor.locate w.tree tool, w)

def perform (executor : Executor) (inv : Invocation) : Job Outcome :=
  fun w =>
    let reply := executor.execute w.calls inv w.tree
    (reply.result,
      { tree := reply.tree, calls := w.calls ++ [inv], events := w.events ++ reply.events })

/-- Hands an invocation over that has to succeed. -/
def run (executor : Executor) (inv : Invocation) : Job Unit := do
  match ← executor.perform inv with
  | .skipped => pure ()
  | .exited code =>
    if code = some 0 then pure () else throw (.processFailure inv.commandLine code)

end Executor
end BootVolume
