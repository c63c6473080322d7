import BootVolume.Executor

/-!
# Rehearsals

An executor that starts nothing and follows a script: which tools are found where, what files a
call leaves, and how it ends.
-/

namespace BootVolume

/-- An entry to make, with the directories above it. -/
inductive Planting where
  | dir (path : Path)
  | file (path : Path) (content : Bytes) (executable : Bool)
  | link (path target : Path)
  deriving DecidableEq

namespace FileTree

/-- The tree with a directory and those above it; the same tree if something is in the way. -/
def withDir (t : FileTree) (here : Place) (p : Path) : FileTree := (t.makeDirs here p).1

/-- The tree with the directories above a path. -/
def withParent (t : FileTree) (here : Place) (p : Path) : FileTree :=
  p.parent?.elim t (t.withDir here)

/-- Makes a symbolic link where nothing is. -/
def withLink (t : FileTree) (here : Place) (p target : Path) : FileTree :=
  match p.route? with
  | .error _ => t
  | .ok route =>
    match t.parentOf here route, route.steps.getLast? with
    | .ok dir, some (.into name) =>
      if (t.get? (dir ++ [name])).isSome then t else t.put (dir ++ [name]) (.link target)
    | _, _ => t

def plant (t : FileTree) (here : Place) : Planting → FileTree
  | .dir p => t.withDir here p
  | .file p content executable =>
    let t := t.withParent here p
    match t.write here p content executable with
    | .ok u => u
    | .error _ => t
  | .link p target => (t.withParent here p).withLink here p target

/-- Removes an entry itself, with all below it. -/
def uproot (t : FileTree) (here : Place) (p : Path) : FileTree :=
  match t.locate here false p with
  | .ok place => t.erase place
  | .error _ => t

end FileTree

/-- How a rehearsed call ends. -/
inductive Ending where
  | exit (code : Int)
  | signal
  | skipped
  | spawn
  deriving DecidableEq, Inhabited

def Ending.result (inv : Invocation) : Ending → Except Failure Outcome
  | exit code => .ok (.exited (some code))
  | signal => .ok (.exited none)
  | skipped => .ok .skipped
  | spawn => .error (.spawn inv.commandLine (.os .noEntry))

structure Rehearsal where
  /-- Tools that are found elsewhere than under their own name, or not at all. -/
  tools : List (String × Option Path) := []
  /-- What a call leaves, by its working directory. -/
  writes : List (Path × List Planting) := []
  endings : List (Path × Ending) := []
  /-- How other calls end, by their number. -/
  results : List Ending := []

namespace Rehearsal

def key (inv : Invocation) : Path := inv.workdir.getD ⟨[]⟩

/-- The executor that follows the script; entries are made relative to a place. -/
def executor (r : Rehearsal) (base : Place) : Executor where
  locate _ tool :=
    match r.tools.find? (·.1 = tool) with
    | some (_, some path) => .ok path
    | some (_, none) => .error (.toolNotFound tool)
    | none => .ok (.ofString tool)
  execute calls inv tree :=
    let plantings := ((r.writes.find? (·.1 = key inv)).map (·.2)).getD []
    let ending :=
      match r.endings.find? (·.1 = key inv) with
      | some (_, ending) => ending
      | none => (r.results[calls.length]?).getD (.exit 0)
    { result := ending.result inv, tree := plantings.foldl (·.plant base ·) tree }

end Rehearsal
end BootVolume
