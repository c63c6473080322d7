import BootVolume.Process.Child
import BootVolume.Tasks

/-!
# The program

A run of the whole program: it finds the project root, does the task that it is asked for with
children of the machine, and reports a failure in one line.
-/

namespace BootVolume

/-- The first directory from a path upwards that holds the kernel's sources; the path itself if
there is none. -/
def projectRoot (tree : FileTree) (here : Place) (start : Path) : Path :=
  (start.ancestors.find? fun dir =>
    tree.isDir here (dir.join (.ofString Layout.kernelSource))).getD start

/-- A failure with the part of the program that it arose in. -/
structure Report where
  context : String
  failure : Failure
  deriving DecidableEq

def Report.message (report : Report) : String :=
  report.context ++ ": " ++ report.failure.chain

namespace Program

/-- A job that reports its failures with a context. -/
abbrev Stage := ExceptT Report (StateM World) Unit

def within (context : String) (job : Job Unit) : Stage :=
  fun w =>
    match job w with
    | (.ok (), w) => (.ok (), w)
    | (.error failure, w) => (.error { context, failure }, w)

/-- A job that cannot fail. -/
def always (job : Job Unit) : Stage := within "" job

def build (config : Config) (site : Site) (executor : Executor) : Stage := do
  always (Job.detail config "Profile" config.profile.dir)
  within "build failed" (Build.all config site executor)
  always (Job.say .info "Done" ("boot volume ready at " ++ (Volume.root config site).display))

/-- Boots the volume, with a warning if there is none. -/
def launch (config : Config) (site : Site) (executor : Executor) : Stage := do
  let root := Volume.root config site
  let present ← fun w => (.ok (w.tree.exists? site.here root), w)
  if !config.dryRun && !present then
    always (Job.say .warning "Launch"
      (root.display ++ " does not exist, run `ysos build` first"))
  always (Job.say .info "Launching" "qemu...")
  within "launch failed" (Hypervisor.launch config executor)

def task (config : Config) (site : Site) (executor : Executor) : Stage :=
  match config.task with
  | .build => build config site executor
  | .clean => within "clean failed" (Task.removeOutput config site executor)
  | .launch => launch config site executor
  | .run => do
    build config site executor
    launch config site executor
  | .clippy => within "clippy failed" (Task.lint site executor)

structure Completion where
  exit : Nat
  tree : FileTree
  events : List Event

namespace Completion

def stdout (c : Completion) : Bytes := written .out c.events
def stderr (c : Completion) : Bytes := written .err c.events

end Completion

/-- All that is done at a site, up to the line that reports a failure. -/
def whole (config : Config) (site : Site) (executor : Executor) : Stage := do
  always (Job.detail config "Root" site.root.display)
  task config site executor

/-- A run at a site over an executor. -/
def complete (config : Config) (site : Site) (executor : Executor) (tree : FileTree) :
    Completion :=
  match whole config site executor { tree } with
  | (.ok (), w) => { exit := 0, tree := w.tree, events := w.events }
  | (.error report, w) =>
    { exit := 1
      tree := w.tree
      events := w.events ++
        [.said { level := .error, step := "Error", content := report.message }] }

/-- The site of a run from a current directory. -/
def site (tree : FileTree) (here : Place) : Site :=
  { here, root := projectRoot tree here (Place.path here) }

/-- A run from a current directory with children of a machine. -/
def run (m : Machine) (config : Config) (here : Place) (tree : FileTree) : Completion :=
  let site := site tree here
  complete config site (m.executor config site) tree

end Program
end BootVolume
