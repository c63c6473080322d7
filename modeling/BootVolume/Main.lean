import BootVolume.CommandLine.Reader
import BootVolume.Program
import BootVolume.Script.Programs
import BootVolume.Snapshot

/-!
# The command

Reads the arguments and, if they ask for a task, a snapshot of the project from standard input; runs
the task on it and writes what the run writes. The tools of the project are scripts under `bin`.
-/

namespace BootVolume.Command

/-- The directory that the project lies in. -/
def home : Path := .ofString "/project"

def shell : Path := .ofString "/bin/sh"

/-- The place of an absolute path. -/
def place (p : Path) : Place := p.segments.filterMap Name.ofBytes?

/-- Where the tools lie. -/
def searchPath : Bytes := (home.join (.ofString "bin")).bytes

def machine : Machine where
  searchPath
  home
  programs :=
    Script.programs (place shell)
      [(Utf8.encode "PATH", searchPath), (Utf8.encode "HOME", home.bytes)]

/-- An empty project, with the shell beside it. -/
def surroundings : FileTree :=
  [.dir home, .file shell [] true].foldl (·.plant [] ·) FileTree.empty

/-- What a run writes to its two streams, and its exit code. -/
structure Answer where
  stdout : Bytes := []
  stderr : Bytes := []
  exit : Nat := 0

def Answer.ofStop : CommandLine.Stop → Answer
  | .help full topic =>
    { stdout := Utf8.encode (CommandLine.Help.text (some CommandLine.Help.programName) full topic) }
  | .version => { stdout := Utf8.encode CommandLine.Help.version }
  | .complaint complaint => { stderr := Utf8.encode (complaint.message ++ "\n"), exit := 2 }

def Answer.ofCompletion (done : Program.Completion) : Answer :=
  { stdout := done.stdout, stderr := done.stderr, exit := done.exit }

/-- What the command answers to arguments from a current directory, and the files that it leaves. -/
def answer (m : Machine) (args : List Bytes) (here : Place) (tree : FileTree) :
    Answer × FileTree :=
  match CommandLine.read args with
  | .error stop => (Answer.ofStop stop, tree)
  | .ok config =>
    let done := Program.run m config here tree
    (Answer.ofCompletion done, done.tree)

partial def readLines (stream : IO.FS.Stream) (before : String) : IO String := do
  let line ← stream.getLine
  if line.isEmpty then return before
  readLines stream (before ++ line)

end BootVolume.Command

open BootVolume Command in
def main (args : List String) : IO UInt32 := do
  let args := args.map Utf8.encode
  let asksForTask := (CommandLine.read args).isOk
  let snapshot ← if asksForTask then readLines (← IO.getStdin) "" else pure ""
  let dir := place home
  let (answer, _) := answer machine args dir (Snapshot.plant surroundings dir snapshot)
  (← IO.getStdout).write ⟨answer.stdout.toArray⟩
  (← IO.getStderr).write ⟨answer.stderr.toArray⟩
  return answer.exit.toUInt32
