import BootVolume.Process.Child
import BootVolume.Script.Run

/-!
# Programs that are scripts

What the files of a machine do whose only program of its own is a shell.
-/

namespace BootVolume.Script

/-- The variables that programs get from those that start them. -/
abbrev Environment := List (Bytes × Bytes)

def Environment.bindings (environment : Environment) : List (List Char × Variable) :=
  environment.map fun (name, value) =>
    (ofBytes name, { value := some (ofBytes value), exported := true })

def runToEnd (shell : Place) (environment : Environment) (argv : List Bytes) (dir : Place)
    (tree : FileTree) : ChildRun :=
  let run := Command.run depthLimit
  let (result, s) :=
    (ending run (runShell run (argv.map ofBytes))) (.start shell tree dir environment.bindings)
  let code : Option Int :=
    match result with
    | .error (.signal _) => none
    | _ => some s.status
  { tree := s.tree, output := s.output, code }

/-- What the files of such a machine do. -/
def programs (shell : Place) (environment : Environment) : Programs where
  run path program argv dir tree :=
    (callOfFile shell dir tree interpreterLimit path program argv).map fun call =>
      runToEnd shell environment call dir tree

end BootVolume.Script
