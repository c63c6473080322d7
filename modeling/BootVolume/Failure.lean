import BootVolume.Files.Request
import BootVolume.Manifest.Package
import BootVolume.SystemError

/-!
# Failures

Why a step of the program fails, each cause with the text that tells it.
-/

namespace BootVolume

inductive Failure where
  | toolNotFound (tool : String)
  /-- A child ended with another code than zero, or with none because a signal killed it. -/
  | processFailure (command : String) (code : Option Int)
  /-- What is to be staged is no regular file. -/
  | notAFile (path : Path)
  | spawn (command : String) (cause : SystemError)
  | missingPackageName (path : Path)
  /-- A manifest does not say what it should. -/
  | manifest (path : Path) (fault : Manifest.Fault)
  /-- The file system refused a request. -/
  | files (request : FileRequest) (cause : SystemError)
  deriving DecidableEq, Inhabited

namespace Failure

def describeExit : Option Int → String
  | some code => "code " ++ toString code
  | none => "no exit code (terminated by signal)"

/-- The failure in one line, without its cause if that is told apart. -/
def message : Failure → String
  | toolNotFound tool => tool ++ " not found in PATH"
  | processFailure command code => "`" ++ command ++ "` failed with " ++ describeExit code
  | notAFile path => path.display ++ " is not a file"
  | spawn command _ => "failed to execute `" ++ command ++ "`"
  | missingPackageName path => "no package name found in " ++ path.display
  | manifest path _ => "failed to parse " ++ path.display
  | files request cause => request.message ++ ": " ++ cause.message

/-- The failure followed by its cause. Of what is wrong with a manifest only the heading is told. -/
def chain (failure : Failure) : String :=
  match failure with
  | spawn _ cause => failure.message ++ ": " ++ cause.message
  | manifest _ _ => failure.message ++ ": TOML parse error"
  | _ => failure.message

end Failure
end BootVolume
