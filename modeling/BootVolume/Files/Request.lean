import BootVolume.Path

/-!
# Requests to the file system

What a step of the program asks of the files, besides whether something is there.
-/

namespace BootVolume

inductive FileRequest where
  | readText (path : Path)
  | listDir (path : Path)
  | copy (source target : Path)
  | makeDir (path : Path)
  | remove (path : Path)
  deriving DecidableEq, Inhabited

/-- What is told of a request that was refused. -/
def FileRequest.message : FileRequest → String
  | readText path => "failed to read file `" ++ path.display ++ "`"
  | listDir path => "failed read directory `" ++ path.display ++ "`"
  | copy source target =>
    "failed to copy `" ++ source.display ++ "` to `" ++ target.display ++ "`"
  | makeDir path => "failed to create directory `" ++ path.display ++ "`"
  | remove path => "failed to remove path `" ++ path.display ++ "`"

end BootVolume
