import BootVolume.Files.Resolve

/-!
# The search path

A list of directories, written with colons between them, in which programs are looked for by name.
-/

namespace BootVolume

/-- The path of a place from the root. -/
def Place.path (place : Place) : Path :=
  if place.isEmpty then ⟨[Path.slash]⟩ else ⟨place.flatMap fun name => Path.slash :: name.bytes⟩

def Path.Component.path : Path.Component → Path
  | root => ⟨[Path.slash]⟩
  | here => ⟨Path.dot⟩
  | up => ⟨Path.dotDot⟩
  | name bytes => ⟨bytes⟩

/-- A path with components appended one by one. -/
def Path.extend (p : Path) (components : List Path.Component) : Path :=
  components.foldl (fun start c => start.join c.path) p

/-- A path as it is from the root: a relative one is appended to the current directory, without the
dots in front. -/
def Path.fromRoot (here : Place) (p : Path) : Path :=
  if p.isAbsolute then p
  else (Place.path here).extend (p.components.dropWhile (· = .here))

namespace SearchPath

def dirs (searchPath : Bytes) : List Path := (pieces (· = 0x3A) searchPath).map Path.mk

/-- What stands for the user's home as the first component of a directory. -/
def homeMark : Bytes := [0x7E]

def expandHome (home dir : Path) : Path :=
  match dir.components with
  | .name bytes :: rest => if bytes = homeMark then home.extend rest else dir
  | _ => dir

/-- Where a tool may be along the search path. -/
def candidates (searchPath : Bytes) (home tool : Path) : List Path :=
  (dirs searchPath).map fun dir => (expandHome home dir).join tool

/-- Where a tool is found. A name with several components leads there from the current directory,
without a search; any other is looked for in every directory, and so is every name if the current
directory is gone. -/
def find? (tree : FileTree) (searchPath : Bytes) (home : Path) (here : Place) (tool : String) :
    Option Path :=
  let named := Path.ofString tool
  if 1 < named.components.length && tree.get? here = some .dir then
    some (named.fromRoot here) |>.filter (tree.isExecutable here ·)
  else
    ((candidates searchPath home named).find? (tree.isExecutable here ·)).map (·.fromRoot here)

end SearchPath
end BootVolume
