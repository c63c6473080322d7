import BootVolume.Files.Resolve

/-!
# Reading and changing files

What can be asked of a file tree by path. An operation that may stop half-way gives the tree that
it leaves together with its outcome.
-/

namespace BootVolume

/-- The tree after an operation, and whether it succeeded. -/
abbrev Change := FileTree × Except SystemError Unit

namespace FileTree

def readText (t : FileTree) (here : Place) (p : Path) : Except SystemError String :=
  match t.find here p with
  | .error cause => .error cause
  | .ok (_, .file content _) =>
    match Utf8.decode? content with
    | some text => .ok text
    | none => .error .notText
  | .ok _ => .error (.os .isDirectory)

def list (t : FileTree) (here : Place) (p : Path) : Except SystemError (List Name) :=
  match t.find here p with
  | .error cause => .error cause
  | .ok (place, .dir) => .ok (t.children place)
  | .ok _ => .error (.os .notDirectory)

/-- Makes one directory, in one that is there. -/
def makeDir (t : FileTree) (here : Place) (p : Path) : Except SystemError FileTree :=
  match p.route? with
  | .error cause => .error cause
  | .ok route =>
    match t.parentOf here route with
    | .error cause => .error cause
    | .ok dir =>
      match route.steps.getLast? with
      | some (.into name) =>
        if nameLimit < name.bytes.length then .error (.os .nameTooLong)
        else if (t.get? (dir ++ [name])).isSome then .error (.os .alreadyExists)
        else .ok (t.put (dir ++ [name]) .dir)
      | _ => .error (.os .alreadyExists)

/-- Makes the first of some directories, each below the next one, with as many of the others as
are missing. -/
def makeChain (t : FileTree) (here : Place) : List Path → Change
  | [] => (t, .error (.os .noEntry))
  | p :: above =>
    if p.bytes = [] then (t, .ok ())
    else
      match t.makeDir here p with
      | .ok u => (u, .ok ())
      | .error cause =>
        if cause ≠ .os .noEntry then (t, if t.isDir here p then .ok () else .error cause)
        else
          match makeChain t here above with
          | (u, .error cause) => (u, .error cause)
          | (u, .ok ()) =>
            match u.makeDir here p with
            | .ok v => (v, .ok ())
            | .error cause => (u, if u.isDir here p then .ok () else .error cause)

/-- Makes a directory and those above it that are missing. -/
def makeDirs (t : FileTree) (here : Place) (p : Path) : Change :=
  t.makeChain here p.ancestors

/-- Walks to where a file is opened to be written. A last name with a slash behind it is refused
once the directory that it lies in is reached, whatever is there: that of the path, and that of a
link which the path ends at. -/
def openWalk (t : FileTree) : Nat → Place → List Step → (slash : Bool) → Walk
  | links, place, steps, true =>
    match t.walk true links place (steps.dropLast ++ [.here]) with
    | .failed cause => .failed cause
    | _ => .failed .isDirectory
  | links, place, steps, false =>
    match t.advance true place steps with
    | .through dir target rest =>
      match links with
      | 0 => .failed .loop
      | links + 1 =>
        match target.route? with
        | .ok route =>
          if rest = [] then openWalk t links (route.start dir) route.steps route.slash
          else openWalk t links (route.start dir) (route.allSteps ++ rest) false
        | .error _ => .failed .noEntry
    | done => done

/-- The place that a file is written to when its path is opened: that of a file, or one that is
free. -/
def openPlace (t : FileTree) (here : Place) (p : Path) : Except SystemError Place :=
  match p.route? with
  | .error cause => .error cause
  | .ok route =>
    match t.openWalk linkLimit (route.start here) route.steps route.slash with
    | .failed cause => .error (.os cause)
    | .missing dir name => .ok (dir ++ [name])
    | .through .. => .error (.os .loop)
    | .found place =>
      match t.get? place with
      | some (.file _ _) => .ok place
      | some _ => .error (.os .isDirectory)
      | none => .error (.os .noEntry)

/-- Writes a file, new or in the place of its old content. -/
def write (t : FileTree) (here : Place) (p : Path) (content : Bytes) (executable : Bool) :
    Except SystemError FileTree :=
  (t.openPlace here p).map fun place => t.put place (.file content executable)

/-- Where a copy of `source` to `target` goes: into `target` if that is a directory. -/
def copyTarget (t : FileTree) (here : Place) (source target : Path) : Path :=
  if t.isDir here target then (source.fileName?.map fun name => target.join ⟨name⟩).getD target
  else target

/-- Copies the content of a file and whether it may be run. The target is emptied before the
source is read, so that a copy of a file to itself leaves it empty. -/
def copy (t : FileTree) (here : Place) (source target : Path) : Except SystemError FileTree :=
  match t.find here source with
  | .error cause => .error cause
  | .ok (origin, .file content executable) =>
    match t.openPlace here target with
    | .error cause => .error cause
    | .ok place =>
      .ok (t.put place (.file (if place = origin then [] else content) executable))
  | .ok _ => .error (.os .invalidArgument)

/-- Removes an empty directory by its path. -/
def removeDir (t : FileTree) (here : Place) (p : Path) : Except SystemError FileTree :=
  match p.route? with
  | .error cause => .error cause
  | .ok route =>
    match t.parentOf here route with
    | .error cause => .error cause
    | .ok dir =>
      match route.steps.getLast? with
      | none => .error (.os .busy)
      | some .here => .error (.os .invalidArgument)
      | some .up => .error (.os .notEmpty)
      | some (.into name) =>
        match t.get? (dir ++ [name]) with
        | some .dir =>
          if (t.children (dir ++ [name])).isEmpty then .ok (t.erase (dir ++ [name]))
          else .error (.os .notEmpty)
        | some _ => .error (.os .notDirectory)
        | none => .error (.os .noEntry)

/-- Empties a directory and removes it; that it is gone already when its turn comes is no error. -/
def removeDirAll (t : FileTree) (here : Place) (p : Path) (place : Place) : Change :=
  let emptied := t.clear place
  match emptied.removeDir here p with
  | .ok u => (u, .ok ())
  | .error cause => (emptied, if cause = .os .noEntry then .ok () else .error cause)

/-- Removes whatever a path leads to: a link itself, a directory with all in it. A link with a slash
behind it is not the link but its directory. That there is nothing is no error. -/
def remove (t : FileTree) (here : Place) (p : Path) : Change :=
  match t.find here p with
  | .error cause => (t, if cause = .os .noEntry then .ok () else .error cause)
  | .ok _ =>
    match t.locate here false p with
    | .error cause => (t, .error cause)
    | .ok place =>
      match t.get? place with
      | some .dir => t.removeDirAll here p place
      | _ => (t.erase place, .ok ())

end FileTree
end BootVolume
