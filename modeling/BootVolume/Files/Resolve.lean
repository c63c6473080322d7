import BootVolume.Files.Tree
import BootVolume.SystemError

/-!
# Finding what a path leads to

A path is walked from the root or from the current directory, one step at a time. Links on the way
are followed, at most `linkLimit` of them; a link at the end is followed on request. A path that
ends in a slash leads to a directory.
-/

namespace BootVolume

inductive Step where
  | here
  | up
  | into (name : Name)
  deriving DecidableEq

/-- The way that a path describes. -/
structure Route where
  absolute : Bool
  steps : List Step
  /-- Whether the path ends in a slash that is not the root. -/
  slash : Bool

def Step.ofSegment? (seg : Bytes) : Option Step :=
  if seg = Path.dot then some .here
  else if seg = Path.dotDot then some .up
  else (Name.ofBytes? seg).map .into

/-- The longest name of an entry and the longest path, in bytes. -/
def nameLimit : Nat := 255
def pathLimit : Nat := 4095

/-- The way of a path. An empty path has none, nor has one that is too long or holds a NUL. -/
def Path.route? (p : Path) : Except SystemError Route :=
  if 0 ∈ p.bytes then .error .nulInPath
  else if p.bytes = [] then .error (.os .noEntry)
  else if pathLimit < p.bytes.length then .error (.os .nameTooLong)
  else
    match (p.segments.filter (!·.isEmpty)).mapM Step.ofSegment? with
    | some steps =>
      .ok { absolute := p.isAbsolute, steps
            slash := p.bytes.getLast? = some Path.slash && !steps.isEmpty }
    | none => .error .nulInPath

namespace Route

/-- The place where the way begins. -/
def start (r : Route) (here : Place) : Place := if r.absolute then [] else here

/-- All steps, with one on the spot for a slash at the end: only a directory can take it. -/
def allSteps (r : Route) : List Step := if r.slash then r.steps ++ [.here] else r.steps

end Route

/-- Where a walk comes to an end. -/
inductive Walk where
  | found (place : Place)
  /-- All is there but the last name. -/
  | missing (dir : Place) (name : Name)
  /-- At a link that has to be followed, with the steps behind it. -/
  | through (dir : Place) (target : Path) (rest : List Step)
  | failed (cause : Errno)
  deriving DecidableEq

namespace FileTree

/-- Walks to the first link that has to be followed, or to the end. -/
def advance (t : FileTree) (follow : Bool) : Place → List Step → Walk
  | place, [] => .found place
  | place, step :: rest =>
    match t.get? place with
    | none => .failed .noEntry
    | some .dir =>
      match step with
      | .here => advance t follow place rest
      | .up => advance t follow place.dropLast rest
      | .into name =>
        if nameLimit < name.bytes.length then .failed .nameTooLong
        else
          match t.get? (place ++ [name]) with
          | none => if rest.isEmpty then .missing place name else .failed .noEntry
          | some (.link target) =>
            if rest.isEmpty && !follow then .found (place ++ [name])
            else .through place target rest
          | some _ => advance t follow (place ++ [name]) rest
    | some _ => .failed .notDirectory

/-- The most links that are followed on one way. -/
def linkLimit : Nat := 40

/-- Walks to the end, following links. -/
def walk (t : FileTree) (follow : Bool) : Nat → Place → List Step → Walk
  | links, place, steps =>
    match t.advance follow place steps with
    | .through dir target rest =>
      match links with
      | 0 => .failed .loop
      | links + 1 =>
        match target.route? with
        | .ok route => walk t follow links (route.start dir) (route.allSteps ++ rest)
        | .error _ => .failed .noEntry
    | done => done

def locate (t : FileTree) (here : Place) (follow : Bool) (p : Path) : Except SystemError Place :=
  match p.route? with
  | .error cause => .error cause
  | .ok route =>
    match t.walk follow linkLimit (route.start here) route.allSteps with
    | .found place => .ok place
    | .failed cause => .error (.os cause)
    | _ => .error (.os .noEntry)

/-- The entry that a path leads to, links followed, with its place. -/
def find (t : FileTree) (here : Place) (p : Path) : Except SystemError (Place × Entry) :=
  match t.locate here true p with
  | .error cause => .error cause
  | .ok place =>
    match t.get? place with
    | some entry => .ok (place, entry)
    | none => .error (.os .noEntry)

def exists? (t : FileTree) (here : Place) (p : Path) : Bool := (t.find here p).isOk

def isFile (t : FileTree) (here : Place) (p : Path) : Bool :=
  match t.find here p with
  | .ok (_, .file _ _) => true
  | _ => false

def isDir (t : FileTree) (here : Place) (p : Path) : Bool :=
  match t.find here p with
  | .ok (_, .dir) => true
  | _ => false

/-- Whether a path leads to a file that may be run. -/
def isExecutable (t : FileTree) (here : Place) (p : Path) : Bool :=
  match t.find here p with
  | .ok (_, .file _ executable) => executable
  | _ => false

/-- The place of the file that a path leads to, which has to be one that may be run. -/
def program (t : FileTree) (here : Place) (p : Path) : Except Errno Place :=
  match t.find here p with
  | .error (.os cause) => .error cause
  | .error _ => .error .noEntry
  | .ok (place, .file _ true) => .ok place
  | .ok _ => .error .accessDenied

/-- The directory that holds the last name of a way. -/
def parentOf (t : FileTree) (here : Place) (route : Route) : Except SystemError Place :=
  match t.walk true linkLimit (route.start here) route.steps.dropLast with
  | .found place =>
    match t.get? place with
    | some .dir => .ok place
    | some _ => .error (.os .notDirectory)
    | none => .error (.os .noEntry)
  | .failed cause => .error (.os cause)
  | _ => .error (.os .noEntry)

end FileTree
end BootVolume
