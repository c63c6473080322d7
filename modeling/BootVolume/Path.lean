import BootVolume.Text.Utf8
import BootVolume.Text.Pieces

/-!
# Paths

A path is the bytes that name it. Joining and taking the parent work on those bytes alone: nothing
is looked up and nothing is normalised beyond what a rule below says.
-/

namespace BootVolume

structure Path where
  bytes : Bytes
  deriving DecidableEq, Inhabited

namespace Path

def slash : UInt8 := 0x2F
def dot : Bytes := [0x2E]
def dotDot : Bytes := [0x2E, 0x2E]

def ofString (s : String) : Path := ⟨Utf8.encode s⟩

/-- The text shown for a path. -/
def display (p : Path) : String := Utf8.lossy p.bytes

def isAbsolute (p : Path) : Bool := p.bytes.head? = some slash

/-- An absolute right side replaces the left one; otherwise a slash stands between the two, unless
the left side is empty or ends in one. -/
def join (p q : Path) : Path :=
  if q.isAbsolute then q
  else if p.bytes.getLast?.all (· = slash) then ⟨p.bytes ++ q.bytes⟩
  else ⟨p.bytes ++ slash :: q.bytes⟩

/-- The bytes between slashes. -/
def segments (p : Path) : List Bytes := pieces (· = slash) p.bytes

def ofSegments (segs : List Bytes) : Path := ⟨[slash].intercalate segs⟩

/-- Empty segments and `.` say nothing about where a path leads. -/
def isIdle (seg : Bytes) : Bool := seg.isEmpty || seg = dot

/-- The components of a path: the root if it is absolute, a leading `.`, and every segment that is
not idle. -/
inductive Component where
  | root
  | here
  | up
  | name (bytes : Bytes)
  deriving DecidableEq

def Component.ofSegment (seg : Bytes) : Component :=
  if seg = dotDot then .up else .name seg

def components (p : Path) : List Component :=
  match p.segments with
  | [] => []
  | first :: rest =>
    let start : List Component :=
      if p.isAbsolute then [.root]
      else if first = dot then [.here]
      else if first.isEmpty then []
      else [.ofSegment first]
    start ++ (rest.filter (!isIdle ·)).map .ofSegment

/-- The segments without the idle ones at the end. The first segment of several stays: it says
that the path is absolute or begins with `.`. -/
def trimIdle (segs : List Bytes) : List Bytes :=
  match segs with
  | [] => []
  | first :: rest => first :: (rest.reverse.dropWhile isIdle).reverse

/-- The path without its last component; the root and the empty path have none. -/
def parent? (p : Path) : Option Path :=
  match trimIdle p.segments with
  | [] => none
  | [only] =>
    if only.isEmpty then none else some ⟨[]⟩
  | segs =>
    match trimIdle segs.dropLast with
    | [[]] => some ⟨[slash]⟩
    | segs => some (ofSegments segs)

/-- The path, its parent, the parent of that, and so on. -/
def ancestors (p : Path) : List Path :=
  climb p.segments.length p
where
  climb : Nat → Path → List Path
    | 0, p => [p]
    | steps + 1, p => p :: (p.parent?.elim [] (climb steps))

/-- The last component, if it is a name. -/
def fileName? (p : Path) : Option Bytes :=
  match p.components.getLast? with
  | some (.name bytes) => some bytes
  | _ => none

end Path
end BootVolume
