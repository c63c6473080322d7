import BootVolume.Rehearsal
import BootVolume.Text.Lines

/-!
# Snapshots

The files of a project as a text. Each entry has a line with a letter and its path: `d` a
directory, `f` a file, `x` a file that may be run, `l` a symbolic link. The lines that begin with a
blank belong to the entry before them: they are the content of a file, and the first one is the
target of a link.
-/

namespace BootVolume.Snapshot

def isContent (line : List Char) : Bool := line.head? = some ' '

/-- The lines that belong to an entry, without their blanks. -/
def contentLines (rest : List (List Char)) : List (List Char) :=
  (rest.takeWhile isContent).map List.tail

def content (rest : List (List Char)) : Bytes :=
  Utf8.encode (.ofList ((contentLines rest).flatMap (· ++ ['\n'])))

def path (chars : List Char) : Path := .ofString (.ofList chars)

def entries : List (List Char) → List Planting
  | [] => []
  | line :: rest =>
    match line with
    | 'd' :: ' ' :: name => .dir (path name) :: entries rest
    | 'f' :: ' ' :: name => .file (path name) (content rest) false :: entries rest
    | 'x' :: ' ' :: name => .file (path name) (content rest) true :: entries rest
    | 'l' :: ' ' :: name =>
      .link (path name) (path ((contentLines rest).headD [])) :: entries rest
    | _ => entries rest

/-- The tree that a snapshot describes, made in a directory. -/
def plant (tree : FileTree) (dir : Place) (text : String) : FileTree :=
  (entries (textLines text.toList)).foldl (·.plant dir ·) tree

end BootVolume.Snapshot
