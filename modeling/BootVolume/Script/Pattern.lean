import BootVolume.Files.Resolve
import BootVolume.Script.Command

/-!
# Patterns

A pattern is a text in which `*` stands for any text, `?` for any character, and brackets for one of
several, unless they are quoted. A pattern for names stands for the files whose paths fit it.
-/

namespace BootVolume.Script

/-- The characters of a field, each with whether it was quoted. -/
abbrev Field := List (Char × Bool)

def Field.text (field : Field) : List Char := field.map (·.1)

/-- A text in which every character counts as quoted, or none. -/
def Field.ofText (chars : List Char) (quoted : Bool) : Field := chars.map (·, quoted)

namespace Pattern

def classes : List (String × List (Char × Char)) :=
  [("alpha", [('a', 'z'), ('A', 'Z')]), ("digit", [('0', '9')]),
    ("alnum", [('a', 'z'), ('A', 'Z'), ('0', '9')]), ("lower", [('a', 'z')]),
    ("upper", [('A', 'Z')]), ("space", [(' ', ' '), ('\t', '\r')]),
    ("blank", [(' ', ' '), ('\t', '\t')]),
    ("punct", [('!', '/'), (':', '@'), ('[', '\x60'), ('\x7b', '~')]),
    ("cntrl", [('\x00', '\x1f'), ('\x7f', '\x7f')]), ("graph", [('!', '~')]),
    ("print", [(' ', '~')]), ("xdigit", [('0', '9'), ('a', 'f'), ('A', 'F')])]

def class? (field : Field) : Option (List (Char × Char) × Field) :=
  classes.findSome? fun (name, ranges) =>
    let written := ('[' :: ':' :: name.toList) ++ [':', ']']
    if written.isPrefixOf field.text then some (ranges, field.drop written.length) else none

/-- What stands between brackets, and what follows them. A closing bracket that stands first means
itself. -/
def members : (steps : Nat) → (first : Bool) → Field → Option (List (Char × Char) × Field)
  | 0, _, _ => none
  | _ + 1, _, [] => none
  | steps + 1, first, (c, quoted) :: rest =>
    if c = ']' && !quoted && !first then some ([], rest)
    else
      match class? ((c, quoted) :: rest) with
      | some (ranges, rest) => do
        let (others, rest) ← members steps false rest
        return (ranges ++ others, rest)
      | none =>
        match rest with
        | ('-', false) :: (last, lastQuoted) :: after =>
          if last = ']' && !lastQuoted then do
            let (others, rest) ← members steps false rest
            return ((c, c) :: others, rest)
          else do
            let (others, rest) ← members steps false after
            return ((c, last) :: others, rest)
        | _ => do
          let (others, rest) ← members steps false rest
          return ((c, c) :: others, rest)

/-- The choice between brackets that follow an opening one: whether it is meant the other way round,
its ranges, and what follows. -/
def choice? (field : Field) : Option (Bool × List (Char × Char) × Field) :=
  match field with
  | ('!', false) :: rest => (members (rest.length + 1) true rest).map (true, ·)
  | _ => (members (field.length + 1) true field).map (false, ·)

def fitsWithin : (steps : Nat) → Field → List Char → Bool
  | 0, _, _ => false
  | _ + 1, [], text => text.isEmpty
  | steps + 1, (p, quoted) :: pattern, text =>
    if p = '*' && !quoted then
      fitsWithin steps pattern text ||
        match text with
        | [] => false
        | _ :: rest => fitsWithin steps ((p, quoted) :: pattern) rest
    else
      match text with
      | [] => false
      | c :: rest =>
        match if p = '[' && !quoted then choice? pattern else none with
        | some (negated, ranges, after) =>
          (ranges.any (fun r => r.1 ≤ c && c ≤ r.2) != negated) && fitsWithin steps after rest
        | none => (p = c || p = '?' && !quoted) && fitsWithin steps pattern rest

def fits (pattern : Field) (text : List Char) : Bool :=
  fitsWithin (pattern.length + text.length + 1) pattern text

def cutFront (pattern : Field) (longest : Bool) (text : List Char) : List Char :=
  let lengths := List.range (text.length + 1)
  let found := (if longest then lengths.reverse else lengths).find? fun n =>
    fits pattern (text.take n)
  text.drop (found.getD 0)

def cutBack (pattern : Field) (longest : Bool) (text : List Char) : List Char :=
  let lengths := List.range (text.length + 1)
  let found := (if longest then lengths else lengths.reverse).find? fun n =>
    fits pattern (text.drop n)
  text.take (found.getD text.length)

def isPattern (field : Field) : Bool :=
  field.any fun (c, quoted) => !quoted && (c = '*' || c = '?' || c = '[')

/-- The names in a directory that fit a pattern. Hidden names have to be asked for by their dot. -/
def namesIn (tree : FileTree) (dir : Place) (path : List Char) (pattern : Field) :
    List (List Char) :=
  let asked := (if path.isEmpty then ['.'] else path)
  match tree.find dir ⟨toBytes asked⟩ with
  | .ok (place, .dir) =>
    let hidden := pattern.head?.any (·.1 = '.')
    let names := (tree.children place).map fun name => ofBytes name.bytes
    let all := if hidden then ['.'] :: ['.', '.'] :: names else names
    all.filter fun name => (hidden || name.head? ≠ some '.') && fits pattern name
  | _ => []

/-- The paths that fit a pattern, whose parts between slashes are given, behind a path. -/
def pathsFrom (tree : FileTree) (dir : Place) : List Field → (path : List Char) → List (List Char)
  | [], path => [path]
  | part :: rest, path =>
    let last := rest.isEmpty
    let ended (name : List Char) : List Char := path ++ name ++ if last then [] else ['/']
    if isPattern part then
      (namesIn tree dir path part).flatMap fun name =>
        if last || tree.isDir dir ⟨toBytes (path ++ name)⟩ then pathsFrom tree dir rest (ended name)
        else []
    else
      let name := ended part.text
      if last && !(tree.locate dir false ⟨toBytes name⟩).isOk then []
      else pathsFrom tree dir rest name

def paths (tree : FileTree) (dir : Place) (pattern : Field) : List (List Char) :=
  pathsFrom tree dir (pieces (·.1 = '/') pattern) []

end Pattern
end BootVolume.Script
