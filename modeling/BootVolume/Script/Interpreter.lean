import BootVolume.Files.Resolve

/-!
# Interpreters

A machine whose only program of its own is a shell. Every other file that can be run is a script,
and its first line names the program that runs it, which may be a script again.
-/

namespace BootVolume.Script

/-- How much of a file is looked at for its first line. -/
def headLength : Nat := 256

def isBlankByte (b : UInt8) : Bool := b = 0x20 || b = 0x09

/-- The bytes in front of a NUL. -/
def beforeNul (bytes : Bytes) : Bytes := bytes.takeWhile (· ≠ 0)

/-- A program that runs scripts, and the argument that it is given in front of the script. -/
structure Interpreter where
  path : Path
  argument : Option Bytes
  deriving DecidableEq

def Interpreter.ofLine (line : Bytes) : Interpreter :=
  let line := line.dropWhile isBlankByte
  let name := line.takeWhile fun b => !(isBlankByte b || b = 0)
  match line.drop name.length with
  | [] => { path := ⟨name⟩, argument := none }
  | mark :: rest =>
    let argument := beforeNul (rest.dropWhile isBlankByte)
    { path := ⟨name⟩
      argument := if mark = 0 || (rest.dropWhile isBlankByte).isEmpty then none else some argument }

def trimBlanks (line : Bytes) : Bytes := (line.reverse.dropWhile isBlankByte).reverse

/-- The interpreter that the first line of a file names. The line ends with a line feed; the blanks
in front of that do not belong to it. Without a line feed the name has to end within the bytes that
are looked at, and the last of these is not part of an argument. -/
def interpreter? : Bytes → Option Interpreter
  | 0x23 :: 0x21 :: rest =>
    let seen := rest.take (headLength - 2)
    let line := seen.takeWhile fun b => b ≠ 0x0A && b ≠ 0
    if seen[line.length]? = some 0x0A then
      if line.all isBlankByte then none else some (.ofLine (trimBlanks line))
    else
      let filled := seen ++ List.replicate (headLength - 2 - seen.length) 0
      if (filled.dropWhile isBlankByte).any fun b => isBlankByte b || b = 0 then
        some (.ofLine (trimBlanks filled.dropLast))
      else none
  | _ => none

/-- How often the program of a script may be a script again, counted with the shell. -/
def interpreterLimit : Nat := 6

/-- The arguments that the shell gets in the end when a file is run: those of the file, if that is
the shell itself, or those that its interpreter gets, with the path of the script among them. -/
def callOfFile (shell : Place) (dir : Place) (tree : FileTree) : (limit : Nat) → (path : Path) →
    (program : Place) → (argv : List Bytes) → Except Errno (List Bytes)
  | 0, _, _, _ => .error .loop
  | limit + 1, path, program, argv =>
    if program = shell then .ok argv
    else
      match tree.get? program with
      | some (.file script _) =>
        match interpreter? script with
        | none => .error .execFormat
        | some interpreter =>
          match if interpreter.path.bytes = [] then .error .accessDenied
            else tree.program dir interpreter.path with
          | .error cause => .error cause
          | .ok place =>
            callOfFile shell dir tree limit interpreter.path place
              (interpreter.path.bytes :: interpreter.argument.toList ++ path.bytes :: argv.drop 1)
      | _ => .error .accessDenied

def shellCall (shell : Place) (dir : Place) (tree : FileTree) (path : Path)
    (argv : List Bytes) : Except Errno (List Bytes) :=
  (tree.program dir path).bind fun place =>
    callOfFile shell dir tree interpreterLimit path place argv

end BootVolume.Script
