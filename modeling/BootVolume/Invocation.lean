import BootVolume.Config

/-!
# Invocations

An argument vector that starts with the program, and the directory that it is to run in, if not the
project root.
-/

namespace BootVolume

structure Invocation where
  argv : List Bytes
  workdir : Option Path := none
  nonempty : argv ≠ []
  deriving DecidableEq

namespace Invocation

def new (program : Bytes) : Invocation where
  argv := [program]
  nonempty := List.cons_ne_nil _ _

instance : Inhabited Invocation := ⟨new []⟩

def arg (inv : Invocation) (a : Bytes) : Invocation :=
  { inv with
    argv := inv.argv ++ [a]
    nonempty := List.append_ne_nil_of_left_ne_nil inv.nonempty _ }

def addArgs (inv : Invocation) (more : List Bytes) : Invocation :=
  { inv with
    argv := inv.argv ++ more
    nonempty := List.append_ne_nil_of_left_ne_nil inv.nonempty _ }

def inDir (inv : Invocation) (dir : Path) : Invocation := { inv with workdir := some dir }

def program (inv : Invocation) : Bytes := inv.argv.head inv.nonempty

/-- What is handed to the program. -/
def args (inv : Invocation) : List Bytes := inv.argv.tail

/-- The argument vector shown in one line. -/
def commandLine (inv : Invocation) : String := " ".intercalate (inv.argv.map Utf8.lossy)

def display (inv : Invocation) : String :=
  match inv.workdir with
  | none => inv.commandLine
  | some dir => inv.commandLine ++ " in " ++ dir.display

/-- The toolchain's build command for the sources in `dir`. -/
def compile (toolchain : Path) (profile : Profile) (dir : Path) : Invocation :=
  (((new toolchain.bytes).arg (Utf8.encode "build")).addArgs
    (profile.flag?.toList.map Utf8.encode)).inDir dir

variable (inv : Invocation)

theorem getElem?_argv_zero : inv.argv[0]? = some inv.program := by
  rw [← List.head?_eq_getElem?, List.head?_eq_some_head inv.nonempty, program]

@[simp] theorem argv_new (program : Bytes) : (new program).argv = [program] := rfl

@[simp] theorem argv_arg (a : Bytes) : (inv.arg a).argv = inv.argv ++ [a] := rfl

@[simp] theorem argv_addArgs (more : List Bytes) :
    (inv.addArgs more).argv = inv.argv ++ more := rfl

@[simp] theorem argv_inDir (dir : Path) : (inv.inDir dir).argv = inv.argv := rfl

@[simp] theorem args_new (program : Bytes) : (new program).args = [] := rfl

@[simp] theorem args_addArgs (more : List Bytes) :
    (inv.addArgs more).args = inv.args ++ more :=
  List.tail_append_of_ne_nil inv.nonempty

section Compile

variable (toolchain : Path) (profile : Profile) (dir : Path)

/-- The toolchain is handed `build` and the flag of the profile, if that has one. -/
@[simp] theorem argv_compile : (compile toolchain profile dir).argv =
    toolchain.bytes :: Utf8.encode "build" :: profile.flag?.toList.map Utf8.encode := by
  rw [compile, argv_inDir, argv_addArgs, argv_arg, argv_new]
  rfl

@[simp] theorem workdir_compile : (compile toolchain profile dir).workdir = some dir := rfl

end Compile

end Invocation
end BootVolume
