import BootVolume.Proofs.Job
import BootVolume.Proofs.Spelling

/-!
# Composing invocations

An invocation is made of a program and of additions in any order: single arguments, several at a
time, directories to run in. Its argument vector is the program with all that was given behind it,
and the last directory counts. The line that it is shown as says all of the argument vector, if that
consists of texts without spaces: cut at each space it is the vector again. So a failure that tells
the line tells the vector (`compose_spec`).
-/

namespace BootVolume
namespace Invocation

inductive Addition where
  | arg (a : Bytes)
  | args (more : List Bytes)
  | dir (path : Path)
  deriving DecidableEq

namespace Addition

def apply (inv : Invocation) : Addition → Invocation
  | arg a => inv.arg a
  | args more => inv.addArgs more
  | dir path => inv.inDir path

/-- The arguments that are given. -/
def given : Addition → List Bytes
  | arg a => [a]
  | args more => more
  | dir _ => []

def dir? : Addition → Option Path
  | dir path => some path
  | arg _ | args _ => none

variable (inv : Invocation) (addition : Addition)

lemma argv_apply : (addition.apply inv).argv = inv.argv ++ addition.given := by
  cases addition with
  | arg | args => rfl
  | dir => exact (List.append_nil _).symm

lemma workdir_apply : (addition.apply inv).workdir = addition.dir?.or inv.workdir := by
  cases addition <;> rfl

end Addition

/-- The invocation of a program with additions, one after the other. -/
def compose (program : Bytes) (additions : List Addition) : Invocation :=
  additions.foldl (fun inv addition => addition.apply inv) (new program)

section Composed

variable (inv : Invocation) (additions : List Addition)

lemma argv_foldl : (additions.foldl (fun inv addition => addition.apply inv) inv).argv =
    inv.argv ++ additions.flatMap Addition.given := by
  induction additions generalizing inv with
  | nil => exact (List.append_nil _).symm
  | cons addition rest ih =>
    rw [List.foldl_cons, ih, Addition.argv_apply, List.flatMap_cons, List.append_assoc]

lemma workdir_foldl : (additions.foldl (fun inv addition => addition.apply inv) inv).workdir =
    (additions.filterMap Addition.dir?).getLast?.or inv.workdir := by
  induction additions generalizing inv with
  | nil => rfl
  | cons addition rest ih =>
    rw [List.foldl_cons, ih, Addition.workdir_apply, List.filterMap_cons]
    cases addition.dir? with
    | none => rfl
    | some dir =>
      rw [List.getLast?_cons]
      cases (rest.filterMap Addition.dir?).getLast? <;> rfl

end Composed

/-! ## The line -/

/-- The program and all arguments are texts without spaces. -/
def Legible (inv : Invocation) : Prop :=
  ∀ a ∈ inv.argv, ∃ text : String, a = Utf8.encode text ∧ ' ' ∉ text.toList

/-- What stands between the spaces of the line. -/
def words (inv : Invocation) : List Bytes :=
  (pieces (· = ' ') inv.commandLine.toList).map fun word => Utf8.encode (String.ofList word)

lemma Legible.words_eq {inv : Invocation} (h : inv.Legible) : inv.words = inv.argv := by
  have shown (a : Bytes) (ha : a ∈ inv.argv) :
      Utf8.encode (Utf8.lossy a) = a ∧ ' ' ∉ (Utf8.lossy a).toList := by
    obtain ⟨text, rfl, hspace⟩ := h a ha
    rw [Utf8.lossy_encode]
    exact ⟨rfl, hspace⟩
  have hcut : pieces (· = ' ') inv.commandLine.toList =
      inv.argv.map fun a => (Utf8.lossy a).toList := by
    rw [commandLine, String.toList_intercalate, List.map_map, show " ".toList = [' '] from rfl]
    refine pieces_intercalate (by simp) (by simpa using inv.nonempty) fun word hword c hc => ?_
    obtain ⟨a, ha, rfl⟩ := List.mem_map.1 hword
    exact decide_eq_false fun heq => (shown a ha).2 (heq ▸ hc)
  rw [words, hcut, List.map_map]
  refine (List.map_congr_left fun a ha => ?_).trans (List.map_id _)
  rw [Function.comp_apply, String.ofList_toList, (shown a ha).1, id]

/-- The executor could carry the call out, and its end is reported as the failure of a command. -/
structure FailsAs (executor : Executor) (w : World) (inv : Invocation) (command : String) :
    Prop where
  ended : ∃ outcome, (executor.execute w.calls inv w.tree).result = .ok outcome
  reported : ∃ code, (executor.run inv w).1 = .error (.processFailure command code)

lemma FailsAs.command_eq {executor : Executor} {w : World} {inv : Invocation} {command : String}
    (h : FailsAs executor w inv command) : command = inv.commandLine := by
  obtain ⟨outcome, hended⟩ := h.ended
  obtain ⟨code, hreported⟩ := h.reported
  rw [Executor.run_apply, hended] at hreported
  cases outcome with
  | skipped => cases hreported
  | exited code' =>
    dsimp only [Executor.callFailure?] at hreported
    split at hreported
    · cases hreported
    · cases hreported
      rfl

/-- However it is composed, an invocation has a program at the front of its argument vector and
behind it all arguments in the order in which they were given, and runs in the last of its
directories. If the vector consists of texts without spaces, its line, cut at each space, is the
vector, so two such invocations that fail with the same line have the same vector. -/
theorem compose_spec (program : Bytes) (additions : List Addition) :
    let inv := compose program additions
    (inv.argv ≠ [] ∧ inv.argv[0]? = some inv.program ∧ inv.argv.drop 1 = inv.args) ∧
    inv.argv = program :: additions.flatMap Addition.given ∧
    inv.workdir = (additions.filterMap Addition.dir?).getLast? ∧
    (inv.Legible → inv.words = inv.argv ∧
      ∀ (program' : Bytes) (additions' : List Addition) (executor executor' : Executor)
        (w w' : World) (command : String),
        (compose program' additions').Legible → FailsAs executor w inv command →
        FailsAs executor' w' (compose program' additions') command →
        inv.argv = (compose program' additions').argv) := by
  intro inv
  refine ⟨⟨inv.nonempty, inv.getElem?_argv_zero, List.drop_one⟩, argv_foldl _ _, ?_,
    fun legible => ?_⟩
  · exact (workdir_foldl _ _).trans Option.or_none
  refine ⟨legible.words_eq, fun program' additions' executor executor' w w' command legible' fails
    fails' => ?_⟩
  have hline : inv.commandLine = (compose program' additions').commandLine :=
    fails.command_eq.symm.trans fails'.command_eq
  rw [← legible.words_eq, ← legible'.words_eq, words, words, hline]

/-- Two empty arguments are told apart from one, and from none. -/
example : [[], [[]], [[], []]].map (fun given => (compose [0x61] [.args given]).commandLine) =
    ["a", "a ", "a  "] := by
  decide +kernel

end Invocation
end BootVolume
