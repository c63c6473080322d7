import Mathlib.Data.List.Find
import Mathlib.Data.List.Infix
import BootVolume.Main
import BootVolume.Proofs.Anchoring
import BootVolume.Proofs.Parents
import BootVolume.Proofs.Places

/-!
# Anywhere inside the project

The command does the same from every directory inside the project as from its root
(`answer_inside`). The root is found from below it (`projectRoot_of_holds`), and from there on all
paths are absolute.
-/

namespace BootVolume

open Layout (kernelSource toolchain hypervisor)

/-- A directory holds the sources of the kernel. -/
def FileTree.HoldsKernel (t : FileTree) (dir : Place) : Prop :=
  t.isDir [] (dir.path.join (.ofString kernelSource)) = true

/-! ## The root of the project -/

namespace Place

lemma segments_append_path (front : Bytes) (place : Place) :
    Path.segments ⟨front ++ place.flatMap fun name => Path.slash :: name.bytes⟩ =
      Path.segments ⟨front⟩ ++ place.map (·.bytes) := by
  induction place generalizing front with
  | nil => simp
  | cons name rest ih =>
    rw [List.flatMap_cons, List.cons_append, Path.segments, Path.pieces_append_slash]
    change Path.segments ⟨front⟩ ++ Path.segments ⟨name.bytes ++ _⟩ = _
    rw [ih, Path.segments_name]
    rfl

lemma segments_path {place : Place} (hne : place ≠ []) :
    place.path.segments = [] :: place.map (·.bytes) := by
  rw [path, if_neg (by simpa using hne)]
  exact segments_append_path [] place

lemma not_isIdle (name : Name) : Path.isIdle name.bytes = false := by
  obtain ⟨hempty, hdot, -⟩ := name.isName
  simp [Path.isIdle, hempty, hdot]

lemma segments_path_append (place : Place) (name : Name) :
    (Place.path (place ++ [name])).segments = [] :: (place.map (·.bytes) ++ [name.bytes]) := by
  rw [segments_path (by simp), List.map_append]
  rfl

lemma parent?_path (place : Place) (name : Name) :
    (Place.path (place ++ [name])).parent? = some place.path := by
  have hsegs := segments_path_append place name
  rcases List.eq_nil_or_concat place with rfl | ⟨front, last, rfl⟩
  · refine Path.parent?_of_segments hsegs (List.rdropWhile_concat_neg _ _ _ ?_)
    simp [not_isIdle name]
  · rw [List.concat_eq_append] at hsegs ⊢
    have hpointed : (Place.path (front ++ [last])).Pointed :=
      ⟨_ :: _, _, segments_path_append front last, not_isIdle last⟩
    refine Path.parent?_of_pointed (spells_path _).absolute hpointed (not_isIdle name) ?_
    rw [hsegs, segments_path (by simp)]
    rfl

end Place

section Root

variable {t : FileTree} {r c : Place}

lemma find?_climb {holds : Path → Bool} (hbelow : r <+: c) (hr : holds r.path = true)
    (hbetween : ∀ d : Place, r <+: d → d <+: c → d ≠ r → holds d.path = false) {steps : Nat}
    (hsteps : c.length ≤ steps) :
    (Path.ancestors.climb steps c.path).find? holds = some r.path := by
  induction c using List.reverseRecOn generalizing steps with
  | nil =>
    obtain rfl := List.prefix_nil.1 hbelow
    cases steps <;> rw [Path.ancestors.climb, List.find?_cons_of_pos hr]
  | append_singleton c name ih =>
    rw [List.length_append, List.length_singleton] at hsteps
    obtain ⟨steps, rfl⟩ := Nat.exists_eq_add_of_le' (Nat.le_of_add_left_le hsteps)
    rw [Path.ancestors.climb]
    by_cases heq : c ++ [name] = r
    · rw [heq, List.find?_cons_of_pos hr]
    · have hnot := hbetween _ hbelow List.prefix_rfl heq
      have habove : r <+: c := (List.prefix_concat_iff.1 hbelow).resolve_left (Ne.symm heq)
      rw [List.find?_cons_of_neg (by simp [hnot]), Place.parent?_path]
      exact ih habove (fun d hrd hdc => hbetween d hrd (hdc.trans (List.prefix_append _ _)))
        (by omega)

lemma projectRoot_of_holds (hbelow : r <+: c) (hr : t.HoldsKernel r)
    (hbetween : ∀ d, r <+: d → d <+: c → d ≠ r → ¬t.HoldsKernel d) (here : Place) :
    projectRoot t here c.path = r.path := by
  have holds (d : Place) : t.isDir here (d.path.join (.ofString kernelSource)) = true ↔
      t.HoldsKernel d := by
    have habs := Path.absolute_join (spells_path d).absolute (.ofString kernelSource)
    rw [FileTree.HoldsKernel, FileTree.isDir_anywhere habs here []]
  have hsteps : c.length ≤ c.path.segments.length := by
    cases c with
    | nil => exact Nat.zero_le _
    | cons name rest =>
      rw [Place.segments_path (List.cons_ne_nil _ _)]
      simp
  rw [projectRoot, Path.ancestors, find?_climb hbelow ((holds r).2 hr) ?_ hsteps,
    Option.getD_some]
  intro d hrd hdc hne
  exact Bool.eq_false_iff.2 fun h => hbetween d hrd hdc hne ((holds d).1 h)

end Root

/-! ## Children from absolute directories -/

namespace SearchPath

lemma expandHome_of_absolute {dir : Path} (hdir : dir.isAbsolute = true) (home : Path) :
    expandHome home dir = dir := by
  obtain ⟨rest, hsegs⟩ := Path.segments_of_isAbsolute hdir
  have hcomponents : dir.components = .root :: (rest.filter (!Path.isIdle ·)).map .ofSegment := by
    rw [Path.components, hsegs]
    dsimp only
    rw [if_pos hdir]
    rfl
  rw [expandHome, hcomponents]

/-- In absolute directories a tool is found from everywhere. -/
lemma find?_anywhere {searchPath : Bytes} (hdirs : ∀ dir ∈ dirs searchPath, dir.isAbsolute = true)
    {tool : String} (htool : (Path.ofString tool).components.length ≤ 1) (home : Path)
    (here here' : Place) (t : FileTree) :
    find? t searchPath home here tool = find? t searchPath home here' tool := by
  have absolute : ∀ p ∈ candidates searchPath home (.ofString tool), p.isAbsolute = true := by
    intro p hp
    obtain ⟨dir, hdir, rfl⟩ := List.mem_map.1 hp
    rw [expandHome_of_absolute (hdirs dir hdir)]
    exact Path.absolute_join (hdirs dir hdir) _
  have same : (candidates searchPath home (.ofString tool)).find? (t.isExecutable here ·) =
      (candidates searchPath home (.ofString tool)).find? (t.isExecutable here' ·) :=
    List.find?_congr fun p hp => FileTree.isExecutable_anywhere (absolute p hp) here here' t
  simp only [find?, Nat.not_lt.2 htool, decide_false, Bool.false_and, Bool.false_eq_true, if_false,
    same]
  cases hfound : (candidates searchPath home (.ofString tool)).find? (t.isExecutable here' ·) with
  | none => rfl
  | some p =>
    have hp := absolute p (List.mem_of_find?_eq_some hfound)
    rw [Option.map_some, Option.map_some, Path.fromRoot, Path.fromRoot, if_pos hp, if_pos hp]

end SearchPath

/-- The machine runs its children in directories of the project, from wherever it is told to. -/
lemma Machine.executor_agree {m : Machine}
    (hdirs : ∀ dir ∈ SearchPath.dirs m.searchPath, dir.isAbsolute = true) (config : Config)
    {root : Path} (hroot : root.isAbsolute = true) (here here' : Place) :
    (m.executor config ⟨here, root⟩).Agree (m.executor config ⟨here', root⟩) where
  execute := by
    have spawns (inv : Invocation) (t : FileTree) :
        m.spawn t here inv (workdir ⟨here, root⟩ inv) =
          m.spawn t here' inv (workdir ⟨here', root⟩ inv) := by
      have hdir : (workdir ⟨here, root⟩ inv).isAbsolute = true := by
        rw [workdir]
        cases inv.workdir with
        | none => exact hroot
        | some dir => exact Path.absolute_join hroot dir
      rw [spawn, spawn, FileTree.find_anywhere hdir here here']
      rfl
    unfold executor Executor.starting
    simp only [spawns]
  locate tool htool t := by
    have hlength : (Path.ofString tool).components.length ≤ 1 := by
      simp only [List.mem_cons, List.not_mem_nil, or_false] at htool
      rcases htool with rfl | rfl <;> decide
    unfold executor Executor.starting
    simp only [SearchPath.find?_anywhere hdirs hlength m.home here here' t]

/-- The command does the same from everywhere inside a project as from its root, whatever it is
asked for: it answers the same and leaves the same files. Inside are the directories with none on
the way up to the root that holds a kernel of its own. -/
theorem answer_inside (m : Machine)
    (hdirs : ∀ dir ∈ SearchPath.dirs m.searchPath, dir.isAbsolute = true) {t : FileTree}
    {r c : Place} (hbelow : r <+: c) (hr : t.HoldsKernel r)
    (hbetween : ∀ d, r <+: d → d <+: c → d ≠ r → ¬t.HoldsKernel d) (args : List Bytes) :
    Command.answer m args c t = Command.answer m args r t := by
  have runs (config : Config) : Program.run m config c t = Program.run m config r t := by
    have hrr := projectRoot_of_holds List.prefix_rfl hr
      (fun d hrd hdr hne => absurd (hdr.eq_of_length_le hrd.length_le) hne) r
    rw [Program.run, Program.run, Program.site, Program.site,
      projectRoot_of_holds hbelow hr hbetween c, hrr]
    have habs := (spells_path r).absolute
    rw [Program.complete_anywhere c r (Machine.executor_agree hdirs config habs c r) habs]
  rw [Command.answer, Command.answer]
  cases CommandLine.read args with
  | error stop => rfl
  | ok config =>
    dsimp only
    rw [runs config]

namespace Command.Sample

/-- A project with a kernel, an application and a volume. -/
def tree : FileTree :=
  ["/project/pkg/kernel", "/project/pkg/app/a", "/project/esp"].foldl
    (fun t dir => t.withDir [] (.ofString dir)) .empty

def root : Place := place (.ofString "project")

def applications : Place := place (.ofString "project/pkg/app")

def cleaning : List Bytes := ["clean", "--boot=esp"].map Utf8.encode

lemma evaluated :
    tree.isDir [] (root.path.join (.ofString kernelSource)) = true ∧
    (∀ d ∈ applications.inits, root <+: d → d ≠ root →
      tree.isDir [] ((Place.path d).join (.ofString kernelSource)) = false) ∧
    (answer machine cleaning root tree).2.get? (root ++ place (.ofString "esp")) = none := by
  decide +kernel

/-- Among the applications the volume of the project is removed, as it is from the root. -/
theorem answer_inside_applications :
    ((∀ dir ∈ SearchPath.dirs machine.searchPath, dir.isAbsolute = true) ∧
      root <+: applications ∧ tree.HoldsKernel root ∧
      ∀ d, root <+: d → d <+: applications → d ≠ root → ¬tree.HoldsKernel d) ∧
    answer machine cleaning applications tree = answer machine cleaning root tree ∧
    (answer machine cleaning applications tree).2.get? (root ++ place (.ofString "esp")) =
      none := by
  have hdirs : ∀ dir ∈ SearchPath.dirs machine.searchPath, dir.isAbsolute = true := by decide
  have hbelow : root <+: applications := by decide
  have hbetween : ∀ d, root <+: d → d <+: applications → d ≠ root → ¬tree.HoldsKernel d := by
    intro d hrd hda hne
    rw [FileTree.HoldsKernel, evaluated.2.1 d ((List.mem_inits _ _).2 hda) hrd hne]
    exact Bool.false_ne_true
  have hsame := answer_inside machine hdirs hbelow evaluated.1 hbetween cleaning
  exact ⟨⟨hdirs, hbelow, evaluated.1, hbetween⟩, hsame, hsame ▸ evaluated.2.2⟩

end Command.Sample
end BootVolume
