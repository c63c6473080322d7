import Mathlib.Data.List.Infix
import BootVolume.Program
import BootVolume.Proofs.Contents
import BootVolume.Proofs.Restaging

/-!
# Upwards to the project root

The ancestors of an absolute path are the path and the directories that its names go through, the
deepest one first (`Path.names_ancestors`). The project root is the first of them that holds the
kernel's sources, and it is the same from everywhere between it and the path
(`projectRoot_nearest`). How the path is written makes no difference but to how the project root is
(`projectRoot_respelled`).
-/

namespace BootVolume

namespace Path

lemma parent?_of_root {p : Path} (habs : p.isAbsolute = true) (hnames : p.names = []) :
    p.parent? = none := by
  obtain ⟨rest, hsegs⟩ := segments_of_isAbsolute habs
  have hidle : ∀ seg ∈ rest, isIdle seg = true := by
    rw [names, hsegs, List.filter_eq_nil_iff] at hnames
    exact fun seg hseg => by simpa using hnames seg (List.mem_cons_of_mem _ hseg)
  rw [parent?, hsegs, trimIdle_cons, List.rdropWhile_eq_nil_iff.2 hidle]
  rfl

/-- One level up the last name is off, and the bytes are some that the path begins with. -/
lemma exists_above {p : Path} (habs : p.isAbsolute = true) (hnames : p.names ≠ []) :
    ∃ q, p.parent? = some q ∧ q.isAbsolute = true ∧ q.bytes <+: p.bytes ∧
      ∃ last, p.names = q.names ++ [last] := by
  obtain ⟨q, hq, hfront, -⟩ := exists_parent? habs hnames
  obtain ⟨hqabs, hqnames⟩ := names_of_parent? habs hq
  exact ⟨q, hq, hqabs, hfront, _, by rw [hqnames, List.dropLast_concat_getLast hnames]⟩

lemma climb_of_root {p : Path} (habs : p.isAbsolute = true) (hnames : p.names = [])
    (steps : Nat) : ancestors.climb steps p = [p] := by
  cases steps <;> simp [ancestors.climb, parent?_of_root habs hnames]

/-- The root is reached in as many steps as there are names, and more lead no further. -/
lemma climb_eq {p : Path} (habs : p.isAbsolute = true) {steps more : Nat}
    (hsteps : p.names.length ≤ steps) (hmore : p.names.length ≤ more) :
    ancestors.climb steps p = ancestors.climb more p := by
  induction steps generalizing p more with
  | zero =>
    have hnames := List.eq_nil_of_length_eq_zero (Nat.le_zero.1 hsteps)
    rw [climb_of_root habs hnames, climb_of_root habs hnames]
  | succ steps ih =>
    by_cases hnames : p.names = []
    · rw [climb_of_root habs hnames, climb_of_root habs hnames]
    · obtain ⟨q, hq, hqabs, -, last, hlast⟩ := exists_above habs hnames
      have hlength : p.names.length = q.names.length + 1 := by simp [hlast]
      obtain ⟨more, rfl⟩ := Nat.exists_eq_add_of_le' (Nat.le_of_add_left_le (hlength ▸ hmore))
      have hsame : ancestors.climb steps q = ancestors.climb more q :=
        ih hqabs (by omega) (by omega)
      rw [ancestors.climb, ancestors.climb, hq, Option.elim_some, Option.elim_some, hsame]

lemma ancestors_of_parent? {p q : Path} (habs : p.isAbsolute = true) (hq : p.parent? = some q) :
    p.ancestors = p :: q.ancestors := by
  have hnames : p.names ≠ [] := by
    intro hnil
    rw [parent?_of_root habs hnil] at hq
    cases hq
  obtain ⟨hqabs, hqnames⟩ := names_of_parent? habs hq
  have hfew (p : Path) : p.names.length ≤ p.segments.length := List.length_filter_le _ _
  rw [ancestors, ancestors, climb_eq habs (hfew p) (Nat.le_succ_of_le (hfew p)),
    ancestors.climb, hq, Option.elim_some]
  congr 1
  refine climb_eq hqabs ?_ (hfew q)
  rw [hqnames]
  exact (List.dropLast_prefix _).length_le.trans (hfew p)

/-- Induction over the ancestors of an absolute path, from the root down. -/
@[elab_as_elim]
lemma descend {motive : (p : Path) → p.isAbsolute = true → Prop}
    (root : ∀ p habs, p.ancestors = [p] → p.names = [] → motive p habs)
    (below : ∀ p q habs hqabs, p.ancestors = p :: q.ancestors → q.bytes <+: p.bytes →
      (∃ last, p.names = q.names ++ [last]) → motive q hqabs → motive p habs)
    (p : Path) (habs : p.isAbsolute = true) : motive p habs := by
  generalize hlength : p.names.length = length
  induction length generalizing p with
  | zero =>
    have hnames := List.eq_nil_of_length_eq_zero hlength
    exact root p habs (climb_of_root habs hnames _) hnames
  | succ length ih =>
    have hnames : p.names ≠ [] := List.ne_nil_of_length_eq_add_one hlength
    obtain ⟨q, hq, hqabs, hfront, last, hlast⟩ := exists_above habs hnames
    rw [hlast, List.length_append] at hlength
    exact below p q habs hqabs (ancestors_of_parent? habs hq) hfront ⟨last, hlast⟩
      (ih q hqabs (Nat.succ.inj hlength))

/-- The names of the ancestors of an absolute path are the fronts of its own, from the whole of them
to none. -/
lemma names_ancestors {p : Path} (habs : p.isAbsolute = true) :
    p.ancestors.map names = p.names.inits.reverse := by
  induction p, habs using descend with
  | root p habs hself hnames => simp [hself, hnames]
  | below p q habs hqabs habove _ hnames ih =>
    obtain ⟨last, hnames⟩ := hnames
    simp [habove, ih, hnames, List.inits_append]

lemma bytes_prefix_of_mem_ancestors {p : Path} (habs : p.isAbsolute = true) :
    ∀ q ∈ p.ancestors, q.bytes <+: p.bytes := by
  induction p, habs using descend with
  | root p habs hself => simp [hself]
  | below p above habs _ habove hfront _ ih =>
    rw [habove]
    exact List.forall_mem_cons.2 ⟨List.prefix_rfl, fun q hq => (ih q hq).trans hfront⟩

variable {holds : Path → Bool} {p r : Path}

lemma prefix_of_find? (habs : p.isAbsolute = true) (h : p.ancestors.find? holds = some r) :
    ∀ q ∈ p.ancestors, holds q = true → q.names <+: r.names := by
  induction p, habs using descend with
  | root p habs hself =>
    rw [hself] at h ⊢
    obtain rfl := List.mem_singleton.1 (List.mem_of_find?_eq_some h)
    intro q hq _
    rw [List.mem_singleton.1 hq]
  | below p above habs habsabove habove _ _ ih =>
    rw [habove] at h ⊢
    intro q hq hholds
    by_cases hp : holds p = true
    · rw [List.find?_cons_of_pos hp] at h
      obtain rfl := Option.some.inj h
      rw [← habove] at hq
      exact (names_of_mem_ancestors habs hq).2
    · rw [List.find?_cons_of_neg hp] at h
      obtain rfl | hq := List.mem_cons.1 hq
      · exact absurd hholds hp
      · exact ih h q hq hholds

/-- From everywhere between it and the path the same ancestor is the first. -/
lemma find?_between (habs : p.isAbsolute = true) (h : p.ancestors.find? holds = some r) :
    ∀ q ∈ p.ancestors, r.names <+: q.names → q.ancestors.find? holds = some r := by
  induction p, habs using descend with
  | root p habs hself =>
    intro q hq _
    rw [hself] at hq
    rwa [List.mem_singleton.1 hq]
  | below p above habs habsabove habove _ hnames ih =>
    intro q hq hbelow
    have h' := h
    rw [habove] at hq h'
    obtain rfl | hq := List.mem_cons.1 hq
    · exact h
    by_cases hp : holds p = true
    · rw [List.find?_cons_of_pos hp] at h'
      obtain rfl := Option.some.inj h'
      -- The path itself is found, and nothing above it has as many names.
      obtain ⟨last, hnames⟩ := hnames
      have hlength := (hbelow.trans (names_of_mem_ancestors habsabove hq).2).length_le
      rw [hnames, List.length_append, List.length_singleton] at hlength
      exact absurd hlength (Nat.not_succ_le_self _)
    · rw [List.find?_cons_of_neg hp] at h'
      exact ih h' q hq hbelow

end Path

/-! ## The nearest project -/

/-- The directory at a path holds the sources of a kernel. -/
def FileTree.IsProject (t : FileTree) (here : Place) (dir : Path) : Prop :=
  t.isDir here (dir.join (.ofString Layout.kernelSource)) = true

/-- If some ancestor of an absolute path holds the kernel's sources, then the project root is the
deepest one that does, and it is the project root of every ancestor from there down. Otherwise the
project root is the path itself. The project root is its own project root. -/
theorem projectRoot_nearest (t : FileTree) (here : Place) {start : Path}
    (habs : start.isAbsolute = true) :
    let root := projectRoot t here start
    start.ancestors.map Path.names = start.names.inits.reverse ∧
    ((∃ dir ∈ start.ancestors, t.IsProject here dir) →
      root ∈ start.ancestors ∧ t.IsProject here root ∧
      (∀ dir ∈ start.ancestors, t.IsProject here dir → dir.names <+: root.names) ∧
      ∀ dir ∈ start.ancestors, root.names <+: dir.names → projectRoot t here dir = root) ∧
    ((∀ dir ∈ start.ancestors, ¬t.IsProject here dir) → root = start) ∧
    projectRoot t here root = root := by
  intro root
  refine ⟨Path.names_ancestors habs, ?_⟩
  cases hfind : start.ancestors.find? fun dir =>
      t.isDir here (dir.join (.ofString Layout.kernelSource)) with
  | none =>
    have hroot : root = start := by
      change projectRoot t here start = start
      rw [projectRoot, hfind, Option.getD_none]
    refine ⟨?_, fun _ => hroot, ?_⟩
    · rintro ⟨dir, hdir, hholds⟩
      exact absurd hholds (List.find?_eq_none.1 hfind dir hdir)
    · rw [hroot]
      exact hroot
  | some found =>
    have hroot : root = found := by
      change projectRoot t here start = found
      rw [projectRoot, hfind, Option.getD_some]
    rw [hroot]
    have hmem := List.mem_of_find?_eq_some hfind
    have hholds : t.IsProject here found := by
      rw [FileTree.IsProject]
      simpa using List.find?_some hfind
    have hbetween : ∀ dir ∈ start.ancestors, found.names <+: dir.names →
        projectRoot t here dir = found := by
      intro dir hdir hbelow
      rw [projectRoot, Path.find?_between habs hfind dir hdir hbelow, Option.getD_some]
    refine ⟨fun _ => ⟨hmem, hholds, ?_, hbetween⟩, ?_, hbetween found hmem List.prefix_rfl⟩
    · exact Path.prefix_of_find? habs hfind
    · exact fun hnone => absurd hholds (hnone found hmem)

namespace Nested

/-- A project with another one in it, whose kernel is a link to that of the outer one. The inner
one has an application with a file in the place of a kernel. -/
def tree : FileTree :=
  [("outer", .dir), ("outer/pkg", .dir), ("outer/pkg/kernel", .dir), ("outer/inner", .dir),
    ("outer/inner/pkg", .dir), ("outer/inner/pkg/kernel", .link (.ofString "../../pkg/kernel")),
    ("outer/inner/app", .dir), ("outer/inner/app/pkg", .dir),
    ("outer/inner/app/pkg/kernel", .file [] false)].foldl
    (fun t (entry : String × Entry) => t.put (Build.Twins.place entry.1) entry.2) .empty

/-- A directory below the application that is not there. -/
def start : Path := .ofString "/outer//inner/app/src/"

def inner : Path := .ofString "/outer//inner"

lemma evaluated :
    start.isAbsolute = true ∧ inner ∈ start.ancestors ∧
    tree.isDir [] (inner.join (.ofString Layout.kernelSource)) = true ∧
    projectRoot tree [] start = inner := by
  decide +kernel

/-- Below the inner project it is found, in spite of the outer one above. -/
theorem projectRoot_nearest_nested :
    (start.isAbsolute = true ∧ ∃ dir ∈ start.ancestors, tree.IsProject [] dir) ∧
    projectRoot tree [] start = inner ∧
    (∀ dir ∈ start.ancestors, tree.IsProject [] dir → dir.names <+: inner.names) ∧
    (∀ dir ∈ start.ancestors, inner.names <+: dir.names → projectRoot tree [] dir = inner) ∧
    projectRoot tree [] inner = inner := by
  obtain ⟨habs, hmem, hdir, hroot⟩ := evaluated
  have hproject : ∃ dir ∈ start.ancestors, tree.IsProject [] dir := ⟨inner, hmem, hdir⟩
  have hnearest := projectRoot_nearest tree [] habs
  rw [hroot] at hnearest
  obtain ⟨-, hfound, -, hstable⟩ := hnearest
  obtain ⟨-, -, hdeepest, hbetween⟩ := hfound hproject
  exact ⟨⟨habs, hproject⟩, hroot, hdeepest, hbetween, hstable⟩

end Nested

/-! ## Spellings of one directory -/

lemma Descends.filter_here {steps : List Step} {names : Place} (h : Descends steps names) :
    steps.filter (· ≠ .here) = names.map .into := by
  induction h with
  | nil => rfl
  | here _ ih => simpa using ih
  | into name _ ih => simpa using ih

namespace FileTree

open BootVolume.Path

variable {t : FileTree} {links : Nat} {place here : Place} {p q : Path}

/-- The steps lead to a directory. -/
def Enters (t : FileTree) (links : Nat) (place : Place) (steps : List Step) : Prop :=
  ∃ q, t.walk true links place steps = .found q ∧ t.get? q = some .dir

lemma enters_nil : t.Enters links place [] ↔ t.get? place = some .dir := by
  have hstay : t.walk true links place [] = .found place := by
    rw [walk_of_ne_through] <;> simp [advance]
  rw [Enters, hstay]
  simp

lemma enters_here (steps : List Step) :
    t.Enters links place (.here :: steps) ↔ t.Enters links place steps := by
  by_cases hdir : t.get? place = some .dir
  · have hstep : t.advance true place (.here :: steps) = t.advance true place steps := by
      rw [advance, hdir]
    rw [Enters, Enters, walk, hstep, ← walk]
  · constructor
    · rintro ⟨q, hwalk, -⟩
      exact absurd (first_of_walk hwalk).1 hdir
    · intro h
      cases steps with
      | nil => exact absurd (enters_nil.1 h) hdir
      | cons step steps =>
        obtain ⟨q, hwalk, -⟩ := h
        exact absurd (first_of_walk hwalk).1 hdir

/-- After a first step it depends on the others alone what is entered, if the step can be taken. -/
lemma enters_step (links : Nat) (place : Place) (step : Step) :
    (∀ steps, ¬t.Enters links place (step :: steps)) ∨
      ∃ left mid, ∀ steps, t.Enters links place (step :: steps) ↔ t.Enters left mid steps := by
  by_cases hstep : ∃ mid, t.walk true links place [step] = .found mid
  · obtain ⟨mid, hmid⟩ := hstep
    obtain ⟨left, -, hleft⟩ := walk_stretch hmid
    refine .inr ⟨left, mid, fun steps => ?_⟩
    cases steps with
    | nil =>
      rw [enters_nil, Enters, hmid]
      simp
    | cons next steps =>
      rw [Enters, Enters, ← hleft true _ (List.cons_ne_nil _ _)]
      rfl
  · left
    rintro steps ⟨q, hwalk, -⟩
    refine hstep ?_
    cases steps with
    | nil => exact ⟨q, hwalk⟩
    | cons next steps =>
      rw [← List.singleton_append] at hwalk
      obtain ⟨mid, -, hmid, -⟩ := walk_mid (List.cons_ne_nil _ _) hwalk
      exact ⟨mid, hmid⟩

lemma enters_filter (steps : List Step) :
    t.Enters links place steps ↔ t.Enters links place (steps.filter (· ≠ .here)) := by
  -- How many links are left for the other steps depends on the first one alone.
  induction steps generalizing links place with
  | nil => rfl
  | cons step steps ih =>
    by_cases hhere : step = .here
    · rw [hhere, enters_here, ih]
      simp
    · rw [List.filter_cons_of_pos (by simpa using hhere)]
      obtain hnot | ⟨left, mid, hsame⟩ := t.enters_step links place step
      · exact iff_of_false (hnot _) (hnot _)
      · rw [hsame, hsame, ih]

/-- By a path that spells a place a directory is found as by the names of the place alone. -/
lemma isDir_iff_enters (hp : p.Spells place) (hfits : p.Fits) :
    t.isDir here p = true ↔ t.Enters linkLimit [] (place.map .into) := by
  obtain ⟨route, hroute⟩ := hp.exists_route hfits
  obtain ⟨habs, -, down⟩ := hp.descends hroute
  rw [← down.filter_here, ← enters_filter, isDir_eq_true_iff, Enters]
  refine exists_congr fun q => ?_
  simp [find_eq_ok_iff, locate_eq_ok_iff, hroute, Route.start, habs]

/-- With more slashes or dots in its path the same directory is found, if the path does not get too
long for the system. -/
lemma isDir_respelled (hp : p.isAbsolute = true) (hq : q.isAbsolute = true)
    (hsame : p.names = q.names) (hup : dotDot ∉ p.names) (hplength : p.bytes.length ≤ pathLimit)
    (hqlength : q.bytes.length ≤ pathLimit) : t.isDir here p = t.isDir here q := by
  have refused {p : Path} (hzero : 0 ∈ p.bytes) : t.isDir here p = false := by
    refine Bool.eq_false_iff.2 fun hdir => ?_
    obtain ⟨q, hfind⟩ := isDir_eq_true_iff.1 hdir
    obtain ⟨route, hroute, -⟩ := locate_eq_ok_iff.1 (find_eq_ok_iff.1 hfind).1
    exact zero_not_mem_of_route? hroute hzero
  by_cases hzero : 0 ∈ p.bytes
  · obtain ⟨seg, hseg, hmem⟩ := exists_zero_mem_names hzero
    rw [refused hzero, refused (zero_mem_of_names (hsame ▸ hseg) hmem)]
  · have hzero' : 0 ∉ q.bytes := fun hzero' => by
      obtain ⟨seg, hseg, hmem⟩ := exists_zero_mem_names hzero'
      exact hzero (zero_mem_of_names (hsame ▸ hseg) hmem)
    obtain ⟨place, hplace⟩ := exists_names hup hzero
    rw [Bool.eq_iff_iff, isDir_iff_enters ⟨hp, hplace⟩ ⟨bytes_ne_nil hp, hzero, hplength⟩,
      isDir_iff_enters ⟨hq, hsame ▸ hplace⟩ ⟨bytes_ne_nil hq, hzero', hqlength⟩]

end FileTree

lemma find?_map_congr {α β : Type} {f : α → β} {holds : α → Bool} {xs ys : List α}
    (hsame : xs.map f = ys.map f) (hholds : ∀ x ∈ xs, ∀ y ∈ ys, f x = f y → holds x = holds y) :
    (xs.find? holds).map f = (ys.find? holds).map f := by
  induction xs generalizing ys with
  | nil =>
    obtain rfl := List.map_eq_nil_iff.1 hsame.symm
    rfl
  | cons x xs ih =>
    obtain ⟨y, ys, rfl, hxy, hrest⟩ := List.map_eq_cons_iff.1 hsame.symm
    have hhead := hholds x List.mem_cons_self y List.mem_cons_self hxy.symm
    have ih := ih hrest.symm fun x hx y hy =>
      hholds x (List.mem_cons_of_mem _ hx) y (List.mem_cons_of_mem _ hy)
    cases hx : holds x with
    | true => simp [List.find?_cons_of_pos, hx, ← hhead, hxy]
    | false => simp [List.find?_cons_of_neg, hx, ← hhead, ih]

/-- More slashes or dots in a path make no difference to the project root but in how it is written,
as long as no path gets too long for the system. -/
theorem projectRoot_respelled (t : FileTree) (here : Place) {p q : Path}
    (hp : p.isAbsolute = true) (hq : q.isAbsolute = true) (hsame : p.names = q.names)
    (hup : Path.dotDot ∉ p.names)
    (hplength : p.bytes.length + (Path.ofString Layout.kernelSource).bytes.length < pathLimit)
    (hqlength : q.bytes.length + (Path.ofString Layout.kernelSource).bytes.length < pathLimit) :
    (projectRoot t here p).names = (projectRoot t here q).names := by
  have hrelative : (Path.ofString Layout.kernelSource).isAbsolute = false := by decide
  have hfree : Path.dotDot ∉ (Path.ofString Layout.kernelSource).names := by decide
  have hshort {p dir : Path} (hp : p.isAbsolute = true)
      (hlength : p.bytes.length + (Path.ofString Layout.kernelSource).bytes.length < pathLimit)
      (hdir : dir ∈ p.ancestors) :
      (dir.join (.ofString Layout.kernelSource)).bytes.length ≤ pathLimit := by
    have hjoin := Path.length_join_le dir (.ofString Layout.kernelSource)
    have hfront := (Path.bytes_prefix_of_mem_ancestors hp dir hdir).length_le
    omega
  have hfound : (p.ancestors.find? fun dir =>
        t.isDir here (dir.join (.ofString Layout.kernelSource))).map Path.names =
      (q.ancestors.find? fun dir =>
        t.isDir here (dir.join (.ofString Layout.kernelSource))).map Path.names := by
    refine find?_map_congr ?_ fun dir hdir dir' hdir' hnames => ?_
    · rw [Path.names_ancestors hp, Path.names_ancestors hq, hsame]
    · obtain ⟨habs, hfront⟩ := Path.names_of_mem_ancestors hp hdir
      obtain ⟨habs', -⟩ := Path.names_of_mem_ancestors hq hdir'
      refine FileTree.isDir_respelled (Path.isAbsolute_join habs hrelative)
        (Path.isAbsolute_join habs' hrelative) ?_ ?_ (hshort hp hplength hdir)
        (hshort hq hqlength hdir')
      · rw [Path.names_join hrelative, Path.names_join hrelative, hnames]
      · rw [Path.names_join hrelative, List.mem_append, not_or]
        exact ⟨fun hmem => hup (hfront.subset hmem), hfree⟩
  rw [projectRoot, projectRoot, ← Option.getD_map Path.names, hfound,
    ← Option.getD_map Path.names, hsame]

end BootVolume
