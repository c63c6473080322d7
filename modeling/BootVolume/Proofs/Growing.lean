import BootVolume.Proofs.Descent

/-!
# Growing trees

A tree grows when what is there stays of its kind: directories stay, links keep their targets, and
files stay files, though they may get other contents. Whatever a path finds it finds at the same
place in a grown tree, links followed or not (`Grows.find`). Making directories lets a tree grow,
and so does writing a file where one may be opened (`Grows.put`).
-/

namespace BootVolume.FileTree

variable {t u v : FileTree} {here place q r : Place} {p : Path} {e e' : Entry} {follow : Bool}
  {steps : List Step} {links : Nat}

/-! ## Growing -/

structure Grows (t u : FileTree) : Prop where
  dir {r : Place} : t.get? r = some .dir → u.get? r = some .dir
  link {r : Place} {target : Path} :
    t.get? r = some (.link target) → u.get? r = some (.link target)
  file {r : Place} {content : Bytes} {executable : Bool} :
    t.get? r = some (.file content executable) →
      ∃ content executable, u.get? r = some (.file content executable)

/-- How a walk ends in a tree that has grown: as it did, or at the last name, if nothing was there
and now a file is. What failed may come to any end. -/
inductive Resumes (t u : FileTree) : Walk → Walk → Prop
  | found (place : Place) : Resumes t u (.found place) (.found place)
  | through (dir : Place) (target : Path) (rest : List Step) :
    Resumes t u (.through dir target rest) (.through dir target rest)
  | missing {dir : Place} {name : Name} {after : Walk} : t.get? dir = some .dir →
    t.get? (dir ++ [name]) = none →
    (∀ content executable, u.get? (dir ++ [name]) = some (.file content executable) →
      after = .found (dir ++ [name])) →
    Resumes t u (.missing dir name) after
  | failed (cause : Errno) (after : Walk) : Resumes t u (.failed cause) after

lemma Resumes.of_found {after : Walk} (h : Resumes t u (.found place) after) :
    after = .found place := by
  cases h
  rfl

lemma Resumes.of_missing {dir : Place} {name : Name} {after : Walk}
    (h : Resumes t u (.missing dir name) after) :
    t.get? dir = some .dir ∧ t.get? (dir ++ [name]) = none ∧
      ∀ content executable, u.get? (dir ++ [name]) = some (.file content executable) →
        after = .found (dir ++ [name]) := by
  cases h
  exact ⟨‹_›, ‹_›, ‹_›⟩

namespace Grows

lemma refl (t : FileTree) : Grows t t := ⟨id, id, fun h => ⟨_, _, h⟩⟩

lemma advance (h : Grows t u) (follow : Bool) (place : Place) (steps : List Step) :
    Resumes t u (t.advance follow place steps) (u.advance follow place steps) := by
  induction steps generalizing place with
  | nil => exact .found place
  | cons step steps ih =>
    unfold FileTree.advance
    cases hplace : t.get? place with
    | none => exact .failed _ _
    | some entry =>
      cases entry with
      | file | link => exact .failed _ _
      | dir =>
        rw [h.dir hplace]
        cases step with
        | here => exact ih place
        | up => exact ih place.dropLast
        | into name =>
          dsimp only
          split
          · exact .failed _ _
          cases hnext : t.get? (place ++ [name]) with
          | none =>
            cases steps with
            | cons => exact .failed _ _
            | nil =>
              refine .missing hplace hnext fun content executable hfile => ?_
              rw [hfile]
              rfl
          | some next =>
            cases next with
            | dir =>
              rw [h.dir hnext]
              exact ih _
            | file content executable =>
              obtain ⟨content, executable, hfile⟩ := h.file hnext
              rw [hfile]
              exact ih _
            | link target =>
              rw [h.link hnext]
              dsimp only
              split
              · exact .found _
              · exact .through _ _ _

lemma walk (h : Grows t u) (follow : Bool) (links : Nat) (place : Place) (steps : List Step) :
    Resumes t u (t.walk follow links place steps) (u.walk follow links place steps) := by
  induction links using Nat.strongRecOn generalizing place steps with
  | ind links ih =>
    have first := h.advance follow place steps
    unfold FileTree.walk
    generalize t.advance follow place steps = before at first
    generalize u.advance follow place steps = after at first
    cases first with
    | found => exact .found _
    | failed => exact .failed _ _
    | missing hdir hnone hafter =>
      refine .missing hdir hnone fun content executable hfile => ?_
      rw [hafter content executable hfile]
    | through dir target rest =>
      dsimp only
      split
      · exact .failed _ _
      · split
        · exact ih _ (Nat.lt_succ_self _) _ _
        · exact .failed _ _

lemma locate (h : Grows t u) (hlocate : t.locate here follow p = .ok place) :
    u.locate here follow p = .ok place := by
  obtain ⟨route, hroute, hwalk⟩ := locate_eq_ok_iff.1 hlocate
  refine locate_eq_ok_iff.2 ⟨route, hroute, ?_⟩
  exact (hwalk ▸ h.walk follow linkLimit (route.start here) route.allSteps).of_found

/-- What a path found it still finds, whatever has become of it. -/
lemma find (h : Grows t u) (hfind : t.find here p = .ok (place, e))
    (hentry : u.get? place = some e') : u.find here p = .ok (place, e') :=
  find_eq_ok_iff.2 ⟨h.locate (find_eq_ok_iff.1 hfind).1, hentry⟩

lemma isDir (h : Grows t u) (hdir : t.isDir here p = true) : u.isDir here p = true := by
  obtain ⟨place, hfind⟩ := isDir_eq_true_iff.1 hdir
  exact isDir_eq_true_iff.2 ⟨place, h.find hfind (h.dir (find_eq_ok_iff.1 hfind).2)⟩

/-- A file may be written where neither a directory nor a link is. -/
lemma put {content : Bytes} {executable : Bool}
    (admits : t.Admits place (.file content executable))
    (hlink : ∀ target, t.get? place ≠ some (.link target)) :
    Grows t (t.put place (.file content executable)) where
  dir {r} hr := by
    rw [get?_put admits, if_neg, hr]
    rintro rfl
    cases admits.2.2 hr
  link {r target} hr := by
    rw [get?_put admits, if_neg, hr]
    rintro rfl
    exact hlink target hr
  file {r content' executable'} hr := by
    rw [get?_put admits]
    split
    · exact ⟨_, _, rfl⟩
    · exact ⟨_, _, hr⟩

end Grows

/-! ## Making directories -/

/-- Nothing is different but for new directories. -/
def Widens (t u : FileTree) : Prop :=
  ∀ r, u.get? r = t.get? r ∨ t.get? r = none ∧ u.get? r = some .dir

lemma Paves.widens {way : Place} (h : Paves way t u) : Widens t u :=
  fun r => (h r).imp_right fun ⟨hnone, hdir, _⟩ => ⟨hnone, hdir⟩

namespace Widens

lemma refl (t : FileTree) : Widens t t := fun _ => .inl rfl

lemma trans (h : Widens t u) (h' : Widens u v) : Widens t v := by
  intro r
  rcases h r with hr | ⟨hnone, hdir⟩ <;> rcases h' r with hr' | ⟨hnone', hdir'⟩
  · exact .inl (hr'.trans hr)
  · exact .inr ⟨hr ▸ hnone', hdir'⟩
  · exact .inr ⟨hnone, hr'.trans hdir⟩
  · exact .inr ⟨hnone, hdir'⟩

lemma get?_eq (h : Widens t u) (hthere : t.get? r ≠ none) : u.get? r = t.get? r :=
  (h r).resolve_right fun ⟨hnone, _⟩ => hthere hnone

/-- What is no directory was there before. -/
lemma get?_of_ne_dir (h : Widens t u) (hentry : u.get? r = some e) (hdir : e ≠ .dir) :
    t.get? r = some e := by
  rcases h r with heq | ⟨-, hmade⟩
  · rw [← heq, hentry]
  · exact absurd (Option.some.inj (hentry.symm.trans hmade)) hdir

lemma grows (h : Widens t u) : Grows t u where
  dir hr := (h.get?_eq (by simp [hr])).trans hr
  link hr := (h.get?_eq (by simp [hr])).trans hr
  file hr := ⟨_, _, (h.get?_eq (by simp [hr])).trans hr⟩

lemma find (h : Widens t u) (hfind : t.find here p = .ok (place, e)) :
    u.find here p = .ok (place, e) := by
  have hentry := (find_eq_ok_iff.1 hfind).2
  exact h.grows.find hfind ((h.get?_eq (by simp [hentry])).trans hentry)

end Widens

lemma widens_makeDir (h : t.makeDir here p = .ok u) : Widens t u := by
  rw [makeDir] at h
  split at h
  · cases h
  split at h
  · cases h
  rename_i dir hparent
  split at h
  · rename_i name hlast
    split_ifs at h with _ hfree
    cases h
    exact (paves_put ⟨by simp, by simpa using (parentOf_eq_ok_iff.1 hparent).2, fun _ => rfl⟩
      (by simpa using hfree)).widens
  · cases h

/-- Whatever comes of it, only directories are made. -/
lemma widens_makeChain (ps : List Path) : Widens t (t.makeChain here ps).1 := by
  induction ps with
  | nil => exact .refl t
  | cons p above ih =>
    rw [makeChain]
    split
    · exact .refl t
    split
    · exact widens_makeDir ‹_›
    split
    · exact .refl t
    split
    · rename_i u cause hchain
      rwa [hchain] at ih
    · rename_i u hchain
      rw [hchain] at ih
      split
      · exact ih.trans (widens_makeDir ‹_›)
      · exact ih

lemma widens_makeDirs (t : FileTree) (here : Place) (p : Path) :
    Widens t (t.makeDirs here p).1 :=
  widens_makeChain p.ancestors

/-! ## Opening files -/

/-- Where a file is opened there is one, or nothing, in a directory. The path finds whatever file is
there later on. -/
structure Opens (t : FileTree) (here : Place) (p : Path) (place : Place) : Prop where
  admits (content : Bytes) (executable : Bool) : t.Admits place (.file content executable)
  unlinked (target : Path) : t.get? place ≠ some (.link target)
  find {u : FileTree} {content : Bytes} {executable : Bool} : Grows t u →
    u.get? place = some (.file content executable) →
      u.find here p = .ok (place, .file content executable)

lemma opens_of_openPlace (h : t.openPlace here p = .ok place) : Opens t here p place := by
  obtain ⟨route, hroute, hslash, opens⟩ := openPlace_eq_ok_iff.1 h
  have hsteps : route.allSteps = route.steps := by rw [Route.allSteps, if_neg (by simp [hslash])]
  have found {u : FileTree} {content : Bytes} {executable : Bool}
      (hwalk : u.walk true linkLimit (route.start here) route.steps = .found place)
      (hfile : u.get? place = some (.file content executable)) :
      u.find here p = .ok (place, .file content executable) :=
    find_eq_ok_iff.2 ⟨locate_eq_ok_iff.2 ⟨route, hroute, hsteps ▸ hwalk⟩, hfile⟩
  have resumes {u : FileTree} (hu : Grows t u) :=
    hu.walk true linkLimit (route.start here) route.steps
  generalize t.walk true linkLimit (route.start here) route.steps = walk at opens resumes
  cases opens with
  | free dir name =>
    obtain ⟨hdir, hnone, -⟩ := (resumes (.refl t)).of_missing
    exact ⟨fun _ _ => ⟨by simp, by simpa using hdir, by simp [hnone]⟩, by simp [hnone],
      fun hu hfile => found ((resumes hu).of_missing.2.2 _ _ hfile) hfile⟩
  | there hfile =>
    have hne : place ≠ [] := by
      rintro rfl
      simp at hfile
    exact ⟨fun _ _ => ⟨hne, get?_dropLast hne (by simp [hfile]), by simp [hfile]⟩,
      by simp [hfile], fun hu hfile => found (resumes hu).of_found hfile⟩

end BootVolume.FileTree
