import Mathlib.Data.List.Find
import BootVolume.Process.SearchPath
import BootVolume.Proofs.Delivery
import BootVolume.Proofs.Footprint

/-!
# Searching for tools

A run makes or removes the volume, and makes directories above it (`Remakes`). Afterwards a tool is
found where it was found before (`find?_eq`), if the paths that are searched keep clear of that
(`ClearOf`).
-/

namespace BootVolume

/-- The place that a step leads to, whatever the files are. -/
def Step.next (place : Place) : Step → Place
  | here => place
  | up => place.dropLast
  | into name => place ++ [name]

def Step.Short : Step → Prop
  | into name => name.bytes.length ≤ nameLimit
  | here | up => True

namespace FileTree

/-- Whether there is a file at a place that may be run. -/
def runnable (t : FileTree) (place : Place) : Bool :=
  match t.get? place with
  | some (.file _ executable) => executable
  | _ => false

/-- The steps lead to a file that may be run. -/
def Runs (t : FileTree) : Place → List Step → Prop
  | place, [] => t.runnable place = true
  | place, step :: rest => t.get? place = some .dir ∧ step.Short ∧ t.Runs (step.next place) rest

/-- Nothing is different but what is below a place, the place itself, which is no file afterwards,
and new directories above it. -/
def Remakes (volume : Place) (t u : FileTree) : Prop :=
  ∀ r, u.get? r = t.get? r ∨ (volume <+: r ∧ volume ≠ r) ∨
    (r <+: volume ∧ (u.get? r = none ∨ u.get? r = some .dir) ∧ (volume ≠ r → t.get? r = none))

/-- The steps do not lead back up from a directory that is in one of two trees alone. Nor do they
lead below the volume, or to a file in its place that may be run. -/
def Avoids (t u : FileTree) (volume : Place) : Place → List Step → Prop
  | place, [] => volume <+: place → place = volume ∧ t.runnable place = false
  | place, step :: rest =>
    (step = .up → (t.get? place = some .dir ↔ u.get? place = some .dir)) ∧
      Avoids t u volume (step.next place) rest

instance decidableAvoids (t u : FileTree) (volume : Place) :
    (place : Place) → (steps : List Step) → Decidable (t.Avoids u volume place steps)
  | _, [] => inferInstanceAs (Decidable (_ → _))
  | place, step :: rest =>
    have := decidableAvoids t u volume (step.next place) rest
    inferInstanceAs (Decidable (_ ∧ _))

/-- A path from the current directory keeps clear of what is different in two trees. -/
def ClearOf (t u : FileTree) (volume here : Place) (p : Path) : Prop :=
  ∀ route ∈ p.route?.toOption, t.Avoids u volume (route.start here) route.allSteps

instance (t u : FileTree) (volume here : Place) (p : Path) :
    Decidable (t.ClearOf u volume here p) :=
  inferInstanceAs (Decidable (∀ _ ∈ _, _))

variable {t u : FileTree} {volume place here : Place} {steps : List Step} {p : Path}

lemma not_runs_of_missing (h : t.get? place = none) : ¬t.Runs place steps := by
  cases steps with
  | nil => simp [Runs, runnable, h]
  | cons step steps => simp [Runs, h]

lemma runs_iff (ht : t.Linkless) :
    t.Runs place steps ↔ ∃ q, t.advance true place steps = .found q ∧ t.runnable q = true := by
  induction steps generalizing place with
  | nil => simp [Runs, advance]
  | cons step steps ih =>
    unfold Runs advance
    cases hplace : t.get? place with
    | none => simp
    | some e =>
      cases e with
      | file => simp
      | link target => exact absurd hplace (ht _ _)
      | dir =>
        cases step with
        | here => simp [Step.Short, Step.next, ih]
        | up => simp [Step.Short, Step.next, ih]
        | into name =>
          simp only [Step.Short, Step.next, true_and]
          split
          · rename_i hlong
            simp [Nat.not_le.2 hlong]
          · rename_i hshort
            rw [and_iff_right (Nat.not_lt.1 hshort)]
            cases hnext : t.get? (place ++ [name]) with
            | none =>
              have hnot : ¬t.Runs (place ++ [name]) steps := not_runs_of_missing hnext
              simp only [hnot, false_iff]
              split <;> simp
            | some e =>
              cases e with
              | link target => exact absurd hnext (ht _ _)
              | file | dir => exact ih

lemma isExecutable_iff (ht : t.Linkless) :
    t.isExecutable here p = true ↔
      ∃ route, p.route? = .ok route ∧ t.Runs (route.start here) route.allSteps := by
  simp only [runs_iff ht]
  rw [isExecutable, find, locate]
  cases p.route? with
  | error cause => simp
  | ok route =>
    dsimp only
    rw [walk_eq_advance ht]
    simp only [Except.ok.injEq, exists_eq_left']
    cases t.advance true (route.start here) route.allSteps with
    | missing | through | failed => simp
    | found q =>
      simp only [Walk.found.injEq, exists_eq_left', runnable]
      cases t.get? q with
      | none => simp
      | some e => cases e <;> simp

/-- A step that does not lead up starts from a directory if the rest of the way does not fail. -/
lemma runs_cons_here : t.Runs place (.here :: steps) ↔ steps ≠ [] ∧ t.Runs place steps := by
  cases steps with
  | nil =>
    simp only [Runs, runnable, Step.next, ne_eq, not_true_eq_false, false_and, iff_false, not_and]
    intro hdir _
    simp [hdir]
  | cons step steps =>
    refine ⟨fun h => ⟨List.cons_ne_nil _ _, h.2.2⟩, fun h => ⟨h.2.1, trivial, h.2⟩⟩

lemma runs_cons_into {name : Name} :
    t.Runs place (.into name :: steps) ↔
      (Step.into name).Short ∧ t.Runs (place ++ [name]) steps := by
  refine ⟨fun h => h.2, fun h => ⟨of_not_not fun hplace => ?_, h⟩⟩
  refine not_runs_of_missing (of_not_not fun hthere => hplace ?_) h.2
  exact get?_eq_dir_of_above (List.prefix_append _ _) (by simp) hthere

/-- Steps that keep clear of the difference lead to a file that may be run in both trees or in
none. -/
lemma Remakes.runs_iff (h : Remakes volume t u) (havoid : t.Avoids u volume place steps) :
    u.Runs place steps ↔ t.Runs place steps := by
  induction steps generalizing place with
  | nil =>
    unfold Runs runnable
    rcases h place with heq | ⟨hbelow, hne⟩ | ⟨-, hu, ht⟩
    · rw [heq]
    · exact absurd (havoid hbelow).1.symm hne
    · have hafter : u.runnable place = false := by
        rcases hu with hu | hu <;> rw [runnable, hu]
      have hbefore : t.runnable place = false := by
        by_cases heq : place = volume
        · exact (havoid (heq ▸ List.prefix_rfl)).2
        · rw [runnable, ht (Ne.symm heq)]
      rw [runnable] at hafter hbefore
      rw [hafter, hbefore]
  | cons step steps ih =>
    obtain ⟨hup, havoid⟩ := havoid
    have hrest := ih havoid
    cases step with
    | here =>
      rw [runs_cons_here, runs_cons_here]
      exact and_congr_right fun _ => hrest
    | up => rw [Runs, Runs, hrest, hup rfl]
    | into name =>
      rw [runs_cons_into, runs_cons_into]
      exact and_congr_right fun _ => hrest

lemma Remakes.isExecutable_eq (h : Remakes volume t u) (ht : t.Linkless) (hu : u.Linkless)
    (hclear : t.ClearOf u volume here p) : u.isExecutable here p = t.isExecutable here p := by
  rw [Bool.eq_iff_iff, isExecutable_iff hu, isExecutable_iff ht]
  refine exists_congr fun route => and_congr_right fun hroute => ?_
  exact h.runs_iff (hclear route (by simp [hroute, Except.toOption]))

/-! ## What a run makes of the volume -/

/-- Deliveries to a volume remake it. -/
lemma Receives.remakes {D : Delivery → Prop} (h : Receives D t u)
    (hD : ∀ δ, D δ → ∃ p, p ≠ [] ∧ δ.place = volume ++ p) : Remakes volume t u := by
  intro r
  cases h r with
  | same heq => exact .inl heq
  | made hδ hnone hdir hway =>
    obtain ⟨p, hp, hplace⟩ := hD _ hδ
    rw [hplace, List.dropLast_append_of_ne_nil hp] at hway
    rcases List.prefix_or_prefix_of_prefix hway (List.prefix_append volume p.dropLast) with
      habove | hbelow
    · exact .inr (.inr ⟨habove, .inr hdir, fun _ => hnone⟩)
    · by_cases heq : volume = r
      · exact .inr (.inr ⟨heq ▸ List.prefix_rfl, .inr hdir, fun _ => hnone⟩)
      · exact .inr (.inl ⟨hbelow, heq⟩)
  | written hδ _ _ heq =>
    obtain ⟨p, hp, hplace⟩ := hD _ hδ
    have hway : volume ++ p <+: r := heq ▸ hplace ▸ prefix_outlet t _
    refine .inr (.inl ⟨(List.prefix_append _ _).trans hway, ?_⟩)
    rintro rfl
    have hlength := hway.length_le
    rw [List.length_append] at hlength
    exact hp (List.eq_nil_of_length_eq_zero (by omega))

lemma zero_not_mem_of_exists? (h : t.exists? here p = true) : 0 ∉ p.bytes := by
  obtain ⟨q, e, hfind⟩ := exists?_eq_true_iff.1 h
  exact zero_not_mem_of_find hfind

lemma walk_of_keep (ht : t.Linkless) (links : Nat) :
    t.walk false links place steps = t.advance true place steps := by
  have hkeep : t.advance false place steps = t.advance true place steps := by
    induction steps generalizing place with
    | nil => rfl
    | cons step steps ih =>
      unfold advance
      split
      · rfl
      · cases step with
        | here => exact ih
        | up => exact ih
        | into name =>
          dsimp only
          split
          · rfl
          split
          · rfl
          · exact absurd ‹_› (ht _ _)
          · exact ih
      · rfl
  rw [walk_of_ne_through fun dir target rest => hkeep ▸ advance_ne_through ht, hkeep]

lemma place_of_locate (ht : t.Linkless) (hp : p.Spells volume)
    (h : t.locate here false p = .ok place) : place = volume := by
  cases hroute : p.route? with
  | error cause =>
    rw [locate, hroute] at h
    cases h
  | ok route =>
    obtain ⟨habs, -, down⟩ := hp.descends hroute
    rw [locate, hroute] at h
    dsimp only at h
    rw [Route.start, if_pos habs, walk_of_keep ht] at h
    cases hwalk : t.advance true [] route.allSteps with
    | found q =>
      rw [hwalk] at h
      cases h
      exact target_eq ht down (by rw [hwalk]; rfl)
    | missing | through | failed =>
      rw [hwalk] at h
      cases h

lemma of_removeDir (h : t.removeDir here p = .ok u) :
    ∃ route dir name, p.route? = .ok route ∧ t.parentOf here route = .ok dir ∧
      route.steps.getLast? = some (.into name) ∧ t.get? (dir ++ [name]) = some .dir ∧
      u = t.erase (dir ++ [name]) := by
  rw [removeDir] at h
  split at h
  · cases h
  rename_i route hroute
  split at h
  · cases h
  rename_i dir hparent
  split at h
  · cases h
  · cases h
  · cases h
  rename_i name hlast
  split at h
  · split at h
    · cases h
      exact ⟨route, dir, name, hroute, hparent, hlast, ‹_›, rfl⟩
    · cases h
  · cases h
  · cases h

lemma removeDir_spec (ht : t.Linkless) (hp : p.Spells volume) (h : t.removeDir here p = .ok u) :
    volume ≠ [] ∧ u = t.erase volume := by
  obtain ⟨route, dir, name, hroute, hparent, hlast, -, rfl⟩ := of_removeDir h
  obtain ⟨rfl, -⟩ := parentOf_spec ht hp hroute hparent hlast
  exact ⟨by simp, rfl⟩

lemma Linkless.clear (ht : t.Linkless) (place : Place) : (t.clear place).Linkless := by
  intro r target hr
  rw [get?_clear] at hr
  split at hr
  · cases hr
  · exact ht r target hr

/-- Whatever comes of it, removing takes away nothing but what is at a place and below it. -/
lemma remove_spec (ht : t.Linkless) (hp : p.Spells volume) (here r : Place) :
    (t.remove here p).1.get? r = t.get? r ∨
      volume <+: r ∧ (t.remove here p).1.get? r = none := by
  have erased {t u : FileTree} (hne : volume ≠ [])
      (h : u.get? r = t.get? r ∨ volume <+: r ∧ u.get? r = none) :
      (u.erase volume).get? r = t.get? r ∨ volume <+: r ∧ (u.erase volume).get? r = none := by
    rw [get?_erase _ hne]
    by_cases hr : volume <+: r
    · rw [if_pos (List.isPrefixOf_iff_prefix.2 hr)]
      exact .inr ⟨hr, rfl⟩
    · rw [if_neg (mt List.isPrefixOf_iff_prefix.1 hr)]
      exact h
  have cleared : (t.clear volume).get? r = t.get? r ∨
      volume <+: r ∧ (t.clear volume).get? r = none := by
    rw [get?_clear]
    split
    · rename_i h
      exact .inr ⟨List.isPrefixOf_iff_prefix.1 h.1, rfl⟩
    · exact .inl rfl
  rw [remove]
  split
  · exact .inl rfl
  split
  · exact .inl rfl
  rename_i place hlocate
  obtain rfl := place_of_locate ht hp hlocate
  split
  · rw [removeDirAll]
    split
    · rename_i u hremoved
      obtain ⟨hne, rfl⟩ := removeDir_spec (ht.clear _) hp hremoved
      exact erased hne cleared
    · exact cleared
  · rename_i hdir
    refine erased ?_ (.inl rfl)
    rintro rfl
    exact hdir (get?_root t)

/-- Removing a volume remakes it, and makes no links. -/
lemma remakes_remove (ht : t.Linkless) (hp : p.Spells volume) :
    Remakes volume t (t.remove here p).1 ∧ (t.remove here p).1.Linkless := by
  refine ⟨fun r => ?_, fun r target hlink => ?_⟩
  · rcases remove_spec ht hp here r with heq | ⟨hbelow, hnone⟩
    · exact .inl heq
    · by_cases heq : volume = r
      · exact .inr (.inr ⟨heq ▸ List.prefix_rfl, .inl hnone, fun hne => absurd heq hne⟩)
      · exact .inr (.inl ⟨hbelow, heq⟩)
  · rcases remove_spec ht hp here r with heq | ⟨-, hnone⟩
    · exact ht r target (heq ▸ hlink)
    · rw [hnone] at hlink
      cases hlink

end FileTree

namespace SearchPath

open FileTree

lemma find?_eq {t u : FileTree} {volume here : Place} {searchPath : Bytes} {home : Path}
    {tool : String} (h : Remakes volume t u) (ht : t.Linkless) (hu : u.Linkless)
    (htool : (Path.ofString tool).components.length ≤ 1)
    (hclear : ∀ p ∈ candidates searchPath home (.ofString tool), t.ClearOf u volume here p) :
    find? u searchPath home here tool = find? t searchPath home here tool := by
  have hsame : (candidates searchPath home (.ofString tool)).find? (u.isExecutable here ·) =
      (candidates searchPath home (.ofString tool)).find? (t.isExecutable here ·) :=
    List.find?_congr fun p hp => h.isExecutable_eq ht hu (hclear p hp)
  simp [find?, Nat.not_lt.2 htool, hsame]

end SearchPath
end BootVolume
