import Mathlib.Tactic.Lemma
import BootVolume.Files.Operations

/-!
# Opening files

A file is opened where the walk of its path ends, if the path has no slash at its end
(`openPlace_eq_ok_iff`). The target of a link at its end may have one. What is refused there at once
would lead to a directory otherwise, so that no file is opened either way.
-/

namespace BootVolume

/-- How a walk goes on when there are more steps. -/
def Walk.onward (t : FileTree) (follow : Bool) (more : List Step) : Walk → Walk
  | .found place => t.advance follow place more
  | .through dir target rest => .through dir target (rest ++ more)
  | .missing _ _ => .failed .noEntry
  | .failed cause => .failed cause

/-- A walk ends at a file, or where one can be made. -/
inductive Walk.Opens (t : FileTree) : Walk → Place → Prop
  | there {place : Place} {content : Bytes} {executable : Bool} :
    t.get? place = some (.file content executable) → Opens t (.found place) place
  | free (dir : Place) (name : Name) : Opens t (.missing dir name) (dir ++ [name])

@[simp] lemma Walk.not_opens_failed {t : FileTree} {cause : Errno} {q : Place} :
    ¬(failed cause).Opens t q := nofun

namespace FileTree

variable {t : FileTree} {here place q : Place} {p : Path} {steps more : List Step}

/-- Links are followed on the first stretch, even one at its end. -/
lemma advance_stretch (hmore : more ≠ []) (follow : Bool) (place : Place) (steps : List Step) :
    t.advance follow place (steps ++ more) = (t.advance true place steps).onward t follow more := by
  induction steps generalizing place with
  | nil => rfl
  | cons step steps ih =>
    rw [List.cons_append]
    unfold advance
    cases t.get? place with
    | none => rfl
    | some entry =>
      cases entry with
      | file | link => rfl
      | dir =>
        cases step with
        | here => exact ih place
        | up => exact ih place.dropLast
        | into name =>
          dsimp only
          split
          · rfl
          · cases t.get? (place ++ [name]) with
            | none => cases steps <;> simp [hmore, Walk.onward]
            | some next =>
              cases next with
              | file | dir => exact ih _
              | link target => simp [hmore, Walk.onward]

/-- Behind a slash there is no file, and none can be made. -/
lemma not_opens_here (links : Nat) (place : Place) (steps : List Step) :
    ¬(t.walk true links place (steps ++ [.here])).Opens t q := by
  -- A link puts new steps before the rest, so only the number of links goes down.
  induction links using Nat.strongRecOn generalizing place steps with
  | ind links ih =>
    unfold walk
    rw [advance_stretch (List.cons_ne_nil _ _)]
    cases t.advance true place steps with
    | missing | failed => exact Walk.not_opens_failed
    | found mid =>
      rw [Walk.onward]
      unfold advance
      cases hmid : t.get? mid with
      | none => exact Walk.not_opens_failed
      | some entry =>
        cases entry with
        | file | link => exact Walk.not_opens_failed
        | dir =>
          intro opens
          change Walk.Opens t (.found mid) q at opens
          cases opens with
          | there hfile =>
            rw [hmid] at hfile
            cases hfile
    | through dir target rest =>
      rw [Walk.onward]
      dsimp only
      split
      · exact Walk.not_opens_failed
      split
      · rw [← List.append_assoc]
        exact ih _ (Nat.lt_succ_self _) _ _
      · exact Walk.not_opens_failed

lemma opens_openWalk_iff (links : Nat) (place : Place) (steps : List Step) (slash : Bool) :
    (t.openWalk links place steps slash).Opens t q ↔
      slash = false ∧ (t.walk true links place steps).Opens t q := by
  induction links using Nat.strongRecOn generalizing place steps slash with
  | ind links ih =>
    cases slash with
    | true =>
      unfold openWalk
      split <;> simp
    | false =>
      unfold openWalk walk
      cases t.advance true place steps with
      | found | missing | failed => simp
      | through dir target rest =>
        dsimp only
        split
        · simp
        rename_i links
        cases target.route? with
        | error cause => simp
        | ok route =>
          dsimp only
          split
          · rename_i hrest
            rw [ih links (Nat.lt_succ_self _), hrest, List.append_nil, Route.allSteps]
            cases route.slash with
            | false => simp
            | true => simpa using not_opens_here links _ _
          · exact ih links (Nat.lt_succ_self _) _ _ _

lemma openPlace_eq_ok_iff : t.openPlace here p = .ok q ↔
    ∃ route, p.route? = .ok route ∧ route.slash = false ∧
      (t.walk true linkLimit (route.start here) route.steps).Opens t q := by
  rw [openPlace]
  cases hroute : p.route? with
  | error cause => exact ⟨nofun, nofun⟩
  | ok route =>
    simp only [Except.ok.injEq, exists_eq_left', ← opens_openWalk_iff]
    cases t.openWalk linkLimit (route.start here) route.steps route.slash with
    | failed | through => exact ⟨nofun, nofun⟩
    | missing dir name => exact ⟨by rintro ⟨⟩; exact .free dir name, by rintro ⟨⟩; rfl⟩
    | found place =>
      constructor
      · intro h
        dsimp only at h
        split at h
        · cases h
          exact .there ‹_›
        · cases h
        · cases h
      · rintro ⟨hfile⟩
        dsimp only
        rw [hfile]

/-- The target of a link is refused for its slash before it is found to be missing. -/
example : (FileTree.empty.put [⟨[0x61], by decide⟩] (.link (.ofString "b/"))).openPlace []
    (.ofString "a") = .error (.os .isDirectory) := by
  rfl

end FileTree
end BootVolume
