import BootVolume.Proofs.Removing
import BootVolume.Proofs.Restaging
import BootVolume.Proofs.Search
import BootVolume.Proofs.Task

/-!
# Reporting a removal

What is removed by a path is not found by it any more (`FileTree.gone_of_remove`), and what is
refused is still found (`FileTree.exists?_of_failed_remove`), whatever links there are. So the line
that reports a removal (`Task.reportsRemoval_iff_mem`) is right (`Task.removal_reported`), but in a
dry run, which reports what it leaves as well (`Task.removal_reported_in_vain`).
-/

namespace BootVolume
namespace FileTree

variable {t u v : FileTree} {here place q : Place} {p : Path} {follow : Bool} {steps : List Step}
  {links : Nat} {route : Route}

/-! ## Pruned trees -/

/-- Some entries may be gone, and all the others are as they were. -/
def Pruned (t u : FileTree) : Prop := ∀ r, u.get? r = none ∨ u.get? r = t.get? r

lemma pruned_clear (t : FileTree) (place : Place) : Pruned t (t.clear place) := by
  intro r
  rw [get?_clear]
  split
  · exact .inl rfl
  · exact .inr rfl

lemma get?_erase_self (t : FileTree) (hne : place ≠ []) : (t.erase place).get? place = none := by
  rw [get?_erase _ hne, if_pos (List.isPrefixOf_iff_prefix.2 List.prefix_rfl)]

lemma pruned_erase (t : FileTree) (hne : place ≠ []) : Pruned t (t.erase place) := by
  intro r
  rw [get?_erase _ hne]
  split
  · exact .inl rfl
  · exact .inr rfl

namespace Pruned

lemma get?_eq (h : Pruned t u) {r : Place} (hthere : u.get? r ≠ none) : u.get? r = t.get? r :=
  (h r).resolve_left hthere

lemma grows (h : Pruned t u) : Grows u t where
  dir hr := (h.get?_eq (by simp [hr])).symm.trans hr
  link hr := (h.get?_eq (by simp [hr])).symm.trans hr
  file hr := ⟨_, _, (h.get?_eq (by simp [hr])).symm.trans hr⟩

end Pruned

/-- A walk that ends as another one does, unless something was missing on it. -/
inductive Curtailed (full : Walk) : Walk → Prop
  | same : Curtailed full full
  | missing (dir : Place) (name : Name) : Curtailed full (.missing dir name)
  | lost : Curtailed full (.failed .noEntry)

namespace Pruned

lemma advance (h : Pruned t u) (follow : Bool) (place : Place) (steps : List Step) :
    Curtailed (t.advance follow place steps) (u.advance follow place steps) := by
  induction steps generalizing place with
  | nil => exact .same
  | cons step steps ih =>
    unfold FileTree.advance
    rcases h place with hnone | hsame
    · rw [hnone]
      exact .lost
    rw [hsame]
    cases t.get? place with
    | none => exact .same
    | some entry =>
      cases entry with
      | file | link => exact .same
      | dir =>
        cases step with
        | here => exact ih place
        | up => exact ih place.dropLast
        | into name =>
          dsimp only
          split
          · exact .same
          rcases h (place ++ [name]) with hnone | hsame
          · rw [hnone]
            cases steps with
            | nil => exact .missing place name
            | cons => exact .lost
          · rw [hsame]
            cases t.get? (place ++ [name]) with
            | none => exact .same
            | some next =>
              cases next with
              | file | dir => exact ih _
              | link => exact .same

lemma walk (h : Pruned t u) (follow : Bool) (links : Nat) (place : Place) (steps : List Step) :
    Curtailed (t.walk follow links place steps) (u.walk follow links place steps) := by
  induction links using Nat.strongRecOn generalizing place steps with
  | ind links ih =>
    have first := h.advance follow place steps
    unfold FileTree.walk
    generalize u.advance follow place steps = after at first
    cases first with
    | missing => exact .missing _ _
    | lost => exact .lost
    | same =>
      split
      · split
        · exact .same
        · split
          · exact ih _ (Nat.lt_succ_self _) _ _
          · exact .same
      · exact .same

lemma parentOf (h : Pruned t u) {dir : Place} (hparent : t.parentOf here route = .ok dir) :
    u.parentOf here route = .ok dir ∨ u.parentOf here route = .error (.os .noEntry) := by
  obtain ⟨hwalk, hdir⟩ := parentOf_eq_ok_iff.1 hparent
  have hend := h.walk true linkLimit (route.start here) route.steps.dropLast
  rw [hwalk] at hend
  rw [FileTree.parentOf]
  generalize u.walk true linkLimit (route.start here) route.steps.dropLast = after at hend
  cases hend with
  | missing | lost => exact .inr rfl
  | same =>
    dsimp only
    rcases h dir with hnone | hsame
    · rw [hnone]
      exact .inr rfl
    · rw [hsame, hdir]
      exact .inl rfl

end Pruned

/-! ## Ends of walks -/

/-- Where nothing is followed at the end, a walk ends the same way or at a link. -/
lemma advance_unfollowed (t : FileTree) (place : Place) (steps : List Step) :
    t.advance false place steps = t.advance true place steps ∨
      ∃ q target, t.advance false place steps = .found q ∧ t.get? q = some (.link target) := by
  induction steps generalizing place with
  | nil => exact .inl rfl
  | cons step steps ih =>
    unfold advance
    cases t.get? place with
    | none => exact .inl rfl
    | some entry =>
      cases entry with
      | file | link => exact .inl rfl
      | dir =>
        cases step with
        | here => exact ih place
        | up => exact ih place.dropLast
        | into name =>
          dsimp only
          split
          · exact .inl rfl
          cases hnext : t.get? (place ++ [name]) with
          | none => exact .inl rfl
          | some next =>
            cases next with
            | file | dir => exact ih _
            | link target =>
              cases steps with
              | nil => exact .inr ⟨_, target, rfl, hnext⟩
              | cons => exact .inl rfl

/-- What leads somewhere leads to something, be it a link, if nothing is followed at the end. -/
lemma walk_unfollowed (h : t.walk true links place steps = .found q) (hq : t.get? q ≠ none) :
    ∃ r, t.walk false links place steps = .found r ∧ t.get? r ≠ none := by
  induction links using Nat.strongRecOn generalizing place steps with
  | ind links ih =>
    obtain hsame | ⟨r, target, hfound, hlink⟩ := advance_unfollowed t place steps
    · unfold walk at h ⊢
      rw [hsame]
      split at h
      · split at h
        · cases h
        split at h
        · exact ih _ (Nat.lt_succ_self _) h
        · cases h
      · exact ⟨q, h, hq⟩
    · refine ⟨r, ?_, by simp [hlink]⟩
      rw [walk_of_ne_through (by simp [hfound]), hfound]

lemma exists_located (h : t.exists? here p = true) :
    ∃ place, t.locate here false p = .ok place ∧ t.get? place ≠ none := by
  obtain ⟨q, e, hfind⟩ := exists?_eq_true_iff.1 h
  obtain ⟨hlocate, hentry⟩ := find_eq_ok_iff.1 hfind
  obtain ⟨route, hroute, hwalk⟩ := locate_eq_ok_iff.1 hlocate
  obtain ⟨place, hwalk, hthere⟩ := walk_unfollowed hwalk (by simp [hentry])
  exact ⟨place, locate_eq_ok_iff.2 ⟨route, hroute, hwalk⟩, hthere⟩

lemma Pruned.exists?_eq_false (h : Pruned t u) (hlocate : t.locate here false p = .ok place)
    (hgone : u.get? place = none) : u.exists? here p = false := by
  refine Bool.eq_false_iff.2 fun hexists => ?_
  obtain ⟨q, hstill, hthere⟩ := exists_located hexists
  obtain rfl := Except.ok.inj (hlocate.symm.trans (h.grows.locate hstill))
  exact hthere hgone

/-- The last step of a path is taken from the directory before it, with one more on the spot if a
slash ends the path. -/
lemma walk_last {dir : Place} {last : Step} (hparent : t.parentOf here route = .ok dir)
    (hlast : route.steps.getLast? = some last) :
    ∃ left, ∀ follow, t.walk follow linkLimit (route.start here) route.allSteps =
      t.walk follow left dir (last :: if route.slash then [.here] else []) := by
  obtain ⟨front, hsteps⟩ := List.getLast?_eq_some_iff.1 hlast
  have hwalk := (parentOf_eq_ok_iff.1 hparent).1
  rw [hsteps, List.dropLast_concat] at hwalk
  obtain ⟨left, -, hleft⟩ := walk_stretch hwalk
  refine ⟨left, fun follow => ?_⟩
  rw [← hleft follow _ (List.cons_ne_nil _ _), Route.allSteps, hsteps]
  split
  · simp
  · rfl

lemma descends_slash (route : Route) : Descends (if route.slash then [.here] else []) [] := by
  split
  · exact .here .nil
  · exact .nil

/-- A directory that a path steps into at its end is located by it, whatever is followed. -/
lemma locate_into {dir : Place} {name : Name} (hroute : p.route? = .ok route)
    (hparent : t.parentOf here route = .ok dir) (hlast : route.steps.getLast? = some (.into name))
    (hshort : name.bytes.length ≤ nameLimit) (hdir : t.get? (dir ++ [name]) = some .dir)
    (follow : Bool) : t.locate here follow p = .ok (dir ++ [name]) := by
  obtain ⟨left, hleft⟩ := walk_last hparent hlast
  refine locate_eq_ok_iff.2 ⟨route, hroute, ?_⟩
  rw [hleft]
  exact walk_dir (.into name (descends_slash route)) (by simpa using hshort) hdir left

lemma locate_name {dir : Place} {name : Name} (hroute : p.route? = .ok route)
    (hparent : t.parentOf here route = .ok dir) (hlast : route.steps.getLast? = some (.into name))
    (hslash : route.slash = false) (hshort : name.bytes.length ≤ nameLimit)
    (hthere : t.get? (dir ++ [name]) ≠ none) : t.locate here false p = .ok (dir ++ [name]) := by
  obtain ⟨left, hleft⟩ := walk_last hparent hlast
  have hfound : t.advance false dir [.into name] = .found (dir ++ [name]) :=
    advance_name nofun (parentOf_eq_ok_iff.1 hparent).2 hshort hthere
  refine locate_eq_ok_iff.2 ⟨route, hroute, ?_⟩
  rw [hleft, hslash, if_neg Bool.false_ne_true, walk_of_ne_through (by simp [hfound]), hfound]

lemma walk_up (hdir : t.get? place = some .dir) (follow : Bool) (links : Nat) (steps : List Step) :
    t.walk follow links place (.up :: steps) = t.walk follow links place.dropLast steps := by
  have hstep : t.advance follow place (.up :: steps) = t.advance follow place.dropLast steps := by
    rw [advance, hdir]
  rw [walk, hstep, ← walk]

lemma exists?_of_locate (hlocate : t.locate here true p = .ok place)
    (hdir : t.get? place = some .dir) : t.exists? here p = true :=
  exists?_eq_true_iff.2 ⟨place, .dir, find_eq_ok_iff.2 ⟨hlocate, hdir⟩⟩

/-- The last step of a path needs nothing more to be there, if it goes into no entry. -/
lemma exists?_of_not_into {dir : Place} (hroute : p.route? = .ok route)
    (hparent : t.parentOf here route = .ok dir)
    (hlast : ∀ name, route.steps.getLast? ≠ some (.into name)) : t.exists? here p = true := by
  have stay := descends_slash route
  have habove := (parentOf_eq_ok_iff.1 hparent).2
  cases hstep : route.steps.getLast? with
  | none =>
    have hsteps := List.getLast?_eq_none_iff.1 hstep
    have hall : route.allSteps = if route.slash then [.here] else [] := by
      rw [Route.allSteps, hsteps, List.nil_append]
    refine exists?_of_locate (locate_eq_ok_iff.2 ⟨route, hroute, ?_⟩) (get?_root t)
    rw [Route.start, if_pos (Path.absolute_of_steps hroute hsteps), hall]
    exact walk_dir stay (by simp) (get?_root t) linkLimit
  | some step =>
    obtain ⟨left, hleft⟩ := walk_last hparent hstep
    cases step with
    | here =>
      refine exists?_of_locate (locate_eq_ok_iff.2 ⟨route, hroute, ?_⟩) habove
      rw [hleft, walk_dir (.here stay) (by simp) (by simpa using habove), List.append_nil]
    | up =>
      have hupper := get?_eq_dir_of_front (List.dropLast_prefix dir) habove
      refine exists?_of_locate (locate_eq_ok_iff.2 ⟨route, hroute, ?_⟩) hupper
      rw [hleft, walk_up habove, walk_dir stay (by simp) (by simpa using hupper), List.append_nil]
    | into name => exact absurd hstep (hlast name)

/-! ## What a removal leaves -/

/-- A directory that is removed by a path is the one that the path led to. -/
lemma gone_of_removeDir (h : t.removeDir here p = .ok u)
    (hlocate : v.locate here follow p = .ok q) : u.exists? here p = false := by
  obtain ⟨route, dir, name, hroute, hparent, hlast, hdir, rfl⟩ := of_removeDir h
  obtain ⟨_, -, hthere⟩ := parentOf_of_locate hlocate hroute
  have hne : dir ++ [name] ≠ [] := by simp
  have hlocated := locate_into hroute hparent hlast (hthere name hlast).1 hdir false
  exact (pruned_erase t hne).exists?_eq_false hlocated (get?_erase_self t hne)

/-- A directory that is there is not refused for being missing. -/
lemma exists?_of_removeDir (h : t.removeDir here p = .error (.os .noEntry)) :
    t.exists? here p = false := by
  refine Bool.eq_false_iff.2 fun hexists => ?_
  obtain ⟨place, hlocate, -⟩ := exists_located hexists
  obtain ⟨route, hroute, -⟩ := locate_eq_ok_iff.1 hlocate
  obtain ⟨dir, hparent, hthere⟩ := parentOf_of_locate hlocate hroute
  rw [removeDir, hroute] at h
  dsimp only at h
  rw [hparent] at h
  dsimp only at h
  split at h
  · cases h
  · cases h
  · cases h
  rename_i name hlast
  split at h
  · split at h <;> cases h
  · cases h
  · exact (hthere name hlast).2 ‹_›

lemma slash_of_route? (h : p.route? = .ok route) (hslash : route.slash = true) :
    p.bytes.getLast? = some Path.slash := by
  rw [Path.route?] at h
  split_ifs at h
  split at h
  · cases h
    simp only [Bool.and_eq_true, decide_eq_true_eq] at hslash
    exact hslash.1
  · cases h

/-- A directory that was emptied and then refused is still there, unless a link with a slash behind
it led there. -/
lemma exists?_of_refused (hlocate : t.locate here false p = .ok place)
    (hdir : t.get? place = some .dir) {cause : SystemError}
    (h : (t.clear place).removeDir here p = .error cause) (hcause : cause ≠ .os .noEntry) :
    (t.clear place).exists? here p = true ∨
      cause = .os .notDirectory ∧ p.bytes.getLast? = some Path.slash := by
  have hpruned := pruned_clear t place
  obtain ⟨route, hroute, -⟩ := locate_eq_ok_iff.1 hlocate
  obtain ⟨dir, hparent, hthere⟩ := parentOf_of_locate hlocate hroute
  rw [removeDir, hroute] at h
  dsimp only at h
  rcases hpruned.parentOf hparent with hstill | hlost
  · by_cases hlast : ∃ name, route.steps.getLast? = some (.into name)
    · obtain ⟨name, hlast⟩ := hlast
      have hshort := (hthere name hlast).1
      rw [hstill] at h
      dsimp only at h
      rw [hlast] at h
      dsimp only at h
      split at h
      · rename_i hthere
        have hlocate := locate_into hroute hstill hlast hshort hthere true
        exact .inl (exists?_of_locate hlocate hthere)
      · rename_i entry hother hentry
        refine .inr ⟨(Except.error.inj h).symm, slash_of_route? hroute ?_⟩
        -- Without a slash the path locates this entry in the whole tree, and not the directory.
        by_contra hslash
        have hwhole : t.get? (dir ++ [name]) = some entry := by
          rw [← hpruned.get?_eq (by simp [hentry]), hentry]
        have hlocate' := locate_name hroute hparent hlast (by simpa using hslash) hshort
          (by simp [hwhole])
        obtain rfl := Except.ok.inj (hlocate.symm.trans hlocate')
        exact hother (Option.some.inj (hwhole.symm.trans hdir))
      · exact absurd (Except.error.inj h).symm hcause
    · exact .inl (exists?_of_not_into hroute hstill (not_exists.1 hlast))
  · rw [hlost] at h
    exact absurd (Except.error.inj h).symm hcause

/-- How the removal of something ends: an entry is gone, or a directory was emptied, and then it was
removed, or was gone with what was in it, or was refused. -/
inductive RemoveEnds (t : FileTree) (here : Place) (p : Path) : Change → Prop
  | entry {place : Place} : t.locate here false p = .ok place → t.get? place ≠ some .dir →
    RemoveEnds t here p (t.erase place, .ok ())
  | dir {place : Place} {u : FileTree} : t.locate here false p = .ok place →
    (t.clear place).removeDir here p = .ok u → RemoveEnds t here p (u, .ok ())
  | swept {place : Place} : (t.clear place).removeDir here p = .error (.os .noEntry) →
    RemoveEnds t here p (t.clear place, .ok ())
  | refused {place : Place} {cause : SystemError} : t.locate here false p = .ok place →
    t.get? place = some .dir → (t.clear place).removeDir here p = .error cause →
    cause ≠ .os .noEntry → RemoveEnds t here p (t.clear place, .error cause)

lemma remove_ends (hexists : t.exists? here p = true) : t.RemoveEnds here p (t.remove here p) := by
  obtain ⟨place, hlocate, -⟩ := exists_located hexists
  by_cases hdir : t.get? place = some .dir
  · rw [remove_of_located_dir hlocate hexists hdir, removeDirAll]
    cases hremoved : (t.clear place).removeDir here p with
    | ok u => exact .dir hlocate hremoved
    | error cause =>
      dsimp only
      split
      · rename_i hnone
        exact .swept (hnone ▸ hremoved)
      · exact .refused hlocate hdir hremoved ‹_›
  · rw [remove_of_located hlocate hexists hdir]
    exact .entry hlocate hdir

lemma gone_of_remove (hexists : t.exists? here p = true) (h : t.remove here p = (u, .ok ())) :
    u.exists? here p = false := by
  have hends := remove_ends hexists
  rw [h] at hends
  cases hends with
  | @entry place hlocate hdir =>
    have hne : place ≠ [] := fun hroot => hdir (hroot ▸ get?_root t)
    exact (pruned_erase t hne).exists?_eq_false hlocate (get?_erase_self t hne)
  | dir hlocate hremoved => exact gone_of_removeDir hremoved hlocate
  | swept hgone => exact exists?_of_removeDir hgone

/-- What was found is found again after its removal was refused, unless it is by a link with a slash
behind it. -/
lemma exists?_of_failed_remove (hexists : t.exists? here p = true) {cause : SystemError}
    (h : t.remove here p = (u, .error cause)) :
    u.exists? here p = true ∨ cause = .os .notDirectory ∧ p.bytes.getLast? = some Path.slash := by
  have hends := remove_ends hexists
  rw [h] at hends
  cases hends with
  | refused hlocate hdir hremoved hcause => exact exists?_of_refused hlocate hdir hremoved hcause

end FileTree

namespace Volume

open FileTree

variable {config : Config} {site : Site} {w : World}

/-- Removing answers that there was something if it was, and was removed or is to be left. -/
lemma removeAll_eq_true_iff : (removeAll config site w).1 = .ok true ↔
    w.tree.exists? site.here (root config site) = true ∧
      (config.dryRun = true ∨ (w.tree.remove site.here (root config site)).2 = .ok ()) := by
  cases hexists : w.tree.exists? site.here (root config site) with
  | false => simp [removeAll_of_missing hexists]
  | true =>
    cases hdry : config.dryRun with
    | false =>
      obtain ⟨-, -, hremoved⟩ := removeAll_of_exists hdry hexists
      simp [hremoved]
    | true =>
      obtain ⟨v, hleft, -⟩ := removeAll_of_dryRun hdry hexists
      simp [hleft]

end Volume

namespace Task

open FileTree

/-- The line that says that the volume is gone. -/
def removedLine (config : Config) (site : Site) : Message where
  level := .info
  step := "Removed"
  content := (Volume.root config site).display

/-- The line is printed, right after the removal of the volume. -/
def ReportsRemoval (config : Config) (site : Site) (executor : Executor) (w : World) : Prop :=
  ∃ later, (removeOutput config site executor w).2.events =
    (Volume.removeAll config site w).2.events ++ .said (removedLine config site) :: later

section Reports

variable {config : Config} {site : Site} {executor : Executor} {w : World}

/-- After the removal another line is printed, and then there is only what a child leaves. -/
lemma sweep_events (executor : Executor) (w : World) :
    ∃ later, (sweep executor w).2.events = w.events ++ later ∧
      (later = [] ∨ ∃ calls inv tree, later =
        .said { level := .info, step := "Running", content := "cargo clean..." } ::
          (executor.execute calls inv tree).events) := by
  cases hlocate : executor.locate w.tree Layout.toolchain with
  | error failure =>
    rw [sweep, Job.find_bind_of_error hlocate]
    exact ⟨[], by simp, .inl rfl⟩
  | ok toolchain =>
    rw [sweep, Job.find_bind_of_ok hlocate, Job.say_bind, Executor.run_apply]
    exact ⟨_, List.append_assoc _ _ _, .inr ⟨_, _, _, rfl⟩⟩

lemma reportsRemoval_iff :
    ReportsRemoval config site executor w ↔ (Volume.removeAll config site w).1 = .ok true := by
  rw [ReportsRemoval, removeOutput_eq]
  rcases hremoved : Volume.removeAll config site w with ⟨failure | removed, v⟩
  · rw [Job.bind_of_error hremoved]
    simp
  · rw [Job.bind_of_ok hremoved]
    cases removed with
    | true =>
      refine iff_of_true ?_ rfl
      rw [if_pos rfl, Job.say_bind]
      obtain ⟨later, hlater, -⟩ := sweep_events executor
        { v with events := v.events ++ [.said (removedLine config site)] }
      exact ⟨later, hlater.trans (List.append_assoc _ _ _)⟩
    | false =>
      refine iff_of_false ?_ nofun
      rintro ⟨later, hreport⟩
      obtain ⟨others, hothers, hkind⟩ := sweep_events executor v
      rw [if_neg Bool.false_ne_true, hothers, List.append_cancel_left_eq] at hreport
      obtain rfl | ⟨calls, inv, tree, rfl⟩ := hkind
      · cases hreport
      · simp [removedLine] at hreport

lemma keeps_unreported :
    Job.Keeps (fun w => .said (removedLine config site) ∈ w.events)
      (Volume.removeAll config site) := by
  have hdetail (step content : String) :
      Job.Keeps (fun w => .said (removedLine config site) ∈ w.events)
        (Job.detail config step content) := by
    unfold Job.detail
    split
    · exact fun w => by simp [Job.say, removedLine]
    · exact fun _ => rfl
  have hchange (request : FileRequest) (operation : FileTree → Change) :
      Job.Keeps (fun w => .said (removedLine config site) ∈ w.events)
        (Job.change request operation) := by
    intro w
    rw [Job.change]
    split <;> simp [Job.record]
  unfold Volume.removeAll
  refine Job.keeps_bind (fun _ => rfl) fun there => ?_
  split
  · split
    · exact Job.keeps_bind (hdetail _ _) fun _ _ => rfl
    · exact Job.keeps_bind (hdetail _ _) fun _ =>
        Job.keeps_bind (hchange _ _) fun _ _ => rfl
  · exact fun _ => rfl

/-- Where nobody else prints the line, it is printed at all only as a report of the removal. -/
theorem reportsRemoval_iff_mem (hbefore : .said (removedLine config site) ∉ w.events)
    (hchild : ∀ calls inv tree,
      .said (removedLine config site) ∉ (executor.execute calls inv tree).events) :
    ReportsRemoval config site executor w ↔
      .said (removedLine config site) ∈ (removeOutput config site executor w).2.events := by
  have hunsaid : .said (removedLine config site) ∉ (Volume.removeAll config site w).2.events :=
    fun hsaid => hbefore ((keeps_unreported w).mp hsaid)
  refine ⟨fun ⟨later, hreport⟩ => by simp [hreport], fun hsaid => ?_⟩
  rw [reportsRemoval_iff]
  rw [removeOutput_eq] at hsaid
  rcases hremoved : Volume.removeAll config site w with ⟨failure | _ | _, v⟩ <;>
    rw [hremoved] at hunsaid
  · rw [Job.bind_of_error hremoved] at hsaid
    exact absurd hsaid hunsaid
  · rw [Job.bind_of_ok hremoved, if_neg Bool.false_ne_true] at hsaid
    obtain ⟨later, hlater, rfl | ⟨calls, inv, tree, rfl⟩⟩ := sweep_events executor v
    · rw [hlater, List.append_nil] at hsaid
      exact absurd hsaid hunsaid
    · rw [hlater] at hsaid
      obtain hsaid | hsaid := List.mem_append.1 hsaid
      · exact absurd hsaid hunsaid
      · obtain hrunning | hsaid := List.mem_cons.1 hsaid
        · simp [removedLine] at hrunning
        · exact absurd hsaid (hchild calls inv tree)

lemma gone_of_reported (hdry : config.dryRun = false)
    (h : ReportsRemoval config site executor w) :
    w.tree.exists? site.here (Volume.root config site) = true ∧
      (Volume.removeAll config site w).2.tree.exists? site.here (Volume.root config site) =
        false := by
  obtain ⟨hexists, hremoved⟩ := Volume.removeAll_eq_true_iff.1 (reportsRemoval_iff.1 h)
  have hremoved := hremoved.resolve_left (by simp [hdry])
  obtain ⟨htree, -⟩ := Volume.removeAll_of_exists hdry hexists
  exact ⟨hexists, htree ▸ gone_of_remove hexists (Prod.ext rfl hremoved)⟩

lemma reported_of_gone (hdry : config.dryRun = false)
    (hexists : w.tree.exists? site.here (Volume.root config site) = true)
    (hgone : (Volume.removeAll config site w).2.tree.exists? site.here (Volume.root config site) =
      false) :
    ReportsRemoval config site executor w ∨
      (Volume.removeAll config site w).1 =
        .error (.files (.remove (Volume.root config site)) (.os .notDirectory)) ∧
      (Volume.root config site).bytes.getLast? = some Path.slash := by
  obtain ⟨htree, hresult⟩ := Volume.removeAll_of_there hdry hexists
  rw [htree] at hgone
  cases hremoved : (w.tree.remove site.here (Volume.root config site)).2 with
  | ok =>
    exact .inl (reportsRemoval_iff.2 (Volume.removeAll_eq_true_iff.2 ⟨hexists, .inr hremoved⟩))
  | error cause =>
    rw [hremoved] at hresult
    obtain hstill | ⟨rfl, hslash⟩ := exists?_of_failed_remove hexists (Prod.ext rfl hremoved)
    · rw [hgone] at hstill
      cases hstill
    · exact .inr ⟨hresult, hslash⟩

/-- Apart from dry runs, the line is printed only if the volume was there and is not any more. If it
is not printed then, the removal was refused at a link with a slash behind it, and has failed. A dry
run leaves the volume, and prints the line all the same. -/
theorem removal_reported (config : Config) (site : Site) (executor : Executor) (w : World) :
    let root := Volume.root config site
    let removal := Volume.removeAll config site w
    let existed := w.tree.exists? site.here root = true
    let gone := removal.2.tree.exists? site.here root = false
    (config.dryRun = false →
      (ReportsRemoval config site executor w → existed ∧ gone) ∧
      (existed ∧ gone → ReportsRemoval config site executor w ∨
        removal.1 = .error (.files (.remove root) (.os .notDirectory)) ∧
          root.bytes.getLast? = some Path.slash)) ∧
    (config.dryRun = true →
      (ReportsRemoval config site executor w ↔ existed) ∧ removal.2.tree = w.tree) := by
  intro root removal existed gone
  refine ⟨fun hdry => ⟨gone_of_reported hdry, fun h => reported_of_gone hdry h.1 h.2⟩,
    fun hdry => ⟨?_, ?_⟩⟩
  · rw [reportsRemoval_iff, Volume.removeAll_eq_true_iff]
    exact and_iff_left (.inl hdry)
  · obtain ⟨left, hleft, htree, -⟩ := removeAll_of_dryRun (w := w) hdry rfl
    exact (congrArg (World.tree ∘ Prod.snd) hleft).trans htree

end Reports

open Build.Twins

/-- A link that leads through the directory that it leads to. -/
def entangled : FileTree :=
  filled [("d", .dir), ("d/x", .link (.ofString ".")), ("a", .link (.ofString "d/x"))]

/-- With a slash behind the link, its directory is emptied before the link is refused, and then it
leads nowhere. -/
example :
    let config : Config := { boot := .ofString "a/" }
    let removal := Volume.removeAll config site { tree := entangled }
    entangled.exists? site.here (Volume.root config site) = true ∧
      removal.1.toOption = none ∧
      removal.2.tree.exists? site.here (Volume.root config site) = false := by
  decide +kernel

lemma linked_evaluated :
    let removal := Volume.removeAll {} site { tree := linked }
    let rehearsal := Volume.removeAll { dryRun := true } site { tree := linked }
    linked.exists? site.here (Volume.root {} site) = true ∧
      removal.1.toOption = some true ∧
      removal.2.tree.exists? site.here (Volume.root {} site) = false ∧
      rehearsal.1.toOption = some true ∧
      rehearsal.2.tree.exists? site.here (Volume.root {} site) = true := by
  decide +kernel

/-- A volume that is removed is reported. -/
theorem removal_reported_linked :
    let removal := Volume.removeAll {} site { tree := linked }
    ReportsRemoval {} site idle { tree := linked } ∧
      linked.exists? site.here (Volume.root {} site) = true ∧
      removal.2.tree.exists? site.here (Volume.root {} site) = false := by
  obtain ⟨hexists, hremoved, hgone, -⟩ := linked_evaluated
  obtain ⟨hearnest, -⟩ := removal_reported {} site idle { tree := linked }
  obtain hreported | ⟨hrefused, -⟩ := (hearnest rfl).2 ⟨hexists, hgone⟩
  · exact ⟨hreported, hexists, hgone⟩
  · have hok := eq_ok_of_toOption hremoved
    cases hok.symm.trans hrefused

/-- A dry run reports the removal of a volume that is still there. -/
theorem removal_reported_in_vain :
    let config : Config := { dryRun := true }
    let rehearsal := Volume.removeAll config site { tree := linked }
    ReportsRemoval config site idle { tree := linked } ∧
      linked.exists? site.here (Volume.root config site) = true ∧
      rehearsal.2.tree.exists? site.here (Volume.root config site) = true := by
  obtain ⟨hexists, -, -, hanswer, hstill⟩ := linked_evaluated
  exact ⟨reportsRemoval_iff.2 (eq_ok_of_toOption hanswer), hexists, hstill⟩

end Task
end BootVolume
