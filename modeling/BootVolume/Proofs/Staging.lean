import BootVolume.Proofs.Descent
import BootVolume.Proofs.Job

/-!
# Staging

What staging a file does to a tree without links: the entry becomes a file like its source, and
nothing else is different but for directories on the way to it (`stage_spec`).
-/

namespace BootVolume

namespace FileTree

/-- A path leads to a file. -/
def HasFile (t : FileTree) (here : Place) (p : Path) (content : Bytes) (executable : Bool) : Prop :=
  ∃ place, t.find here p = .ok (place, .file content executable)

lemma zero_not_mem_of_find {t : FileTree} {here q : Place} {p : Path} {e : Entry}
    (h : t.find here p = .ok (q, e)) : 0 ∉ p.bytes := by
  cases hroute : p.route? with
  | error cause =>
    rw [find, locate, hroute] at h
    cases h
  | ok route => exact Path.zero_not_mem_of_route? hroute

/-- Apart from what is under a place, nothing is different but for what is at some others and for
new directories on the way to these. -/
def Frame (loose : Place) (written : List Place) (t u : FileTree) : Prop :=
  ∀ r, ¬loose <+: r → r ∉ written →
    u.get? r = t.get? r ∨ t.get? r = none ∧ u.get? r = some .dir ∧ ∃ place ∈ written, r <+: place

variable {loose : Place} {written written' : List Place} {t u v : FileTree}

lemma Frame.trans (h : Frame loose written t u) (h' : Frame loose written' u v) :
    Frame loose (written ++ written') t v := by
  intro r hloose hr
  rw [List.mem_append, not_or] at hr
  rcases h r hloose hr.1 with heq | ⟨hnone, hdir, place, hplace, hway⟩ <;>
    rcases h' r hloose hr.2 with heq' | ⟨hnone', hdir', place', hplace', hway'⟩
  · exact .inl (heq'.trans heq)
  · exact .inr ⟨heq ▸ hnone', hdir', place', List.mem_append_right _ hplace', hway'⟩
  · exact .inr ⟨hnone, heq'.trans hdir, place, List.mem_append_left _ hplace, hway⟩
  · rw [hdir] at hnone'
    cases hnone'

lemma Frame.get?_eq (h : Frame loose written t u) {r : Place} (hloose : ¬loose <+: r)
    (hr : r ∉ written) (hthere : t.get? r ≠ none) : u.get? r = t.get? r :=
  (h r hloose hr).resolve_right fun ⟨hnone, _⟩ => hthere hnone

end FileTree

namespace Volume

open FileTree

variable {config : Config} {site : Site} {w v : World}

lemma prepare_tree (site : Site) (w : World) (target : Path) :
    (prepare site target w).2.tree = w.tree ∨
      ∃ parent, target.parent? = some parent ∧
        (prepare site target w).2.tree = (w.tree.makeDirs site.here parent).1 := by
  rw [prepare]
  cases hparent : target.parent? with
  | none => exact .inl rfl
  | some parent =>
    dsimp only
    rw [Job.ask_bind]
    split
    · exact .inl rfl
    · exact .inr ⟨parent, rfl, Job.tree_of_change _ _ w⟩

lemma destination_of_stage {source entry staged : Path}
    (h : stage config site source entry w = (.ok staged, v)) :
    staged = destination config site entry := by
  rw [stage] at h
  dsimp only at h
  split at h
  · obtain ⟨_, _, _, h⟩ := Job.exists_of_bind_ok h
    cases h
    rfl
  obtain ⟨_, _, _, h⟩ := Job.exists_of_bind_ok h
  rw [Job.ask_bind] at h
  split at h
  · obtain ⟨_, _, _, h⟩ := Job.exists_of_bind_ok h
    rw [Job.ask_bind] at h
    obtain ⟨_, _, _, h⟩ := Job.exists_of_bind_ok h
    cases h
    rfl
  · rw [Job.bind_of_error (Job.throw_apply _ _)] at h
    cases h

/-- What staging comes to: it fails and has made directories at most, or there is a way to the entry
and a copy is made. -/
lemma stage_cases (hdry : config.dryRun = false) (site : Site) (source entry : Path) (w : World) :
    (∃ failure v, stage config site source entry w = (.error failure, v) ∧
      v.tree = (prepare site (destination config site entry) w).2.tree) ∨
    ∃ paved v, prepare site (destination config site entry) w = (.ok (), paved) ∧
      paved.tree.copy site.here (site.path source)
        (paved.tree.copyTarget site.here (site.path source) (destination config site entry)) =
          .ok v.tree ∧
      stage config site source entry w = (.ok (destination config site entry), v) := by
  rw [stage]
  dsimp only
  rw [if_neg (by simp [hdry])]
  rcases hprepare : prepare site (destination config site entry) w with ⟨failure | _, paved⟩
  · exact .inl ⟨failure, paved, Job.bind_of_error hprepare _, rfl⟩
  rw [Job.bind_of_ok hprepare, Job.ask_bind]
  split
  · obtain ⟨noted, hnoted, htree⟩ := Job.detail_apply config "Copying"
      ((site.path source).display ++ " -> " ++ (destination config site entry).display) paved
    rw [Job.bind_of_ok hnoted, Job.ask_bind, htree]
    generalize htarget : paved.tree.copyTarget site.here (site.path source)
      (destination config site entry) = target
    rw [Job.bind_apply, Job.update, Job.change, htree]
    cases hcopy : paved.tree.copy site.here (site.path source) target with
    | error cause => exact .inl ⟨_, _, rfl, rfl⟩
    | ok copied => exact .inr ⟨paved, _, rfl, htarget ▸ hcopy, rfl⟩
  · exact .inl ⟨_, paved, Job.bind_of_error (Job.throw_apply _ _) _, rfl⟩

/-- A file is staged by a copy, once there is a way to its entry. -/
lemma copy_of_stage (hdry : config.dryRun = false) {source entry staged : Path}
    (h : stage config site source entry w = (.ok staged, v)) :
    ∃ paved : FileTree,
      (paved = w.tree ∨ ∃ parent, (destination config site entry).parent? = some parent ∧
        paved = (w.tree.makeDirs site.here parent).1) ∧
      paved.copy site.here (site.path source)
        (paved.copyTarget site.here (site.path source) (destination config site entry)) =
          .ok v.tree := by
  have hpaved := prepare_tree site w (destination config site entry)
  obtain ⟨failure, _, hfailed, -⟩ | ⟨paved, _, hprepare, hcopy, hstaged⟩ :=
    stage_cases hdry site source entry w
  · rw [hfailed] at h
    cases h
  · rw [hstaged] at h
    cases h
    rw [hprepare] at hpaved
    exact ⟨paved.tree, hpaved, hcopy⟩

/-- Neither path of a file that is staged holds a NUL. -/
lemma zero_not_mem_of_stage (hdry : config.dryRun = false) {source entry staged : Path}
    (h : stage config site source entry w = (.ok staged, v)) :
    0 ∉ (site.path source).bytes ∧ 0 ∉ (destination config site entry).bytes := by
  obtain ⟨paved, -, hcopy⟩ := copy_of_stage hdry h
  by_cases hdir : paved.isDir site.here (destination config site entry) = true
  · rw [copy] at hcopy
    split at hcopy
    · cases hcopy
    · obtain ⟨place, hfind⟩ := isDir_eq_true_iff.1 hdir
      exact ⟨zero_not_mem_of_find ‹_›, zero_not_mem_of_find hfind⟩
    · cases hcopy
  · rw [copyTarget, if_neg hdir, copy] at hcopy
    split at hcopy
    · cases hcopy
    · split at hcopy
      · cases hcopy
      obtain ⟨route, hroute, -⟩ := openPlace_eq_ok_iff.1 ‹_›
      exact ⟨zero_not_mem_of_find ‹_›, Path.zero_not_mem_of_route? hroute⟩
    · cases hcopy

/-- An entry of the volume that is staged becomes a file like its source, which was there before;
nothing else is different but for directories on the way to the entry. -/
lemma stage_spec (hdry : config.dryRun = false) (hw : w.tree.Linkless) {source entry staged : Path}
    {origin place : Place} (hsource : (site.path source).Spells origin)
    (hentry : (destination config site entry).Spells place) (hne : origin ≠ place)
    (hfree : w.tree.isDir site.here (destination config site entry) = false)
    (h : stage config site source entry w = (.ok staged, v)) (loose : Place) :
    v.tree.Linkless ∧ Frame loose [place] w.tree v.tree ∧ ∃ content executable,
      w.tree.find site.here (site.path source) = .ok (origin, .file content executable) ∧
      v.tree.get? place = some (.file content executable) ∧
      ∀ u : FileTree, u.Linkless → ∀ content executable,
        u.get? place = some (.file content executable) →
          u.HasFile site.here (destination config site entry) content executable := by
  obtain ⟨paved, hpaved, hcopy⟩ := copy_of_stage hdry h
  have paves : Paves place.dropLast w.tree paved := by
    rcases hpaved with rfl | ⟨parent, hparent, rfl⟩
    · exact paves_refl _ _
    · exact paves_makeDirs hw (hentry.parent? hparent)
  have hlinkless := paves.linkless hw
  have htarget : paved.copyTarget site.here (site.path source) (destination config site entry) =
      destination config site entry := by
    have : paved.isDir site.here (destination config site entry) ≠ true := by
      intro hdir
      rcases paves place with heq | ⟨hnone, -, hway⟩
      · have hthere := heq.symm.trans (get?_of_isDir hlinkless hentry hdir)
        rw [isDir_of_isDir hlinkless hw hentry hdir hthere] at hfree
        cases hfree
      · have hroot : place = [] := by
          by_contra hplace
          exact Place.not_prefix_dropLast hplace hway
        rw [hroot, get?_root] at hnone
        cases hnone
    rw [copyTarget, if_neg this]
  rw [htarget] at hcopy
  obtain ⟨hv, content, executable, hfound, hcopied, reached⟩ :=
    copy_spec hlinkless hsource hentry hne hcopy
  have horigin := (get?_of_find hlinkless hsource hfound).2
  have hbefore : w.tree.get? origin = some (.file content executable) := by
    rcases paves origin with heq | ⟨-, hdir, -⟩
    · exact heq ▸ horigin
    · rw [hdir] at horigin
      cases horigin
  refine ⟨hv, ?_, content, executable, ?_, by rw [hcopied, if_pos rfl], ?_⟩
  · intro r _ hr
    rw [hcopied, if_neg (by simpa using hr)]
    refine (paves r).imp_right fun ⟨hnone, hdir, hway⟩ => ⟨hnone, hdir, place, by simp, ?_⟩
    exact hway.trans (List.dropLast_prefix place)
  · exact find_of_find hlinkless hw hsource hfound hbefore nofun
  · exact fun u hu content executable hfile => ⟨place, reached u hu content executable hfile⟩

end Volume
end BootVolume
