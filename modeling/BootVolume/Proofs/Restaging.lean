import BootVolume.Proofs.Announcing
import BootVolume.Proofs.Copying
import BootVolume.Proofs.Delivery

/-!
# Staging twice, and staging in vain

What staging does it does once: where it succeeds, the same again succeeds and changes nothing more
(`stage_again`). Where it fails, nothing that was there is any different, and at most some
directories are new, if there was no directory for the entry (`failed_stage_spares`).

A path is walked in two stretches, so that what is known of its parent carries over to it.
-/

namespace BootVolume

lemma Route.allSteps_concat {route : Route} {front : List Step} {last : Step}
    (h : route.steps = front ++ [last]) :
    ∃ tail, (tail = [] ∨ tail = [.here]) ∧ route.allSteps = front ++ last :: tail := by
  rw [allSteps, h]
  split
  · exact ⟨[.here], .inr rfl, List.append_assoc _ _ _⟩
  · exact ⟨[], .inl rfl, rfl⟩

namespace FileTree

variable {t u : FileTree} {here place mid : Place} {p : Path} {follow : Bool}
  {steps more : List Step} {links : Nat}

/-! ## Two stretches of a walk -/

/-- Some links may be left for the second stretch. -/
lemma walk_stretch (h : t.walk true links place steps = .found mid) :
    ∃ left ≤ links, ∀ follow more, more ≠ [] →
      t.walk follow links place (steps ++ more) = t.walk follow left mid more := by
  -- A link puts new steps before the rest of the stretch, so only the number of links goes down.
  induction links using Nat.strongRecOn generalizing place steps with
  | ind links ih =>
    unfold walk at h
    cases hadvance : t.advance true place steps with
    | missing | failed =>
      rw [hadvance] at h
      cases h
    | found q =>
      rw [hadvance] at h
      cases h
      refine ⟨links, le_rfl, fun follow more hmore => ?_⟩
      unfold walk
      rw [advance_stretch hmore, hadvance, Walk.onward]
    | through dir target rest =>
      rw [hadvance] at h
      dsimp only at h
      split at h
      · cases h
      rename_i links
      split at h
      · rename_i route hroute
        obtain ⟨left, hfew, hleft⟩ := ih links (Nat.lt_succ_self links) h
        refine ⟨left, hfew.trans (Nat.le_succ links), fun follow more hmore => ?_⟩
        rw [walk, advance_stretch hmore, hadvance, Walk.onward]
        dsimp only
        rw [hroute]
        dsimp only
        rw [← List.append_assoc, hleft follow more hmore]
      · cases h

/-! ## Directories that were made -/

lemma isDir_of_makeDir (h : t.makeDir here p = .ok u) : u.isDir here p = true := by
  have grows := (widens_makeDir h).grows
  rw [makeDir] at h
  split at h
  · cases h
  rename_i route hroute
  split at h
  · cases h
  rename_i dir hparent
  split at h
  · rename_i name hlast
    split_ifs at h with hshort hfree
    cases h
    obtain ⟨hbefore, hdir⟩ := parentOf_eq_ok_iff.1 hparent
    have admits : t.Admits (dir ++ [name]) .dir := ⟨by simp, by simpa using hdir, fun _ => rfl⟩
    have hmade : (t.put (dir ++ [name]) .dir).get? (dir ++ [name]) = some .dir := by
      rw [get?_put admits, if_pos rfl]
    obtain ⟨front, hsteps⟩ := List.getLast?_eq_some_iff.1 hlast
    obtain ⟨tail, htail, hall⟩ := Route.allSteps_concat hsteps
    rw [hsteps, List.dropLast_concat] at hbefore
    have hwalk : (t.put (dir ++ [name]) .dir).walk true linkLimit (route.start here) front =
        .found dir :=
      (hbefore ▸ grows.walk true linkLimit (route.start here) front).of_found
    obtain ⟨left, -, hleft⟩ := walk_stretch hwalk
    have down : Descends (.into name :: tail) [name] := by
      rcases htail with rfl | rfl
      · exact .into name .nil
      · exact .into name (.here .nil)
    refine isDir_eq_true_iff.2 ⟨dir ++ [name], find_eq_ok_iff.2 ⟨?_, hmade⟩⟩
    refine locate_eq_ok_iff.2 ⟨route, hroute, ?_⟩
    rw [hall, hleft true _ (List.cons_ne_nil _ _)]
    exact walk_dir down (by simpa using hshort) hmade left
  · cases h

lemma isDir_of_makeChain {above : List Path} (h : t.makeChain here (p :: above) = (u, .ok ())) :
    p.bytes = [] ∨ u.isDir here p = true := by
  have kept {t : FileTree} {cause : SystemError}
      (h : ((t, if t.isDir here p then .ok () else .error cause) : Change) = (u, .ok ())) :
      u.isDir here p = true := by
    split at h
    · cases h
      assumption
    · cases h
  rw [makeChain] at h
  split at h
  · exact .inl ‹_›
  right
  split at h
  · cases h
    exact isDir_of_makeDir ‹_›
  split at h
  · exact kept h
  split at h
  · cases h
  split at h
  · cases h
    exact isDir_of_makeDir ‹_›
  · exact kept h

lemma isDir_of_makeDirs (h : t.makeDirs here p = (u, .ok ())) :
    p.bytes = [] ∨ u.isDir here p = true := by
  obtain ⟨above, habove⟩ := p.exists_ancestors
  rw [makeDirs, habove] at h
  exact isDir_of_makeChain h

lemma makeDirs_of_empty (hp : p.bytes = []) : t.makeDirs here p = (t, .ok ()) := by
  obtain ⟨above, habove⟩ := p.exists_ancestors
  rw [makeDirs, habove, makeChain, if_pos hp]

/-! ## What stays as a tree grows -/

section Growing

variable {source target : Path} {content : Bytes} {executable : Bool}

lemma Grows.exists? (grows : Grows t u) (h : t.exists? here p = true) :
    u.exists? here p = true := by
  obtain ⟨place, entry, hfind⟩ := exists?_eq_true_iff.1 h
  obtain ⟨entry', hentry⟩ : ∃ entry', u.get? place = some entry' := by
    have hthere := (find_eq_ok_iff.1 hfind).2
    cases entry with
    | dir => exact ⟨_, grows.dir hthere⟩
    | link => exact ⟨_, grows.link hthere⟩
    | file =>
      obtain ⟨content, executable, hfile⟩ := grows.file hthere
      exact ⟨_, hfile⟩
  exact exists?_eq_true_iff.2 ⟨place, entry', grows.find hfind hentry⟩

/-- A file that was opened is opened at the same place again. -/
lemma Grows.openPlace (grows : Grows t u) (h : t.openPlace here p = .ok place)
    (hfile : u.get? place = some (.file content executable)) : u.openPlace here p = .ok place := by
  obtain ⟨route, hroute, hslash, opens⟩ := openPlace_eq_ok_iff.1 h
  refine openPlace_eq_ok_iff.2 ⟨route, hroute, hslash, ?_⟩
  have resumes := grows.walk true linkLimit (route.start here) route.steps
  have hwalk : u.walk true linkLimit (route.start here) route.steps = .found place := by
    generalize t.walk true linkLimit (route.start here) route.steps = before at opens resumes
    cases opens with
    | there => exact resumes.of_found
    | free dir name => exact resumes.of_missing.2.2 _ _ hfile
  rw [hwalk]
  exact .there hfile

lemma put_of_there {e : Entry} (admits : t.Admits place e) (h : t.get? place = some e) :
    t.put place e = t := by
  refine ext_get? fun r => ?_
  rw [get?_put admits]
  split
  · rename_i hr
    rw [hr, h]
  · rfl

/-- A copy lets the tree grow, finds its source again, and once more changes nothing. A copy of a
file to itself has left it empty, and leaves it so. -/
lemma copy_again (h : t.copy here source (t.copyTarget here source target) = .ok u) :
    Grows t u ∧
      (∃ origin content executable, u.find here source = .ok (origin, .file content executable)) ∧
      u.copy here source (u.copyTarget here source target) = .ok u := by
  rw [copy] at h
  split at h
  · cases h
  · rename_i origin content executable hsource
    split at h
    · cases h
    rename_i place hopen
    have opens := opens_of_openPlace hopen
    generalize hwritten : (if place = origin then [] else content) = written at h
    have admits := opens.admits written executable
    obtain rfl := Except.ok.inj h
    have grows := Grows.put admits opens.unlinked
    have hput : (t.put place (.file written executable)).get? place =
        some (.file written executable) := by
      rw [get?_put admits, if_pos rfl]
    obtain ⟨left, hleft, hsame⟩ : ∃ left,
        (t.put place (.file written executable)).get? origin = some (.file left executable) ∧
          (if place = origin then [] else left) = written := by
      rw [get?_put admits]
      by_cases heq : place = origin
      · rw [if_pos heq] at hwritten
        rw [if_pos heq.symm]
        exact ⟨written, rfl, by rw [if_pos heq, hwritten]⟩
      · rw [if_neg heq] at hwritten
        rw [if_neg (Ne.symm heq)]
        exact ⟨content, (find_eq_ok_iff.1 hsource).2, by rw [if_neg heq, hwritten]⟩
    have hagain := grows.find hsource hleft
    refine ⟨grows, ⟨_, _, _, hagain⟩, ?_⟩
    rw [opens.copyTarget_eq grows hput, copy, hagain]
    dsimp only
    rw [grows.openPlace hopen hput]
    dsimp only
    rw [hsame]
    have again := opens_of_openPlace (grows.openPlace hopen hput)
    exact congrArg _ (put_of_there (again.admits written executable) hput)
  · cases h

end Growing
end FileTree

namespace Volume

open FileTree

variable {config : Config} {site : Site} {w v : World} {source entry staged : Path}

/-! ## Staging twice -/

lemma prepare_again {target : Path} {paved : World}
    (h : prepare site target w = (.ok (), paved)) (grows : Grows paved.tree v.tree) :
    ∃ again, prepare site target v = (.ok (), again) ∧ again.tree = v.tree := by
  rw [prepare] at h ⊢
  cases hparent : target.parent? with
  | none => exact ⟨v, rfl, rfl⟩
  | some parent =>
    rw [hparent] at h
    dsimp only at h ⊢
    rw [Job.ask_bind] at h ⊢
    cases hthere : v.tree.exists? site.here parent with
    | true => exact ⟨v, rfl, rfl⟩
    | false =>
      split at h
      · cases h
        rw [grows.exists? ‹_›] at hthere
        cases hthere
      rw [if_neg Bool.false_ne_true]
      rw [Job.change] at h
      split at h
      · rename_i made hmade
        cases h
        rcases isDir_of_makeDirs hmade with hempty | hdir
        · rw [Job.change, makeDirs_of_empty hempty]
          exact ⟨_, rfl, rfl⟩
        · obtain ⟨place, hfind⟩ := isDir_eq_true_iff.1 hdir
          rw [grows.exists? (exists?_eq_true_iff.2 ⟨place, .dir, hfind⟩)] at hthere
          cases hthere
      · cases h

/-- What was staged is staged again without any change. -/
theorem stage_again (h : stage config site source entry w = (.ok staged, v)) :
    ∃ again, stage config site source entry v = (.ok staged, again) ∧ again.tree = v.tree := by
  cases hdry : config.dryRun with
  | true =>
    rw [stage_of_dryRun hdry] at h ⊢
    cases h
    exact ⟨_, rfl, rfl⟩
  | false =>
    obtain ⟨failure, _, hfailed, -⟩ | ⟨paved, _, hprepare, hcopy, hstaged⟩ :=
      stage_cases hdry site source entry w
    · rw [hfailed] at h
      cases h
    · rw [hstaged] at h
      cases h
      obtain ⟨grows, ⟨origin, content, executable, hsource⟩, hcopied⟩ := copy_again hcopy
      obtain ⟨ready, hready, htree⟩ := prepare_again hprepare grows
      rw [← htree] at hsource hcopied
      obtain ⟨again, hagain, hsame⟩ := stage_of_copy hdry hready hsource hcopied
      exact ⟨again, hagain, hsame.trans htree⟩

end Volume

namespace Volume

open Build.Twins

/-- A kernel that went into a directory goes there again, and one that was staged onto itself and
lost stays as it is. -/
theorem stage_again_missed :
    let target := destination {} site kernelEntry
    let elf := Entry.file (Utf8.encode "kernel") false
    let nested := stage {} site kernel kernelEntry { tree := occupied .dir }
    let emptied := stage {} site (.ofString "esp/KERNEL.ELF") kernelEntry { tree := occupied elf }
    (nested = (.ok target, nested.2) ∧ ∃ again,
      stage {} site kernel kernelEntry nested.2 = (.ok target, again) ∧
        again.tree = nested.2.tree) ∧
    emptied = (.ok target, emptied.2) ∧ ∃ again,
      stage {} site (.ofString "esp/KERNEL.ELF") kernelEntry emptied.2 = (.ok target, again) ∧
        again.tree = emptied.2.tree := by
  dsimp only
  obtain ⟨⟨hnested, -⟩, hemptied, -⟩ := missed_evaluated
  have hnested := Job.eq_of_ok (eq_ok_of_toOption hnested)
  have hemptied := Job.eq_of_ok (eq_ok_of_toOption hemptied)
  exact ⟨⟨hnested, stage_again hnested⟩, hemptied, stage_again hemptied⟩

end Volume

/-! ## Staging in vain -/

lemma Path.absolute_of_steps {p : Path} {route : Route} (hroute : p.route? = .ok route)
    (hsteps : route.steps = []) : route.absolute = true := by
  have hbytes := (fits_of_route? hroute).nonempty
  rw [route?] at hroute
  split_ifs at hroute
  split at hroute
  · rename_i steps hmap
    cases hroute
    obtain ⟨first, rest, hp⟩ := List.exists_cons_of_ne_nil hbytes
    by_contra hfirst
    have hfirst : first ≠ slash := by simpa [isAbsolute, hp] using hfirst
    obtain ⟨seg, segs, hsegs⟩ := List.exists_cons_of_ne_nil (pieces_ne_nil (· = slash) rest)
    have hsegments : p.segments = (first :: seg) :: segs := by
      rw [segments, hp, pieces, if_neg (by simpa using hfirst), hsegs]
      rfl
    rw [hsegments, List.filter_cons_of_pos (by simp), List.mapM_cons] at hmap
    obtain ⟨step, -, hmap⟩ := Option.bind_eq_some_iff.1 hmap
    obtain ⟨others, -, hmap⟩ := Option.bind_eq_some_iff.1 hmap
    dsimp only at hsteps
    rw [hsteps] at hmap
    cases hmap
  · cases hroute

namespace FileTree

variable {t : FileTree} {here place mid q : Place} {p : Path} {follow : Bool}
  {steps more : List Step} {links : Nat}

/-- Something is at the path, be it a link that leads nowhere. -/
def Taken (t : FileTree) (here : Place) (p : Path) : Prop :=
  t.exists? here p = true ∨ ∃ place, t.locate here false p = .ok place

/-- What a walk of two stretches finds is found on the second one. -/
lemma walk_mid (hmore : more ≠ []) (h : t.walk follow links place (steps ++ more) = .found q) :
    ∃ mid left, t.walk true links place steps = .found mid ∧
      t.walk follow left mid more = .found q := by
  suffices hmid : ∃ mid, t.walk true links place steps = .found mid by
    obtain ⟨mid, hmid⟩ := hmid
    obtain ⟨left, -, hleft⟩ := walk_stretch hmid
    exact ⟨mid, left, hmid, hleft follow more hmore ▸ h⟩
  induction links using Nat.strongRecOn generalizing place steps with
  | ind links ih =>
    unfold walk at h ⊢
    rw [advance_stretch hmore] at h
    cases hadvance : t.advance true place steps with
    | found mid => exact ⟨mid, rfl⟩
    | missing | failed =>
      rw [hadvance] at h
      cases h
    | through dir target rest =>
      rw [hadvance, Walk.onward] at h
      dsimp only at h ⊢
      split at h
      · cases h
      rename_i links
      split at h
      · exact ih links (Nat.lt_succ_self links) (by rwa [List.append_assoc])
      · cases h

/-- The first step of a walk that finds something starts from a directory, and leads to something
that is there. -/
lemma first_of_walk {step : Step} (h : t.walk follow links place (step :: steps) = .found q) :
    t.get? place = some .dir ∧ ∀ name, step = .into name →
      name.bytes.length ≤ nameLimit ∧ t.get? (place ++ [name]) ≠ none := by
  have lost (cause : Errno) :
      t.advance follow place (step :: steps) ≠ .failed cause := by
    intro hadvance
    rw [walk, hadvance] at h
    cases h
  unfold advance at lost
  cases hplace : t.get? place with
  | none => exact (lost .noEntry (by rw [hplace])).elim
  | some entry =>
    cases entry with
    | file | link => exact (lost .notDirectory (by rw [hplace])).elim
    | dir =>
      refine ⟨rfl, ?_⟩
      rintro name rfl
      by_cases hlong : nameLimit < name.bytes.length
      · exact (lost .nameTooLong (by rw [hplace]; exact if_pos hlong)).elim
      · refine ⟨Nat.not_lt.1 hlong, fun hnone => ?_⟩
        unfold walk advance at h
        rw [hplace] at h
        dsimp only at h
        rw [if_neg hlong, hnone] at h
        dsimp only at h
        split_ifs at h

/-- Where something is, all but the last step lead to a directory, and the last one is taken from
there. -/
lemma parentOf_of_locate {route : Route} (h : t.locate here follow p = .ok place)
    (hroute : p.route? = .ok route) :
    ∃ dir, t.parentOf here route = .ok dir ∧
      ∀ name, route.steps.getLast? = some (.into name) →
        name.bytes.length ≤ nameLimit ∧ t.get? (dir ++ [name]) ≠ none := by
  obtain ⟨route', hroute', hwalk⟩ := locate_eq_ok_iff.1 h
  obtain rfl := Except.ok.inj (hroute.symm.trans hroute')
  rcases List.eq_nil_or_concat' route.steps with hsteps | ⟨front, last, hsteps⟩
  · refine ⟨[], parentOf_eq_ok_iff.2 ⟨?_, get?_root t⟩, by simp [hsteps]⟩
    rw [hsteps, Route.start, Path.absolute_of_steps hroute hsteps]
    rfl
  · obtain ⟨tail, -, hall⟩ := Route.allSteps_concat hsteps
    rw [hall] at hwalk
    obtain ⟨dir, left, hwalk, hlast⟩ := walk_mid (List.cons_ne_nil _ _) hwalk
    obtain ⟨hdir, hthere⟩ := first_of_walk hlast
    refine ⟨dir, parentOf_eq_ok_iff.2 ⟨by rw [hsteps, List.dropLast_concat, hwalk], hdir⟩, ?_⟩
    intro name hname
    rw [hsteps, List.getLast?_concat] at hname
    exact hthere name (Option.some.inj hname)

lemma makeDir_of_locate (h : t.locate here false p = .ok place) :
    t.makeDir here p = .error (.os .alreadyExists) := by
  obtain ⟨route, hroute, -⟩ := locate_eq_ok_iff.1 h
  obtain ⟨dir, hparent, hthere⟩ := parentOf_of_locate h hroute
  rw [makeDir, hroute]
  dsimp only
  rw [hparent]
  dsimp only
  split
  · rename_i name hlast
    obtain ⟨hshort, htaken⟩ := hthere name hlast
    rw [if_neg (Nat.not_lt.2 hshort), if_pos (Option.isSome_iff_ne_none.2 htaken)]
  · rfl

lemma makeDirs_of_locate (h : t.locate here false p = .ok place) : (t.makeDirs here p).1 = t := by
  obtain ⟨above, habove⟩ := p.exists_ancestors
  rw [makeDirs, habove, makeChain, makeDir_of_locate h]
  split
  · rfl
  · dsimp only
    rw [if_pos (by decide)]

end FileTree

namespace Volume

open FileTree

variable {config : Config} {site : Site} {w v : World} {source entry : Path} {failure : Failure}

lemma widens_prepare (site : Site) (target : Path) (w : World) :
    Widens w.tree (prepare site target w).2.tree := by
  rcases prepare_tree site w target with h | ⟨parent, -, h⟩
  · exact h ▸ .refl _
  · exact h ▸ widens_makeDirs _ _ _

lemma prepare_of_taken {target : Path}
    (h : ∀ parent, target.parent? = some parent → w.tree.Taken site.here parent) :
    (prepare site target w).2.tree = w.tree := by
  rw [prepare]
  cases hparent : target.parent? with
  | none => rfl
  | some parent =>
    dsimp only
    rw [Job.ask_bind]
    split
    · rfl
    · rw [Job.tree_of_change]
      rcases h parent hparent with hthere | ⟨place, hlocate⟩
      · contradiction
      · exact makeDirs_of_locate hlocate

/-- Staging that fails leaves all that was there as it was and makes at most directories; none, if
the one for the entry was there. -/
theorem failed_stage_spares (h : stage config site source entry w = (.error failure, v)) :
    Widens w.tree v.tree ∧
      ((∀ parent, (destination config site entry).parent? = some parent →
        w.tree.Taken site.here parent) → v.tree = w.tree) := by
  cases hdry : config.dryRun with
  | true =>
    rw [stage_of_dryRun hdry] at h
    cases h
  | false =>
    obtain ⟨_, _, hfailed, htree⟩ | ⟨_, _, -, -, hstaged⟩ :=
      stage_cases hdry site source entry w
    · rw [hfailed] at h
      cases h
      exact ⟨htree ▸ widens_prepare site _ w, fun htaken => htree.trans (prepare_of_taken htaken)⟩
    · rw [hstaged] at h
      cases h

end Volume

namespace Build.Twins

open Volume

def absent : Path := .ofString "nope"

lemma absent_evaluated :
    let made := stage {} site absent kernelEntry { tree }
    let kept := stage {} site absent kernelEntry { tree := occupied .dir }
    (made.1 = .error (.notAFile (site.path absent)) ∧ tree.get? (place "esp") = none ∧
      made.2.tree.get? (place "esp") = some .dir) ∧
    kept.1 = .error (.notAFile (site.path absent)) ∧
      (destination {} site kernelEntry).parent? = some (.ofString "/esp") ∧
      (occupied .dir).exists? site.here (.ofString "/esp") = true := by
  decide +kernel

end Build.Twins

namespace Volume

open FileTree Build.Twins

/-- A file that is missing cannot be staged: a volume is made for it, and one with a directory in
the place of the entry stays as it is. -/
theorem failed_stage_spares_absent :
    let made := stage {} site absent kernelEntry { tree }
    let kept := stage {} site absent kernelEntry { tree := occupied .dir }
    (made = (.error (.notAFile (site.path absent)), made.2) ∧ Widens tree made.2.tree ∧
      tree.get? (place "esp") = none ∧ made.2.tree.get? (place "esp") = some .dir) ∧
    kept = (.error (.notAFile (site.path absent)), kept.2) ∧
      (∀ parent, (destination {} site kernelEntry).parent? = some parent →
        (occupied .dir).Taken site.here parent) ∧
      kept.2.tree = occupied .dir := by
  dsimp only
  obtain ⟨⟨hmade, hnew⟩, hkept, hparent, hthere⟩ := absent_evaluated
  have hmade := Job.eq_of_error hmade
  have hkept := Job.eq_of_error hkept
  have htaken : ∀ parent, (destination {} site kernelEntry).parent? = some parent →
      (occupied .dir).Taken site.here parent := by
    intro parent h
    obtain rfl := Option.some.inj (hparent.symm.trans h)
    exact .inl hthere
  exact ⟨⟨hmade, (failed_stage_spares hmade).1, hnew⟩, hkept, htaken,
    (failed_stage_spares hkept).2 htaken⟩

end Volume
end BootVolume
