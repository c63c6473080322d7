import BootVolume.Proofs.Footprint

/-!
# Removing the volume

Removing takes away the entry at the place of the volume with all that is below it, a link as a
link, and nothing else (`removeAll_exact`). This needs a path that ends in its name, or an entry
that is no link: a dot behind a link stands for the directory that it leads to, and then that is
emptied (`removeAll_sweeps_dotted_link`).
-/

namespace BootVolume
namespace FileTree

open BootVolume.Path

variable {t u : FileTree} {here place names q : Place} {steps : List Step} {p : Path} {e : Entry}
  {route : Route}

/-! ## Ways without links -/

/-- No link stands above the place. -/
def Straight (t : FileTree) (place : Place) : Prop :=
  ∀ above, above <+: place → above ≠ place → ∀ target, t.get? above ≠ some (.link target)

lemma Straight.clear (h : t.Straight place) (hlink : ∀ target, t.get? place ≠ some (.link target))
    {r : Place} (hr : r <+: place) (target : Path) : t.get? r ≠ some (.link target) := by
  by_cases heq : r = place
  · exact heq ▸ hlink target
  · exact h r hr heq target

/-- Above what is there are directories. -/
lemma straight_of_there (h : t.get? place ≠ none) : t.Straight place := by
  intro above habove hne target hlink
  rw [get?_eq_dir_of_above habove hne h] at hlink
  cases hlink

/-- On a way without links, nothing but its end is found, and whether a link there were to be
followed does not matter. -/
lemma advance_clear (h : Descends steps names)
    (hclear : ∀ r, r <+: place ++ names → ∀ target, t.get? r ≠ some (.link target)) :
    (∀ dir target rest, t.advance true place steps ≠ .through dir target rest) ∧
      ∀ q, t.advance true place steps = .found q →
        q = place ++ names ∧ t.advance false place steps = .found q := by
  induction h generalizing place with
  | nil =>
    rw [List.append_nil]
    exact ⟨by simp [advance], fun q hq => ⟨(Walk.found.inj hq).symm, hq⟩⟩
  | here _ ih =>
    unfold advance
    split
    · simp
    · exact ih hclear
    · simp
  | @into steps names name _ ih =>
    have hsplit : place ++ name :: names = (place ++ [name]) ++ names := by simp
    unfold advance
    split
    · simp
    · dsimp only
      split
      · simp
      split
      · split <;> simp
      · exact absurd ‹_› (hclear _ (hsplit.symm ▸ List.prefix_append _ _) _)
      · rw [hsplit]
        exact ih (hsplit ▸ hclear)
    · simp

lemma located_of_find (hp : p.Spells place) (hstraight : t.Straight place)
    (hlink : ∀ target, t.get? place ≠ some (.link target)) (h : t.find here p = .ok (q, e)) :
    q = place ∧ t.locate here false p = .ok place := by
  obtain ⟨route, hroute, hwalk⟩ := locate_eq_ok_iff.1 (find_eq_ok_iff.1 h).1
  obtain ⟨habs, -, down⟩ := hp.descends hroute
  rw [Route.start, if_pos habs] at hwalk
  have hclear (r : Place) (hr : r <+: [] ++ place) : ∀ target, t.get? r ≠ some (.link target) :=
    hstraight.clear hlink hr
  obtain ⟨hthrough, hfound⟩ := advance_clear down hclear
  rw [walk_of_ne_through hthrough] at hwalk
  obtain ⟨rfl, hwalk⟩ := hfound q hwalk
  refine ⟨rfl, locate_eq_ok_iff.2 ⟨route, hroute, ?_⟩⟩
  rw [Route.start, if_pos habs, walk_of_ne_through (by simp [hwalk]), hwalk]

lemma get?_of_exists? (hp : p.Spells place) (hstraight : t.Straight place)
    (h : t.exists? here p = true) : t.get? place ≠ none := by
  intro hnone
  obtain ⟨q, e, hfind⟩ := exists?_eq_true_iff.1 h
  obtain ⟨rfl, -⟩ := located_of_find hp hstraight (by simp [hnone]) hfind
  rw [(find_eq_ok_iff.1 hfind).2] at hnone
  cases hnone

/-! ## Removing what is at a path -/

lemma get?_clear_of_front (hq : q <+: place) : (t.clear place).get? q = t.get? q := by
  rw [get?_clear, if_neg]
  rintro ⟨hfront, hne⟩
  exact hne (hq.eq_of_length_le (List.isPrefixOf_iff_prefix.1 hfront).length_le)

lemma erase_clear (hne : place ≠ []) : (t.clear place).erase place = t.erase place := by
  refine ext_get? fun r => ?_
  rw [get?_erase _ hne, get?_erase _ hne, get?_clear]
  split
  · rfl
  · rw [if_neg fun ⟨hr, _⟩ => ‹¬_› hr]

lemma remove_of_located (hlocate : t.locate here false p = .ok place)
    (hexists : t.exists? here p = true) (hdir : t.get? place ≠ some .dir) :
    t.remove here p = (t.erase place, .ok ()) := by
  obtain ⟨q, e, hfind⟩ := exists?_eq_true_iff.1 hexists
  rw [remove, hfind]
  dsimp only
  rw [hlocate]
  dsimp only
  split
  · contradiction
  · rfl

/-- A directory that is located is emptied before it is removed. -/
lemma remove_of_located_dir (hlocate : t.locate here false p = .ok place)
    (hexists : t.exists? here p = true) (hdir : t.get? place = some .dir) :
    t.remove here p = t.removeDirAll here p place := by
  obtain ⟨q, e, hfind⟩ := exists?_eq_true_iff.1 hexists
  rw [remove, hfind]
  dsimp only
  rw [hlocate]
  dsimp only
  rw [hdir]

lemma remove_of_dir (hp : p.Passes place) (hdir : t.get? place = some .dir) :
    t.remove here p = t.removeDirAll here p place :=
  remove_of_located_dir (locate_of_dir false hp hdir)
    (exists?_eq_true_iff.2 ⟨_, _, find_of_passes (by simp [hdir]) hp hdir (.inl rfl)⟩) hdir

/-- A directory is removed with all that is in it by a path that steps into it at the end. -/
lemma remove_of_into (here : Place) (hp : p.Passes place) (hroute : p.route? = .ok route)
    {name : Name} (hlast : route.steps.getLast? = some (.into name))
    (hdir : t.get? place = some .dir) :
    place ≠ [] ∧ t.remove here p = (t.erase place, .ok ()) := by
  obtain ⟨above, rfl, -⟩ := (hp.descends hroute).2.1.dropLast_into hlast
  have hne : above ++ [name] ≠ [] := by simp
  have hthere : (t.clear (above ++ [name])).get? (above ++ [name]) = some .dir := by
    rw [get?_clear_of_front List.prefix_rfl, hdir]
  have habove : (t.clear (above ++ [name])).get? above = some .dir :=
    get?_eq_dir_of_above (List.prefix_append above [name]) (by simp) (by simp [hthere])
  have hempty : (t.clear (above ++ [name])).children (above ++ [name]) = [] := by
    refine List.eq_nil_iff_forall_not_mem.2 fun child hchild => ?_
    refine mem_children.1 hchild ?_
    rw [get?_clear, if_pos]
    exact ⟨List.isPrefixOf_iff_prefix.2 (List.prefix_append _ _), by simp⟩
  obtain ⟨-, hparent⟩ := parentOf_of_passes hp hroute hlast habove
  have hremoved : (t.clear (above ++ [name])).removeDir here p =
      .ok ((t.clear (above ++ [name])).erase (above ++ [name])) := by
    rw [removeDir, hroute]
    dsimp only
    rw [hparent]
    dsimp only
    rw [hlast]
    dsimp only
    rw [hthere]
    dsimp only
    rw [hempty]
    rfl
  refine ⟨hne, ?_⟩
  rw [remove_of_dir hp hdir, removeDirAll, hremoved, erase_clear hne]

/-- By any other path a directory is emptied, and then refused. -/
lemma remove_of_not_into (here : Place) (hp : p.Passes place) (hroute : p.route? = .ok route)
    (hlast : ∀ name, route.steps.getLast? ≠ some (.into name)) (hdir : t.get? place = some .dir) :
    ∃ cause, (t.remove here p).2 = .error cause := by
  obtain ⟨habs, down, -⟩ := hp.descends hroute
  obtain ⟨above, habove, hdown⟩ := down.exists_dropLast
  have hthere : (t.clear place).get? above = some .dir := by
    rw [get?_clear_of_front habove, get?_eq_dir_of_front habove hdir]
  have hparent : (t.clear place).parentOf here route = .ok above := by
    refine parentOf_eq_ok_iff.2 ⟨?_, hthere⟩
    rw [Route.start, if_pos habs]
    exact walk_dir hdown (fun n hn => hp.short n (habove.subset hn)) hthere linkLimit
  rw [remove_of_dir hp hdir, removeDirAll, removeDir, hroute]
  dsimp only
  rw [hparent]
  cases hstep : route.steps.getLast? with
  | none => exact ⟨_, rfl⟩
  | some step =>
    cases step with
    | here => exact ⟨_, rfl⟩
    | up => exact absurd (List.mem_of_getLast? hstep) down.up_not_mem
    | into name => exact absurd hstep (hlast name)

/-- A directory is removed with all that is in it, unless its path ends in a dot. -/
lemma remove_of_passes (hp : p.Passes place) (hne : place ≠ []) (hdot : ¬p.EndsInDot)
    (hdir : t.get? place = some .dir) : t.remove here p = (t.erase place, .ok ()) := by
  obtain ⟨route, hroute⟩ := hp.exists_route hp.fits
  obtain ⟨name, hlast⟩ := last_into_of_not_dot hp.toSpells hroute hne hdot
  exact (remove_of_into here hp hroute hlast hdir).2

/-- What is removed by a path that ends in its name, or is no link, is gone with all below it, and
nothing else is. -/
lemma eq_erase_of_remove (hp : p.Spells place) (hstraight : t.Straight place)
    (hnamed : p.Pointed ∨ ∀ target, t.get? place ≠ some (.link target))
    (hexists : t.exists? here p = true) (h : t.remove here p = (u, .ok ())) :
    place ≠ [] ∧ u = t.erase place := by
  obtain ⟨q, e, hfind⟩ := exists?_eq_true_iff.1 hexists
  have hpasses := passes_of_find hp hfind
  have hthere := get?_of_exists? hp hstraight hexists
  by_cases hdir : t.get? place = some .dir
  · obtain ⟨route, hroute⟩ := hpasses.exists_route hpasses.fits
    by_cases hlast : ∃ name, route.steps.getLast? = some (.into name)
    · obtain ⟨name, hlast⟩ := hlast
      obtain ⟨hne, hremoved⟩ := remove_of_into here hpasses hroute hlast hdir
      rw [hremoved] at h
      exact ⟨hne, (congrArg Prod.fst h).symm⟩
    · -- Such a path empties the directory and fails, so nothing is said of what is left.
      obtain ⟨cause, hrefused⟩ := remove_of_not_into here hpasses hroute (not_exists.1 hlast) hdir
      rw [h] at hrefused
      cases hrefused
  · have hlocate : t.locate here false p = .ok place := by
      rcases hnamed with hpointed | hlink
      · exact locate_of_pointed (by simp) hpasses hpointed hthere
      · exact (located_of_find hp hstraight hlink hfind).2
    rw [remove_of_located hlocate hexists hdir] at h
    refine ⟨?_, (congrArg Prod.fst h).symm⟩
    rintro rfl
    exact hdir (get?_root t)

lemma remove_of_pointed (hp : p.Spells place) (hstraight : t.Straight place) (hpointed : p.Pointed)
    (hexists : t.exists? here p = true) : t.remove here p = (t.erase place, .ok ()) := by
  obtain ⟨q, e, hfind⟩ := exists?_eq_true_iff.1 hexists
  have hpasses := passes_of_find hp hfind
  by_cases hdir : t.get? place = some .dir
  · obtain ⟨route, hroute⟩ := hpasses.exists_route hpasses.fits
    obtain ⟨-, name, hlast⟩ := hpointed.route_spec hp hroute
    exact (remove_of_into here hpasses hroute hlast hdir).2
  · have hthere := get?_of_exists? hp hstraight hexists
    have hlocate : t.locate here false p = .ok place :=
      locate_of_pointed (by simp) hpasses hpointed hthere
    exact remove_of_located hlocate hexists hdir

/-- What is gone is not there the next time. -/
lemma exists?_erase (hp : p.Spells place) (hstraight : t.Straight place) (hne : place ≠ []) :
    (t.erase place).exists? here p = false := by
  have hgone : (t.erase place).get? place = none := by
    rw [get?_erase _ hne, if_pos (List.isPrefixOf_iff_prefix.2 List.prefix_rfl)]
  have hstill : (t.erase place).Straight place := by
    intro above habove hne' target hlink
    rw [get?_erase _ hne] at hlink
    split at hlink
    · cases hlink
    · exact hstraight above habove hne' target hlink
  exact Bool.eq_false_iff.2 fun hexists => get?_of_exists? hp hstill hexists hgone

/-- What was at a place is gone with all below it, and everything else is as it was. -/
structure Removed (t u : FileTree) (place : Place) : Prop where
  there : t.get? place ≠ none
  gone : ∀ r, place <+: r → u.get? r = none
  kept : ∀ r, ¬place <+: r → u.get? r = t.get? r
  /-- A link is gone alone. -/
  link : ∀ target, t.get? place = some (.link target) → ∀ r, r ≠ place → u.get? r = t.get? r

lemma removed_erase (hne : place ≠ []) (hthere : t.get? place ≠ none) :
    Removed t (t.erase place) place := by
  have gone (r : Place) (hr : place <+: r) : (t.erase place).get? r = none := by
    rw [get?_erase _ hne, if_pos (List.isPrefixOf_iff_prefix.2 hr)]
  have kept (r : Place) (hr : ¬place <+: r) : (t.erase place).get? r = t.get? r := by
    rw [get?_erase _ hne, if_neg (mt List.isPrefixOf_iff_prefix.1 hr)]
  refine ⟨hthere, gone, kept, fun target hlink r hr => ?_⟩
  by_cases hbelow : place <+: r
  · rw [gone r hbelow]
    by_contra hentry
    rw [get?_eq_dir_of_above hbelow (Ne.symm hr) (Ne.symm hentry)] at hlink
    cases hlink
  · exact kept r hbelow

end FileTree

namespace Volume

open FileTree

variable {config : Config} {site : Site} {workspace : Place} {w : World}

/-! ## Removing the volume -/

lemma removeAll_of_missing (h : w.tree.exists? site.here (root config site) = false) :
    removeAll config site w = (.ok false, w) := by
  rw [removeAll, Job.ask_bind, h]
  rfl

/-- Where something is, its path is removed, and the answer tells what came of that. -/
lemma removeAll_of_there (hdry : config.dryRun = false)
    (h : w.tree.exists? site.here (root config site) = true) :
    (removeAll config site w).2.tree = (w.tree.remove site.here (root config site)).1 ∧
      (removeAll config site w).1 =
        match (w.tree.remove site.here (root config site)).2 with
        | .ok () => .ok true
        | .error cause => .error (.files (.remove (root config site)) cause) := by
  rw [removeAll, Job.ask_bind, h, hdry]
  obtain ⟨noted, hnoted, htree⟩ := Job.detail_apply config "Removing"
    (root config site).display w
  simp only [Bool.false_eq_true, if_false, if_true]
  rw [Job.bind_of_ok hnoted, Job.bind_apply, Job.change, htree]
  rcases w.tree.remove site.here (root config site) with ⟨t, cause | _⟩ <;> exact ⟨rfl, rfl⟩

lemma removeAll_of_exists (hdry : config.dryRun = false)
    (h : w.tree.exists? site.here (root config site) = true) :
    (removeAll config site w).2.tree = (w.tree.remove site.here (root config site)).1 ∧
      (removeAll config site w).1 ≠ .ok false ∧
      ((removeAll config site w).1 = .ok true ↔
        (w.tree.remove site.here (root config site)).2 = .ok ()) := by
  obtain ⟨htree, hresult⟩ := removeAll_of_there hdry h
  refine ⟨htree, ?_⟩
  rw [hresult]
  cases (w.tree.remove site.here (root config site)).2 with
  | error cause => exact ⟨nofun, by simp⟩
  | ok => exact ⟨by simp, iff_of_true rfl rfl⟩

/-- Removing says that there was nothing, and does nothing, if and only if nothing is found. If it
says that there was something, the volume is removed and nothing else, and the next time there is
nothing. The last needs a path that ends in its name, or a volume that is no link. -/
theorem removeAll_exact (hdry : config.dryRun = false) (hroot : site.root.Spells workspace)
    (hboot : config.boot.Normal)
    (hstraight : ∀ volume, (root config site).Spells volume → w.tree.Straight volume) :
    let left := (removeAll config site w).2
    ((removeAll config site w).1 = .ok false ↔
      w.tree.exists? site.here (root config site) = false) ∧
    ((removeAll config site w).1 = .ok false → left = w) ∧
    ((root config site).Pointed → w.tree.exists? site.here (root config site) = true →
      (removeAll config site w).1 = .ok true) ∧
    ((removeAll config site w).1 = .ok true →
      ((root config site).Pointed ∨ ∀ volume, (root config site).Spells volume →
        ∀ target, w.tree.get? volume ≠ some (.link target)) →
      ∃ volume, (root config site).Spells volume ∧ Removed w.tree left.tree volume ∧
        removeAll config site left = (.ok false, left)) := by
  intro left
  cases hexists : w.tree.exists? site.here (root config site) with
  | false =>
    have hmissing := removeAll_of_missing hexists
    have hleft : left = w := congrArg Prod.snd hmissing
    rw [hmissing]
    exact ⟨iff_of_true rfl rfl, fun _ => hleft, fun _ => nofun, nofun⟩
  | true =>
    obtain ⟨htree, hfound, hremoved⟩ := removeAll_of_exists hdry hexists
    obtain ⟨_, _, hfind⟩ := exists?_eq_true_iff.1 hexists
    obtain ⟨volume, hvolume⟩ := Build.exists_volume hroot hboot (zero_not_mem_of_find hfind)
    have hstraight := hstraight volume hvolume
    refine ⟨iff_of_false hfound nofun, fun h => absurd h hfound, fun hpointed _ => ?_,
      fun hok hnamed => ?_⟩
    · rw [hremoved, remove_of_pointed hvolume hstraight hpointed hexists]
    · have hnamed := hnamed.imp_right (· volume hvolume)
      obtain ⟨hne, herased⟩ := eq_erase_of_remove hvolume hstraight hnamed hexists
        (Prod.ext rfl (hremoved.1 hok))
      have hleft : left.tree = w.tree.erase volume := htree.trans herased
      refine ⟨volume, hvolume, ?_, removeAll_of_missing ?_⟩
      · exact hleft ▸ removed_erase hne (get?_of_exists? hvolume hstraight hexists)
      · exact hleft ▸ exists?_erase hvolume hstraight hne

end Volume

namespace Build.Twins

def filled (entries : List (String × Entry)) : FileTree :=
  entries.foldl (fun t entry => t.put (place entry.1) entry.2) .empty

/-- A volume with a link out of it, and a link to what is outside. -/
def linked : FileTree :=
  filled [("keep", .dir), ("keep/data", .file (Utf8.encode "data") false), ("esp", .dir),
    ("esp/keep", .link (.ofString "../keep")), ("out", .link (.ofString "keep"))]

/-- A link to the directory that it is in, with a file beside it. -/
def looped : FileTree :=
  filled [("out", .dir), ("out/keep", .file (Utf8.encode "data") false),
    ("out/esp", .link (.ofString "."))]

end Build.Twins

namespace Volume

open FileTree Build.Twins

/-- A volume is removed with the link in it, and a volume that is a link is removed alone. -/
theorem removeAll_exact_linked :
    let config : Config := { boot := .ofString "out" }
    let volume := removeAll {} site { tree := linked }
    let link := removeAll config site { tree := linked }
    (Config.dryRun {} = false ∧ site.root.Spells [] ∧ (Config.boot {}).Normal ∧
      (∀ volume, (root {} site).Spells volume → linked.Straight volume) ∧
      linked.exists? [] (root {} site) = true ∧ (root {} site).Pointed) ∧
    (volume.1 = .ok true ∧ Removed linked volume.2.tree (place "esp") ∧
      removeAll {} site volume.2 = (.ok false, volume.2)) ∧
    (config.dryRun = false ∧ config.boot.Normal ∧
      (∀ volume, (root config site).Spells volume → linked.Straight volume) ∧
      linked.exists? [] (root config site) = true ∧ (root config site).Pointed) ∧
    link.1 = .ok true ∧ Removed linked link.2.tree (place "out") ∧
      removeAll config site link.2 = (.ok false, link.2) := by
  intro config volume link
  have hroot : site.root.Spells [] := ⟨by decide, by decide⟩
  have hspells : (root {} site).Spells (place "esp") := ⟨by decide, by decide +kernel⟩
  have hspells' : (root config site).Spells (place "out") := ⟨by decide, by decide +kernel⟩
  have hboot : (Config.boot {}).Normal := @normal_of_name Default.boot (by decide)
  have hboot' : config.boot.Normal := @normal_of_name "out" (by decide)
  obtain ⟨hthere, hexists, hthere', hexists'⟩ : linked.get? (place "esp") ≠ none ∧
      linked.exists? [] (root {} site) = true ∧ linked.get? (place "out") ≠ none ∧
      linked.exists? [] (root { boot := .ofString "out" } site) = true := by
    decide +kernel
  have hstraight : ∀ volume, (root {} site).Spells volume → linked.Straight volume :=
    fun _ h => h.unique hspells ▸ straight_of_there hthere
  have hstraight' : ∀ volume, (root config site).Spells volume → linked.Straight volume :=
    fun _ h => h.unique hspells' ▸ straight_of_there hthere'
  have hpointed : (root {} site).Pointed := ⟨[[]], Utf8.encode "esp", by decide⟩
  have hpointed' : (root config site).Pointed := ⟨[[]], Utf8.encode "out", by decide⟩
  obtain ⟨-, -, hfound, hexact⟩ :=
    removeAll_exact (w := { tree := linked }) rfl hroot hboot hstraight
  obtain ⟨-, -, hfound', hexact'⟩ :=
    removeAll_exact (w := { tree := linked }) rfl hroot hboot' hstraight'
  have hok := hfound hpointed hexists
  have hok' := hfound' hpointed' hexists'
  obtain ⟨_, hvolume, hremoved, hagain⟩ := hexact hok (.inl hpointed)
  obtain ⟨_, hlink, hremoved', hagain'⟩ := hexact' hok' (.inl hpointed')
  rw [hvolume.unique hspells] at hremoved
  rw [hlink.unique hspells'] at hremoved'
  exact ⟨⟨rfl, hroot, hboot, hstraight, hexists, hpointed⟩, ⟨hok, hremoved, hagain⟩,
    ⟨rfl, hboot', hstraight', hexists', hpointed'⟩, hok', hremoved', hagain'⟩

/-- A dot behind a link to its own directory has all that is there removed with it. -/
theorem removeAll_sweeps_dotted_link :
    let config : Config := { boot := .ofString "out/esp/." }
    let done := removeAll config site { tree := looped }
    (config.dryRun = false ∧ site.root.Spells [] ∧ config.boot.Normal ∧
      config.boot.bytes.getLast? ≠ some Path.slash ∧
      ∀ volume, (root config site).Spells volume → looped.Straight volume) ∧
    done.1 = .ok true ∧
    ¬∃ volume, (root config site).Spells volume ∧ Removed looped done.2.tree volume := by
  intro config done
  have hspells : (root config site).Spells (place "out/esp") := ⟨by decide, by decide +kernel⟩
  have hboot : config.boot.Normal :=
    @Path.normal_of_components _ [Utf8.encode "out", Utf8.encode "esp"] (by decide)
  obtain ⟨hok, hlink, hbeside, hkeep, hlost⟩ :
      (removeAll { boot := .ofString "out/esp/." } site { tree := looped }).1 = .ok true ∧
      looped.get? (place "out/esp") ≠ none ∧ ¬place "out/esp" <+: place "out/keep" ∧
      looped.get? (place "out/keep") = some (.file (Utf8.encode "data") false) ∧
      (removeAll { boot := .ofString "out/esp/." } site { tree := looped }).2.tree.get?
        (place "out/keep") = none := by
    decide +kernel
  refine ⟨⟨rfl, ⟨by decide, by decide⟩, hboot, by decide,
    fun _ h => h.unique hspells ▸ straight_of_there hlink⟩, hok, ?_⟩
  rintro ⟨volume, hvolume, removed⟩
  have hkept := removed.kept _ (hvolume.unique hspells ▸ hbeside)
  rw [hkeep] at hkept
  exact absurd (hlost.symm.trans hkept) nofun

end Volume
end BootVolume
