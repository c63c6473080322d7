import BootVolume.Proofs.Restaging

/-!
# Discovering applications

The applications are the directories in one directory, in the order of their names and each of them
once, but for the reserved ones (`discover_exact`). A link to a directory counts as one. What leads
nowhere or to a file does not, and where there is no directory to look in, there is no application
or the search fails.
-/

namespace BootVolume

namespace Path

variable {p : Path} {route : Route}

/-- A name that is joined to a path is one more step, with no slash behind it. -/
lemma route?_join_name (hroute : p.route? = .ok route) {name : Name}
    (hfits : (p.join ⟨name.bytes⟩).Fits) :
    (p.join ⟨name.bytes⟩).route? =
      .ok { absolute := route.absolute, steps := route.steps ++ [.into name], slash := false } := by
  have hrelative := (leads_name name).relative
  have hslash := ((pointed_name name).join p hrelative).getLast?_ne_slash
  have habs : (p.join ⟨name.bytes⟩).isAbsolute = p.isAbsolute := by
    cases hp : p.isAbsolute with
    | true => exact isAbsolute_join hp hrelative
    | false => exact relative_join hp hrelative
  rw [route?] at hroute
  split_ifs at hroute
  split at hroute
  · rename_i steps hsteps
    cases hroute
    rw [route?, if_neg hfits.zero, if_neg hfits.nonempty, if_neg (Nat.not_lt.2 hfits.length),
      filter_segments_join rfl hrelative, segments_name, List.mapM_append, hsteps]
    simp [name.isName.1, hslash, habs, Step.ofSegment?_name]
  · cases hroute

end Path

namespace FileTree

open BootVolume.Path

variable {t : FileTree} {here place q : Place} {p : Path} {name : Name} {follow : Bool}
  {steps : List Step} {links more : Nat}

/-- An entry of a directory is a directory, or a link to one. -/
def LeadsToDir (t : FileTree) (place : Place) (name : Name) : Prop :=
  t.get? (place ++ [name]) = some .dir ∨
    ∃ target, t.get? (place ++ [name]) = some (.link target) ∧ t.isDir place target = true

lemma walk_of_more (hmore : links ≤ more) (h : t.walk follow links place steps = .found q) :
    t.walk follow more place steps = .found q := by
  induction links using Nat.strongRecOn generalizing more place steps with
  | ind links ih =>
    unfold walk at h ⊢
    cases hadvance : t.advance follow place steps with
    | found | missing | failed => rwa [hadvance] at h
    | through dir target rest =>
      rw [hadvance] at h
      dsimp only at h ⊢
      split at h
      · cases h
      rename_i links
      have hone : 1 ≤ more := (Nat.le_add_left 1 links).trans hmore
      obtain ⟨more, rfl⟩ := Nat.exists_eq_add_of_le' hone
      dsimp only
      split at h
      · exact ih links (Nat.lt_succ_self links) (Nat.le_of_succ_le_succ hmore) h
      · cases h

lemma walk_into (hlinks : links ≤ linkLimit)
    (h : t.walk true links place [.into name] = .found q) :
    (∀ target, t.get? (place ++ [name]) ≠ some (.link target)) ∧ q = place ++ [name] ∨
      ∃ target route, t.get? (place ++ [name]) = some (.link target) ∧
        target.route? = .ok route ∧
        t.walk true linkLimit (route.start place) route.allSteps = .found q := by
  obtain ⟨hdir, hentry⟩ := first_of_walk h
  obtain ⟨hshort, hthere⟩ := hentry name rfl
  by_cases hlink : ∃ target, t.get? (place ++ [name]) = some (.link target)
  · obtain ⟨target, hlink⟩ := hlink
    have hadvance : t.advance true place [.into name] = .through place target [] := by
      unfold advance
      rw [hdir]
      dsimp only
      rw [if_neg (Nat.not_lt.2 hshort), hlink]
      rfl
    unfold walk at h
    rw [hadvance] at h
    dsimp only at h
    split at h
    · cases h
    rename_i links
    split at h
    · rename_i route hroute
      rw [List.append_nil] at h
      exact .inr ⟨target, route, hlink, hroute, walk_of_more (Nat.le_of_succ_le hlinks) h⟩
    · cases h
  · rw [not_exists] at hlink
    have hadvance : t.advance true place [.into name] = .found (place ++ [name]) :=
      advance_name (fun _ => hlink) hdir hshort hthere
    rw [walk_of_ne_through (by simp [hadvance]), hadvance] at h
    exact .inl ⟨hlink, (Walk.found.inj h).symm⟩

/-- What a path to a directory and the name of an entry find is found from the directory by a step
into the entry. The directory may have taken some links to get to. -/
lemma walk_of_join_name (hdir : t.find here p = .ok (place, .dir))
    (h : t.locate here true (p.join ⟨name.bytes⟩) = .ok q) :
    ∃ links ≤ linkLimit, t.walk true links place [.into name] = .found q := by
  obtain ⟨route', hroute', hwalk'⟩ := locate_eq_ok_iff.1 h
  obtain ⟨route, hroute, hwalk⟩ := locate_eq_ok_iff.1 (find_eq_ok_iff.1 hdir).1
  have hsteps : t.walk true linkLimit (route.start here) route.steps = .found place := by
    rw [Route.allSteps] at hwalk
    split at hwalk
    · obtain ⟨mid, left, hmid, hlast⟩ := walk_mid (List.cons_ne_nil _ _) hwalk
      have hstay : t.walk true left mid [.here] = .found (mid ++ []) :=
        walk_dir (.here .nil) (by simp) (by simpa using (first_of_walk hlast).1) left
      rw [hmid, ← hlast, hstay, List.append_nil]
    · exact hwalk
  obtain ⟨left, hfew, hleft⟩ := walk_stretch hsteps
  have hjoined := route?_join_name hroute (fits_of_route? hroute')
  obtain rfl := Except.ok.inj (hroute'.symm.trans hjoined)
  exact ⟨left, hfew, (hleft true _ (List.cons_ne_nil _ _)).symm.trans hwalk'⟩

/-- By its path an entry of a directory is one if it is there and is a directory or a link to
one. -/
lemma isDir_join_name_iff (hdir : t.find here p = .ok (place, .dir)) (name : Name) :
    t.isDir here (p.join ⟨name.bytes⟩) = true ↔
      t.exists? here (p.join ⟨name.bytes⟩) = true ∧ t.LeadsToDir place name := by
  rw [isDir_eq_true_iff, exists?_eq_true_iff]
  constructor
  · rintro ⟨q, hfind⟩
    obtain ⟨hlocate, hq⟩ := find_eq_ok_iff.1 hfind
    refine ⟨⟨q, .dir, hfind⟩, ?_⟩
    obtain ⟨links, hlinks, hwalk⟩ := walk_of_join_name hdir hlocate
    obtain ⟨-, rfl⟩ | ⟨target, route, hlink, hroute, hwalk⟩ := walk_into hlinks hwalk
    · exact .inl hq
    · refine .inr ⟨target, hlink, isDir_eq_true_iff.2 ⟨q, find_eq_ok_iff.2 ⟨?_, hq⟩⟩⟩
      exact locate_eq_ok_iff.2 ⟨route, hroute, hwalk⟩
  · rintro ⟨⟨q, e, hfind⟩, hentry⟩
    obtain ⟨hlocate, hq⟩ := find_eq_ok_iff.1 hfind
    refine ⟨q, find_eq_ok_iff.2 ⟨hlocate, ?_⟩⟩
    obtain ⟨links, hlinks, hwalk⟩ := walk_of_join_name hdir hlocate
    obtain ⟨hlink, rfl⟩ | ⟨target, route, hlink, hroute, hwalk⟩ := walk_into hlinks hwalk
    · exact hentry.resolve_right fun ⟨target, htarget, _⟩ => hlink target htarget
    · obtain hentry | ⟨target', htarget, hentry⟩ := hentry
      · rw [hlink] at hentry
        cases hentry
      obtain rfl : target = target' := by simpa [hlink] using htarget
      obtain ⟨q', hfind'⟩ := isDir_eq_true_iff.1 hentry
      obtain ⟨hlocate', hq'⟩ := find_eq_ok_iff.1 hfind'
      obtain rfl : q = q' := Except.ok.inj <|
        (locate_eq_ok_iff.2 ⟨route, hroute, hwalk⟩).symm.trans hlocate'
      exact hq'

end FileTree

namespace App

open FileTree

lemma pairwise_shown {names : List Name} (hnames : names.Pairwise (· < ·))
    (htexts : ∀ name ∈ names, ∃ text, name.bytes = Utf8.encode text) :
    (names.map fun name => Utf8.lossy name.bytes).Pairwise
      fun a b => Utf8.encode a < Utf8.encode b := by
  refine List.pairwise_map.2 (hnames.imp_of_mem fun {a b} ha hb hlt => ?_)
  obtain ⟨text, htext⟩ := htexts a ha
  obtain ⟨text', htext'⟩ := htexts b hb
  rw [htext, htext', Utf8.lossy_encode, Utf8.lossy_encode, ← htext, ← htext']
  exact hlt

/-- Without a directory of applications none is found. In one, the names that are found are in the
strict order of their bytes, and they are just those of the entries whose paths lead to directories,
without the reserved ones. The path of an entry leads to a directory if it leads to something and
the entry is a directory or a link to one. Anything else in the place of the directory of
applications is refused. -/
theorem discover_exact (site : Site) (w : World)
    (htexts : ∀ place,
      w.tree.find site.here (site.path (.ofString Layout.appsSource)) = .ok (place, .dir) →
      ∀ name ∈ w.tree.children place, ∃ text, name.bytes = Utf8.encode text) :
    let apps := site.path (.ofString Layout.appsSource)
    (w.tree.exists? site.here apps = false → (discover site w).1 = .ok []) ∧
    (∀ place, w.tree.find site.here apps = .ok (place, .dir) →
      ∃ dirs, (discover site w).1 = .ok dirs ∧
        dirs.Pairwise (fun a b => Utf8.encode a < Utf8.encode b) ∧
        (∀ dir, dir ∈ dirs ↔ dir ∉ Layout.reserved ∧
          ∃ name : Name, name.bytes = Utf8.encode dir ∧
            w.tree.get? (place ++ [name]) ≠ none ∧
            w.tree.isDir site.here (apps.join ⟨name.bytes⟩) = true) ∧
        ∀ name : Name, w.tree.isDir site.here (apps.join ⟨name.bytes⟩) = true ↔
          w.tree.exists? site.here (apps.join ⟨name.bytes⟩) = true ∧
            w.tree.LeadsToDir place name) ∧
    (∀ place e, w.tree.find site.here apps = .ok (place, e) → e ≠ .dir →
      (discover site w).1 = .error (.files (.listDir apps) (.os .notDirectory))) := by
  intro apps
  rw [discover_apply]
  dsimp only
  refine ⟨fun hmissing => ?_, fun place hfind => ?_, fun place e hfind hdir => ?_⟩
  · exact if_neg (Bool.eq_false_iff.1 hmissing)
  · have hthere : w.tree.exists? site.here apps = true := exists?_eq_true_iff.2 ⟨_, _, hfind⟩
    have hlist : w.tree.list site.here apps = .ok (w.tree.children place) := by rw [list, hfind]
    rw [if_pos hthere, hlist]
    refine ⟨_, rfl, ?_, fun dir => ?_, isDir_join_name_iff hfind⟩
    · refine List.Pairwise.filter _ (pairwise_shown ?_ fun name hname => ?_)
      · exact List.Pairwise.filter _ (pairwise_children w.tree place)
      · exact htexts place hfind name (List.mem_filter.1 hname).1
    · have hshown (name : Name) (hname : name ∈ w.tree.children place) :
          Utf8.lossy name.bytes = dir ↔ name.bytes = Utf8.encode dir := by
        obtain ⟨text, htext⟩ := htexts place hfind name hname
        rw [htext, Utf8.lossy_encode]
        exact ⟨congrArg _, Utf8.encode_injective⟩
      simp only [List.mem_filter, List.mem_map, Bool.not_eq_true', List.contains_eq_mem,
        decide_eq_false_iff_not, ← mem_children]
      constructor
      · rintro ⟨⟨name, ⟨hname, hdir⟩, heq⟩, hfree⟩
        exact ⟨hfree, name, (hshown name hname).1 heq, hname, hdir⟩
      · rintro ⟨hfree, name, heq, hname, hdir⟩
        exact ⟨⟨name, ⟨hname, hdir⟩, (hshown name hname).2 heq⟩, hfree⟩
  · have hthere : w.tree.exists? site.here apps = true := exists?_eq_true_iff.2 ⟨_, _, hfind⟩
    rw [if_pos hthere, list, hfind]
    cases e with
    | dir => exact absurd rfl hdir
    | file | link => rfl

namespace Mixed

open Build.Twins

/-- Two applications and a link to a directory, among reserved directories, a file, a link to it and
a link that leads nowhere. -/
def tree : FileTree :=
  [("pkg", .dir), ("pkg/app", .dir), ("pkg/app/b", .dir), ("pkg/app/a", .dir),
    ("pkg/app/a/src", .dir), ("pkg/app/.cargo", .dir), ("pkg/app/config", .dir),
    ("pkg/app/linked", .link (.ofString "a/src")), ("pkg/app/README", .file [] false),
    ("pkg/app/text", .link (.ofString "README")), ("pkg/app/lost", .link (.ofString "gone"))].foldl
    (fun t (entry : String × Entry) => t.put (place entry.1) entry.2) .empty

def shown : List String :=
  [".cargo", "README", "a", "b", "config", "linked", "lost", "text"]

lemma evaluated :
    (tree.find [] (site.path (.ofString Layout.appsSource))).toOption =
      some (place "pkg/app", .dir) ∧
    (tree.children (place "pkg/app")).map (·.bytes) = shown.map Utf8.encode ∧
    (discover site { tree }).1.toOption = some ["a", "b", "linked"] := by
  decide +kernel

end Mixed

open Build.Twins in
/-- Two of three names are found of directories and the third one of a link. -/
theorem discover_exact_mixed :
    (∀ place, Mixed.tree.find site.here (site.path (.ofString Layout.appsSource)) =
        .ok (place, .dir) →
      ∀ name ∈ Mixed.tree.children place, ∃ text, name.bytes = Utf8.encode text) ∧
    (discover site { tree := Mixed.tree }).1 = .ok ["a", "b", "linked"] ∧
    ["a", "b", "linked"].Pairwise (fun a b => Utf8.encode a < Utf8.encode b) ∧
    ∀ dir, dir ∈ ["a", "b", "linked"] ↔ dir ∉ Layout.reserved ∧
      ∃ name : Name, name.bytes = Utf8.encode dir ∧
        Mixed.tree.get? (place "pkg/app" ++ [name]) ≠ none ∧
        Mixed.tree.isDir site.here
          ((site.path (.ofString Layout.appsSource)).join ⟨name.bytes⟩) = true := by
  obtain ⟨hfind, hnames, hdirs⟩ := Mixed.evaluated
  have hfind := eq_ok_of_toOption hfind
  have htexts : ∀ place, Mixed.tree.find site.here (site.path (.ofString Layout.appsSource)) =
      .ok (place, .dir) →
      ∀ name ∈ Mixed.tree.children place, ∃ text, name.bytes = Utf8.encode text := by
    intro q hq name hname
    obtain ⟨rfl, -⟩ := Prod.mk.inj (Except.ok.inj (hfind.symm.trans hq))
    have hbytes : name.bytes ∈ Mixed.shown.map Utf8.encode := hnames ▸ List.mem_map_of_mem hname
    obtain ⟨text, -, htext⟩ := List.mem_map.1 hbytes
    exact ⟨text, htext.symm⟩
  obtain ⟨-, hdir, -⟩ := discover_exact site { tree := Mixed.tree } htexts
  obtain ⟨dirs, hfound, hsorted, hmem, -⟩ := hdir _ hfind
  obtain rfl := Except.ok.inj (hfound.symm.trans (eq_ok_of_toOption hdirs))
  exact ⟨htexts, hfound, hsorted, hmem⟩

end App
end BootVolume
