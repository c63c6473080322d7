import BootVolume.App
import BootVolume.Proofs.Descent
import BootVolume.Proofs.Job

/-!
# Reading the sources

Which applications there are, and what their packages are called, depends on the files among the
sources alone (`discover_congr`, `load_congr`).
-/

namespace BootVolume

lemma Node.ordered_at? {n m : Node} (h : n.Ordered) {p : Place} (hm : n.at? p = some m) :
    m.Ordered := by
  induction p generalizing n with
  | nil => exact Option.some.inj hm ▸ h
  | cons name rest ih =>
    obtain ⟨child, hchild, hbelow⟩ := Option.bind_eq_some_iff.1 hm
    have hmem := Listing.mem_of_lookup hchild
    cases h with
    | file | link => cases hmem
    | dir _ below => exact ih (below _ hmem) hbelow

namespace FileTree

variable {t u : FileTree} {place : Place}

lemma children_congr (h : ∀ q, t.get? (place ++ q) = u.get? (place ++ q)) :
    t.children place = u.children place := by
  have same (q : Place) :
      (t.root.at? place).bind (·.get? q) = (u.root.at? place).bind (·.get? q) := by
    simpa only [get?, Node.get?_append] using h q
  rw [children, children]
  cases ha : t.root.at? place with
  | none =>
    cases hb : u.root.at? place with
    | none => rfl
    | some b => simpa [ha, hb] using same []
  | some a =>
    cases hb : u.root.at? place with
    | none => simpa [ha, hb] using same []
    | some b =>
      obtain rfl : a = b := Node.eq_of_get? (Node.ordered_at? t.ordered ha)
        (Node.ordered_at? u.ordered hb) fun q => by simpa [ha, hb] using same q
      rfl

/-- The names of a directory are listed in order. -/
lemma pairwise_children (t : FileTree) (place : Place) :
    (t.children place).Pairwise (· < ·) := by
  rw [children]
  cases hn : t.root.at? place with
  | none => exact List.Pairwise.nil
  | some n =>
    cases Node.ordered_at? t.ordered hn with
    | file | link => exact List.Pairwise.nil
    | dir listed _ => exact List.pairwise_map.2 listed

lemma nodup_children (t : FileTree) (place : Place) : (t.children place).Nodup := by
  refine (pairwise_children t place).imp ?_
  rintro name _ hlt rfl
  exact Name.lt_irrefl name hlt

/-- The trees are the same on the way to a place and below it. -/
def SameAt (place : Place) (t u : FileTree) : Prop :=
  ∀ r, r <+: place ∨ place <+: r → t.get? r = u.get? r

variable {here base : Place} {p : Path}

lemma SameAt.trans {v : FileTree} (h : SameAt base t u) (h' : SameAt base u v) : SameAt base t v :=
  fun r hr => (h r hr).trans (h' r hr)

lemma SameAt.find (here : Place) (h : SameAt base t u) (ht : t.Linkless) (hu : u.Linkless)
    (hp : p.Spells place) (hbase : base <+: place) : t.find here p = u.find here p :=
  find_congr ht hu hp fun _ hr => h _ (List.prefix_or_prefix_of_prefix hr hbase)

end FileTree

namespace App

open FileTree

variable {site : Site} {w v : World} {base : Place}

lemma discover_apply (site : Site) (w : World) :
    (discover site w).1 =
      let apps := site.path (.ofString Layout.appsSource)
      if w.tree.exists? site.here apps then
        match w.tree.list site.here apps with
        | .error cause => .error (.files (.listDir apps) cause)
        | .ok names =>
          .ok (((names.filter fun name => w.tree.isDir site.here (apps.join ⟨name.bytes⟩)).map
            fun name => Utf8.lossy name.bytes).filter (!Layout.reserved.contains ·))
      else .ok [] := by
  rw [discover, Job.ask_bind]
  dsimp only
  split
  · rw [Job.bind_apply, Job.query]
    cases w.tree.list site.here (site.path (.ofString Layout.appsSource)) <;> rfl
  · rfl

lemma load_apply (site : Site) (dir : String) (scan : ManifestScan) (w : World) :
    (load site dir scan w).1 =
      let path := site.path (manifest dir)
      match w.tree.readText site.here path with
      | .error cause => .error (.files (.readText path) cause)
      | .ok text =>
        match Manifest.readName scan text with
        | .error fault => .error (.manifest (manifest dir) fault)
        | .ok none => .error (.missingPackageName (manifest dir))
        | .ok (some package) => .ok { dir, package } := by
  rw [load]
  dsimp only
  rw [Job.bind_apply, Job.query]
  cases w.tree.readText site.here (site.path (manifest dir)) with
  | error cause => rfl
  | ok text =>
    dsimp only
    rcases Manifest.readName scan text with fault | _ | package <;> rfl

lemma discover_congr (hw : w.tree.Linkless) (hv : v.tree.Linkless)
    (hsame : SameAt base w.tree v.tree) {place : Place}
    (hplace : (site.path (.ofString Layout.appsSource)).Spells place) (hbase : base <+: place) :
    (discover site w).1 = (discover site v).1 := by
  have hfind := hsame.find site.here hw hv hplace hbase
  have hlist : w.tree.list site.here (site.path (.ofString Layout.appsSource)) =
      v.tree.list site.here (site.path (.ofString Layout.appsSource)) := by
    unfold list
    rw [hfind]
    split
    · rfl
    · rename_i q hfound
      obtain ⟨rfl, -⟩ := get?_of_find hv hplace hfound
      exact congrArg _ <| children_congr fun q =>
        hsame _ (.inr (hbase.trans (List.prefix_append _ _)))
    · rfl
  have hdir (name : Name) :
      w.tree.isDir site.here ((site.path (.ofString Layout.appsSource)).join ⟨name.bytes⟩) =
        v.tree.isDir site.here ((site.path (.ofString Layout.appsSource)).join ⟨name.bytes⟩) := by
    have hbelow := hplace.join (Path.leads_name name)
    unfold isDir
    rw [hsame.find site.here hw hv hbelow (hbase.trans (List.prefix_append _ _))]
  have hexists : w.tree.exists? site.here (site.path (.ofString Layout.appsSource)) =
      v.tree.exists? site.here (site.path (.ofString Layout.appsSource)) := by
    unfold exists?
    rw [hfind]
  rw [discover_apply, discover_apply]
  dsimp only
  rw [hexists, hlist]
  simp only [hdir]

lemma load_congr (hw : w.tree.Linkless) (hv : v.tree.Linkless) (hsame : SameAt base w.tree v.tree)
    {dir : String} {place : Place} (hplace : (site.path (manifest dir)).Spells place)
    (hbase : base <+: place) (scan : ManifestScan) :
    (load site dir scan w).1 = (load site dir scan v).1 := by
  have htext : w.tree.readText site.here (site.path (manifest dir)) =
      v.tree.readText site.here (site.path (manifest dir)) := by
    unfold readText
    rw [hsame.find site.here hw hv hplace hbase]
  rw [load_apply, load_apply]
  dsimp only
  rw [htext]

/-- The applications that are found are different directories among the applications. -/
lemma discover_spec {dirs : List String} (h : (discover site w).1 = .ok dirs) :
    ∃ names : List Name, dirs = names.map (fun name => Utf8.lossy name.bytes) ∧ names.Nodup ∧
      ∀ name ∈ names, ∃ listed,
        w.tree.list site.here (site.path (.ofString Layout.appsSource)) = .ok listed ∧
        name ∈ listed ∧
        w.tree.isDir site.here
          ((site.path (.ofString Layout.appsSource)).join ⟨name.bytes⟩) = true := by
  rw [discover_apply] at h
  dsimp only at h
  split at h
  · split at h
    · cases h
    rename_i listed hlisted
    cases h
    rw [List.filter_map, List.filter_filter]
    refine ⟨_, rfl, ?_, fun name hname => ⟨listed, hlisted, ?_⟩⟩
    · refine List.Pairwise.filter _ ?_
      unfold list at hlisted
      split at hlisted
      · cases hlisted
      · cases hlisted
        exact nodup_children _ _
      · cases hlisted
    · rw [List.mem_filter, Bool.and_eq_true] at hname
      exact ⟨hname.1, hname.2.2⟩
  · cases h
    exact ⟨[], rfl, List.nodup_nil, by simp⟩

end App
end BootVolume
