import BootVolume.Proofs.Delivery
import BootVolume.Proofs.Places
import BootVolume.Proofs.Shown
import BootVolume.Proofs.Sources

/-!
# Reading the sources again

As long as nothing below a place changes, whatever was found there is found again, whether the
directories above it were there from the start or not. So the applications are the same
(`discover_ok`), and so are their packages (`load_ok`).
-/

namespace BootVolume

namespace FileTree

/-- The trees are the same at a place and below it. -/
def SameBelow (base : Place) (t u : FileTree) : Prop := ∀ r, base <+: r → t.get? r = u.get? r

variable {t u v : FileTree} {here base place q : Place} {p : Path} {e : Entry}

lemma SameBelow.symm (h : SameBelow base t u) : SameBelow base u t := fun r hr => (h r hr).symm

lemma SameBelow.trans (h : SameBelow base t u) (h' : SameBelow base u v) : SameBelow base t v :=
  fun r hr => (h r hr).trans (h' r hr)

/-- Deliveries elsewhere change nothing below a place. -/
lemma Receives.sameBelow {D : Delivery → Prop} (h : Receives D t u)
    (hD : ∀ δ, D δ → Apart δ.place base) : SameBelow base t u := by
  intro r hr
  cases h r with
  | same heq => exact heq.symm
  | @made δ hδ _ _ hway => exact absurd (hr.trans (hway.trans (List.dropLast_prefix _))) (hD δ hδ).2
  | @written δ _ _ hδ _ _ heq =>
    exact absurd hr ((hD δ hδ).not_both (heq ▸ prefix_outlet t δ))

section Finding

variable (h : SameBelow base t u) (ht : t.Linkless) (hu : u.Linkless) (hp : p.Spells place)
  (hbase : base <+: place)
include h ht hu hp hbase

lemma SameBelow.find_ok (hfind : t.find here p = .ok (q, e)) : u.find here p = .ok (q, e) := by
  obtain ⟨rfl, he⟩ := get?_of_find ht hp hfind
  exact find_of_find ht hu hp hfind ((h q hbase).symm.trans he) id

lemma SameBelow.exists?_eq : t.exists? here p = u.exists? here p := by
  have ok {t u : FileTree} (h : SameBelow base t u) (ht : t.Linkless) (hu : u.Linkless)
      (hthere : t.exists? here p = true) : u.exists? here p = true := by
    obtain ⟨q, e, hfind⟩ := exists?_eq_true_iff.1 hthere
    exact exists?_eq_true_iff.2 ⟨q, e, h.find_ok ht hu hp hbase hfind⟩
  rw [Bool.eq_iff_iff]
  exact ⟨ok h ht hu, ok h.symm hu ht⟩

lemma SameBelow.isDir_eq : t.isDir here p = u.isDir here p := by
  have ok {t u : FileTree} (h : SameBelow base t u) (ht : t.Linkless) (hu : u.Linkless)
      (hdir : t.isDir here p = true) : u.isDir here p = true :=
    isDir_of_isDir ht hu hp hdir ((h place hbase).symm.trans (get?_of_isDir ht hp hdir))
  rw [Bool.eq_iff_iff]
  exact ⟨ok h ht hu, ok h.symm hu ht⟩

end Finding

end FileTree

open FileTree Layout

variable {site : Site} {root : Place} {w v : World}

lemma leads_manifest {dir : String} {name : Name} (hname : name.bytes = Utf8.encode dir) :
    ∃ rest, (App.manifest dir).Leads (sourcesPlace ++ rest) := by
  have hdir : (Path.ofString dir).Leads [name] := by
    rw [Path.ofString, ← hname]
    exact Path.leads_name name
  have hmanifest : (Path.ofString Layout.manifest).Leads
      [⟨Utf8.encode Layout.manifest, by decide⟩] := ⟨by decide, by decide⟩
  exact ⟨_, (leads_apps.join hdir).join hmanifest⟩

/-- The directory of an application is known by the name that it is shown with. -/
lemma exists_name_of_discover {dirs : List String} (hdirs : (App.discover site w).1 = .ok dirs)
    {dir : String} (hdir : dir ∈ dirs) : ∃ name : Name, name.bytes = Utf8.encode dir := by
  obtain ⟨names, rfl, -⟩ := App.discover_spec hdirs
  obtain ⟨name, -, rfl⟩ := List.mem_map.1 hdir
  exact ⟨⟨Utf8.encode (Utf8.lossy name.bytes), Utf8.isName_lossy name.isName⟩, rfl⟩

section Reading

variable (h : SameBelow (root ++ sourcesPlace) w.tree v.tree) (hw : w.tree.Linkless)
  (hv : v.tree.Linkless) (hroot : site.root.Spells root)
include h hw hv hroot

lemma exists?_bootConfig_eq :
    w.tree.exists? site.here (site.path (.ofString bootConfigSource)) =
      v.tree.exists? site.here (site.path (.ofString bootConfigSource)) := by
  refine h.exists?_eq hw hv (hroot.join leads_bootConfigSource) ?_
  simp [sourcesPlace, bootConfigSourcePlace]

lemma discover_ok {dirs : List String} (hdirs : (App.discover site w).1 = .ok dirs) :
    (App.discover site v).1 = .ok dirs := by
  have hspells : (site.path (.ofString appsSource)).Spells (root ++ appsPlace) :=
    hroot.join leads_apps
  have hbelow : root ++ sourcesPlace <+: root ++ appsPlace := by simp [sourcesPlace, appsPlace]
  have hdir (name : Name) :
      w.tree.isDir site.here ((site.path (.ofString appsSource)).join ⟨name.bytes⟩) =
        v.tree.isDir site.here ((site.path (.ofString appsSource)).join ⟨name.bytes⟩) :=
    h.isDir_eq hw hv (hspells.join (Path.leads_name name)) (hbelow.trans (List.prefix_append _ _))
  rw [App.discover_apply] at hdirs ⊢
  dsimp only at hdirs ⊢
  rw [← h.exists?_eq hw hv hspells hbelow]
  split
  · rename_i hthere
    rw [if_pos hthere] at hdirs
    split at hdirs
    · cases hdirs
    rename_i names hnames
    have hlist : v.tree.list site.here (site.path (.ofString appsSource)) = .ok names := by
      unfold list at hnames ⊢
      split at hnames
      · cases hnames
      · rename_i q hfind
        rw [h.find_ok hw hv hspells hbelow hfind, ← hnames]
        obtain ⟨rfl, -⟩ := get?_of_find hw hspells hfind
        exact congrArg _ (children_congr fun q =>
          (h _ (hbelow.trans (List.prefix_append _ _))).symm)
      · cases hnames
    rw [hlist, ← hdirs]
    simp only [hdir]
  · rename_i hthere
    rwa [if_neg hthere] at hdirs

lemma load_ok {dir : String} {name : Name} (hname : name.bytes = Utf8.encode dir)
    {scan : ManifestScan} {app : App} (happ : (App.load site dir scan w).1 = .ok app) :
    (App.load site dir scan v).1 = .ok app := by
  obtain ⟨rest, hmanifest⟩ := leads_manifest hname
  have hspells : (site.path (App.manifest dir)).Spells (root ++ sourcesPlace ++ rest) := by
    rw [List.append_assoc]
    exact hroot.join hmanifest
  rw [App.load_apply] at happ ⊢
  dsimp only at happ ⊢
  cases htext : w.tree.readText site.here (site.path (App.manifest dir)) with
  | error cause =>
    rw [htext] at happ
    cases happ
  | ok text =>
    rw [htext] at happ
    have hread : v.tree.readText site.here (site.path (App.manifest dir)) = .ok text := by
      unfold readText at htext ⊢
      cases hfind : w.tree.find site.here (site.path (App.manifest dir)) with
      | error cause =>
        rw [hfind] at htext
        cases htext
      | ok found =>
        rw [hfind] at htext
        rw [h.find_ok hw hv hspells (List.prefix_append _ _) hfind, htext]
    rw [hread]
    exact happ

end Reading

end BootVolume
