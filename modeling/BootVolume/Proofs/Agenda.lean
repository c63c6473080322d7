import BootVolume.Proofs.Footprint
import BootVolume.Proofs.Rereading

/-!
# The agenda of a build

Which files a build stages is known from its sources beforehand (`agenda`). Each of them goes to an
entry of the volume (`exists_reaches`), and comes from below the sources or the target directory
(`exists_origin`).
-/

namespace BootVolume.Build

open FileTree Layout

/-- A file that a build stages: what it is, and where on the volume it goes. -/
structure Errand where
  source : Path
  entry : Path

def Component.errand (c : Component) : Errand := ⟨c.artifact, c.entry⟩

def bootConfigErrand : Errand := ⟨.ofString bootConfigSource, .ofString bootConfigEntry⟩

section Agenda

variable (config : Config) (site : Site) (w : World)

/-- What is staged for the applications in some directories, but for those that cannot be loaded. -/
def appErrands (dirs : List String) : List Errand :=
  dirs.filterMap fun dir => (App.load site dir config.manifestScan w).1.toOption.map fun app =>
    (Component.app config dir app.package).errand

/-- Everything that a build stages, as its sources are in a world. -/
def agenda : List Errand :=
  Component.bootloader.errand ::
    ((if w.tree.exists? site.here (site.path (.ofString bootConfigSource)) then [bootConfigErrand]
      else []) ++
    (Component.kernel config).errand ::
      (App.discover site w).1.toOption.elim [] (appErrands config site w))

end Agenda

/-- The applications that a build comes upon are those that were there at the start. -/
lemma discover_of_found {config : Config} {site : Site} {executor : Executor} {toolchain : Path}
    {w v : World} {root : Place} {dirs : List String}
    (h : found config site executor toolchain w = (.ok dirs, v))
    (hsame : SameBelow (root ++ sourcesPlace) w.tree v.tree) (hw : w.tree.Linkless)
    (hv : v.tree.Linkless) (hroot : site.root.Spells root) :
    (App.discover site w).1 = .ok dirs := by
  unfold found at h
  obtain ⟨-, _, -, h⟩ := Job.exists_of_bind_ok h
  obtain ⟨-, u, -, h⟩ := Job.exists_of_bind_ok h
  have htree : v.tree = u.tree := by
    simpa [h] using Job.overlooks_tree.law.discover site u
  rw [htree] at hsame hv
  exact discover_ok hsame.symm hv hw hroot (congrArg Prod.fst h)

variable {config : Config} {site : Site} {w : World} {dir : String} {dirs : List String}
  {app : App} {errand : Errand}

lemma appErrands_cons (h : (App.load site dir config.manifestScan w).1 = .ok app) :
    appErrands config site w (dir :: dirs) =
      (Component.app config dir app.package).errand :: appErrands config site w dirs :=
  List.filterMap_cons_some (by rw [h]; rfl)

lemma bootloader_mem_agenda : Component.bootloader.errand ∈ agenda config site w :=
  List.mem_cons_self

lemma bootConfig_mem_agenda
    (h : w.tree.exists? site.here (site.path (.ofString bootConfigSource)) = true) :
    bootConfigErrand ∈ agenda config site w := by
  simp [agenda, h]

lemma kernel_mem_agenda : (Component.kernel config).errand ∈ agenda config site w := by
  simp [agenda]

lemma app_mem_agenda (hdirs : (App.discover site w).1 = .ok dirs) (hdir : dir ∈ dirs)
    (happ : (App.load site dir config.manifestScan w).1 = .ok app) :
    (Component.app config dir app.package).errand ∈ agenda config site w := by
  have hmem : (Component.app config dir app.package).errand ∈ appErrands config site w dirs :=
    List.mem_filterMap.2 ⟨dir, hdir, by rw [happ]; rfl⟩
  simp [agenda, hdirs, Except.toOption, hmem]

lemma of_mem_agenda {P : Errand → Prop} (bootloader : P Component.bootloader.errand)
    (bootConfig : P bootConfigErrand) (kernel : P (Component.kernel config).errand)
    (apps : ∀ (name : Name) (dirs : List String) (app : App),
      (App.discover site w).1 = .ok dirs → Utf8.lossy name.bytes ∈ dirs →
        (App.load site (Utf8.lossy name.bytes) config.manifestScan w).1 = .ok app →
          P (Component.app config (Utf8.lossy name.bytes) app.package).errand)
    (h : errand ∈ agenda config site w) : P errand := by
  rw [agenda, List.mem_cons, List.mem_append, List.mem_cons] at h
  rcases h with rfl | h | rfl | h
  · exact bootloader
  · split at h
    · exact List.mem_singleton.1 h ▸ bootConfig
    · cases h
  · exact kernel
  cases hdirs : (App.discover site w).1 with
  | error failure =>
    rw [hdirs] at h
    cases h
  | ok dirs =>
    rw [hdirs] at h
    obtain ⟨dir, hdir, happ⟩ := List.mem_filterMap.1 h
    obtain ⟨names, rfl, -⟩ := App.discover_spec hdirs
    obtain ⟨name, -, rfl⟩ := List.mem_map.1 hdir
    cases hload : (App.load site (Utf8.lossy name.bytes) config.manifestScan w).1 with
    | error failure =>
      rw [hload] at happ
      cases happ
    | ok app =>
      rw [hload] at happ
      cases happ
      exact apps name _ app hdirs hdir hload

/-- A file goes to an entry of the volume, by a path that ends in a name. -/
structure Errand.Reaches (errand : Errand) (p : Place) : Prop where
  isEntry : IsEntry p
  leads : errand.entry.Leads p
  pointed : errand.entry.Pointed

lemma pointed_of_fixed {entry : String}
    (h : entry ∈ [bootloaderEntry, bootConfigEntry, kernelEntry]) :
    (Path.ofString entry).Pointed := by
  simp only [List.mem_cons, List.not_mem_nil, or_false] at h
  rcases h with rfl | rfl | rfl
  · exact ⟨["EFI", "BOOT"].map Utf8.encode, Utf8.encode "BOOTX64.EFI", by decide, by decide⟩
  · exact ⟨["EFI", "BOOT"].map Utf8.encode, Utf8.encode "boot.conf", by decide, by decide⟩
  · exact ⟨[], Utf8.encode kernelEntry, by decide, by decide⟩

lemma exists_reaches (h : errand ∈ agenda config site w) : ∃ p, errand.Reaches p := by
  refine of_mem_agenda (P := fun errand => ∃ p, errand.Reaches p) ?_ ?_ ?_ ?_ h
  · exact ⟨_, .bootloader, leads_bootloader, pointed_of_fixed (by simp)⟩
  · exact ⟨_, .bootConfig, leads_bootConfig, pointed_of_fixed (by simp)⟩
  · exact ⟨_, .kernel, leads_kernel, pointed_of_fixed (by simp)⟩
  · intro name dirs app _ _ _
    let shown : Name := ⟨Utf8.encode (Utf8.lossy name.bytes), Utf8.isName_lossy name.isName⟩
    exact ⟨_, .app _, leads_shown name, (Path.pointed_name shown).join (.ofString appsEntry)
      (Path.leads_name shown).relative⟩

/-- What is staged comes from below the sources or the target directory. -/
lemma exists_origin
    (hpackages : ∀ dirs, (App.discover site w).1 = .ok dirs → ∀ dir ∈ dirs, ∀ app,
      (App.load site dir config.manifestScan w).1 = .ok app → (Path.ofString app.package).Normal)
    (h : errand ∈ agenda config site w) (hzero : 0 ∉ (site.path errand.source).bytes) :
    ∃ base ∈ [sourcesPlace, targetPlace], ∃ way, errand.source.Leads (base ++ way) := by
  revert hzero
  refine of_mem_agenda (P := fun errand => 0 ∉ (site.path errand.source).bytes →
    ∃ base ∈ [sourcesPlace, targetPlace], ∃ way, errand.source.Leads (base ++ way)) ?_ ?_ ?_ ?_ h
  · exact fun hzero => ⟨targetPlace, by simp, leads_bootloader_artifact hzero⟩
  · exact fun _ => ⟨sourcesPlace, by simp, _, leads_bootConfigSource⟩
  · exact fun hzero => ⟨targetPlace, by simp, leads_kernel_artifact hzero⟩
  · intro name dirs app hdirs hdir hload hzero
    have hpackage := hpackages dirs hdirs _ hdir app hload
    have hleads : ∃ way, (Component.app config (Utf8.lossy name.bytes) app.package).artifact.Leads
        (targetPlace ++ way) := leads_app_artifact hpackage hzero
    exact ⟨targetPlace, by simp, hleads⟩

end BootVolume.Build
