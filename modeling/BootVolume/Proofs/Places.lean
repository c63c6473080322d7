import BootVolume.Program
import BootVolume.Proofs.Spelling

/-!
# The places of the layout

A run works at a root that spells a place (`Program.exists_spells_root`). Which names the paths of
the layout lead through, under this root and on the volume. No entry of the volume lies on the way
to another one.
-/

namespace BootVolume

/-- Neither place is the other one or lies below it. -/
def Apart (p q : Place) : Prop := ¬p <+: q ∧ ¬q <+: p

namespace Apart

variable {p q : Place} (h : Apart p q)
include h

lemma not_both {r : Place} (hp : p <+: r) : ¬q <+: r :=
  fun hq => (List.prefix_or_prefix_of_prefix hp hq).elim h.1 h.2

lemma not_append (r : Place) : ¬q <+: p ++ r := h.not_both (List.prefix_append p r)

lemma append (r : Place) : Apart (p ++ r) q :=
  ⟨fun hq => h.1 ((List.prefix_append p r).trans hq), h.not_append r⟩

end Apart

lemma spells_path (place : Place) : place.path.Spells place := by
  have hnames (front : Bytes) :
      Path.names ⟨front ++ place.flatMap fun name => Path.slash :: name.bytes⟩ =
        Path.names ⟨front⟩ ++ place.map (·.bytes) := by
    induction place generalizing front with
    | nil => simp
    | cons name rest ih =>
      rw [List.flatMap_cons, List.cons_append, Path.names_append_slash, ih,
        (Path.leads_name name).names]
      rfl
  cases place with
  | nil => exact ⟨rfl, rfl⟩
  | cons name rest => exact ⟨rfl, hnames []⟩

/-- A run works at the root of a place on the way to the current directory. -/
theorem Program.exists_spells_root (tree : FileTree) (here : Place) :
    ∃ root, root <+: here ∧ (Program.site tree here).root.Spells root := by
  have hhere := spells_path here
  rw [Program.site, projectRoot]
  cases hfound : here.path.ancestors.find? fun dir =>
      tree.isDir here (dir.join (.ofString Layout.kernelSource)) with
  | none => exact ⟨here, List.prefix_rfl, hhere⟩
  | some dir => exact hhere.of_mem_ancestors (List.mem_of_find?_eq_some hfound)

namespace Layout

def pkgName : Name := ⟨Utf8.encode "pkg", by decide⟩
def appName : Name := ⟨Utf8.encode "app", by decide⟩
def efiName : Name := ⟨Utf8.encode "EFI", by decide⟩
def bootName : Name := ⟨Utf8.encode "BOOT", by decide⟩
def appsName : Name := ⟨Utf8.encode appsEntry, by decide⟩

/-! Under the root of the project -/

/-- Where all sources lie. -/
def sourcesPlace : Place := [pkgName]

/-- Where all artifacts appear. -/
def targetPlace : Place := [⟨Utf8.encode targetDir, by decide⟩]

def appsPlace : Place := [pkgName, appName]

def bootConfigSourcePlace : Place :=
  [pkgName, ⟨Utf8.encode "kernel", by decide⟩, ⟨Utf8.encode "config", by decide⟩,
    ⟨Utf8.encode "boot.conf", by decide⟩]

/-! On the volume -/

def bootloaderPlace : Place := [efiName, bootName, ⟨Utf8.encode "BOOTX64.EFI", by decide⟩]
def bootConfigPlace : Place := [efiName, bootName, ⟨Utf8.encode "boot.conf", by decide⟩]
def kernelPlace : Place := [⟨Utf8.encode kernelEntry, by decide⟩]
def appPlace (name : Name) : Place := [appsName, name]

lemma leads_apps : (Path.ofString appsSource).Leads appsPlace := ⟨by decide, by decide⟩

lemma leads_bootConfigSource : (Path.ofString bootConfigSource).Leads bootConfigSourcePlace :=
  ⟨by decide, by decide⟩

lemma leads_bootloader : (Path.ofString bootloaderEntry).Leads bootloaderPlace :=
  ⟨by decide, by decide⟩

lemma leads_bootConfig : (Path.ofString bootConfigEntry).Leads bootConfigPlace :=
  ⟨by decide, by decide⟩

lemma leads_kernel : (Path.ofString kernelEntry).Leads kernelPlace := ⟨by decide, by decide⟩

lemma leads_text {name : Name} (h : ∃ text, name.bytes = Utf8.encode text) :
    (Path.ofString (Utf8.lossy name.bytes)).Leads [name] := by
  obtain ⟨text, htext⟩ := h
  have hbytes : Path.ofString (Utf8.lossy name.bytes) = ⟨name.bytes⟩ := by
    rw [htext, Utf8.lossy_encode, Path.ofString]
  rw [hbytes]
  exact Path.leads_name name

variable {name : Name} (h : ∃ text, name.bytes = Utf8.encode text)
include h

lemma leads_appEntry : (appEntry (Utf8.lossy name.bytes)).Leads (appPlace name) := by
  have hentry : (Path.ofString appsEntry).Leads [appsName] := ⟨by decide, by decide⟩
  exact hentry.join (leads_text h)

lemma leads_appManifest :
    ∃ rest, (App.manifest (Utf8.lossy name.bytes)).Leads (appsPlace ++ rest) := by
  have hmanifest : (Path.ofString manifest).Leads [⟨Utf8.encode manifest, by decide⟩] :=
    ⟨by decide, by decide⟩
  have hway := (leads_apps.join (leads_text h)).join hmanifest
  rw [List.append_assoc] at hway
  exact ⟨_, hway⟩

omit h

lemma leads_artifactDir (profile : Profile) {target : String} {first : Place}
    (htarget : (Path.ofString target).Leads first) :
    ∃ way, (((Path.ofString targetDir).join (.ofString target)).join (.ofString profile.dir)).Leads
      (targetPlace ++ way) := by
  have hprofile : ∃ dir, (Path.ofString profile.dir).Leads dir := by
    cases profile
    · exact ⟨[⟨Utf8.encode "release", by decide⟩], by decide, by decide⟩
    · exact ⟨[⟨Utf8.encode "debug", by decide⟩], by decide, by decide⟩
    · exact ⟨[⟨Utf8.encode "release-with-debug", by decide⟩], by decide, by decide⟩
  obtain ⟨dir, hdir⟩ := hprofile
  have hroot : (Path.ofString targetDir).Leads targetPlace := ⟨by decide, by decide⟩
  have way := (hroot.join htarget).join hdir
  rw [List.append_assoc] at way
  exact ⟨_, way⟩

lemma leads_artifact (profile : Profile) {target name : String} {first : Place} {p : Path}
    (htarget : (Path.ofString target).Leads first) (hname : (Path.ofString name).Normal)
    (hzero : 0 ∉ (p.join (artifact target profile name)).bytes) :
    ∃ way, (artifact target profile name).Leads (targetPlace ++ way) := by
  obtain ⟨way, hdir⟩ := leads_artifactDir profile htarget
  have hrelative : (artifact target profile name).isAbsolute = false :=
    Path.relative_join hdir.relative hname.relative
  have hzero := (Path.zero_not_mem_of_join hrelative hzero).2
  obtain ⟨rest, hrest⟩ := hname.exists_leads (Path.zero_not_mem_of_join hname.relative hzero).2
  have hartifact := hdir.join hrest
  rw [List.append_assoc] at hartifact
  exact ⟨_, hartifact⟩

/-- The entries that a build stages. -/
inductive IsEntry : Place → Prop
  | bootloader : IsEntry bootloaderPlace
  | bootConfig : IsEntry bootConfigPlace
  | kernel : IsEntry kernelPlace
  | app (name : Name) : IsEntry (appPlace name)

lemma appPlace_not_mem (name : Name) :
    appPlace name ∉ [bootloaderPlace, bootConfigPlace, kernelPlace] := by
  simp [appPlace, bootloaderPlace, bootConfigPlace, kernelPlace]

/-- No entry is on the way to another one. -/
lemma IsEntry.eq_of_above {p q : Place} (hp : IsEntry p) (hq : IsEntry q) (h : p <+: q) :
    p = q := by
  have apps_ne_efi : appsName ≠ efiName := by decide
  have apps_ne_kernel : appsName ≠ ⟨Utf8.encode kernelEntry, by decide⟩ := by decide
  cases hp with
  | app name =>
    cases hq with
    | app other => simpa [appPlace] using h
    | bootloader | bootConfig =>
      simp [appPlace, bootloaderPlace, bootConfigPlace, apps_ne_efi] at h
    | kernel => simp [appPlace, kernelPlace] at h
  | kernel =>
    cases hq with
    | app other => simp [appPlace, kernelPlace, Ne.symm apps_ne_kernel] at h
    | bootloader | bootConfig => exact absurd h (by decide)
    | kernel => rfl
  | bootloader =>
    cases hq with
    | app other => simpa [appPlace, bootloaderPlace] using h.length_le
    | bootConfig | kernel => exact absurd h (by decide)
    | bootloader => rfl
  | bootConfig =>
    cases hq with
    | app other => simpa [appPlace, bootConfigPlace] using h.length_le
    | bootloader | kernel => exact absurd h (by decide)
    | bootConfig => rfl

end Layout
end BootVolume
