import BootVolume.Proofs.Contents
import BootVolume.Proofs.Delivery
import BootVolume.Proofs.Places
import BootVolume.Proofs.Preserving
import BootVolume.Proofs.Shown
import BootVolume.Rehearsal

/-!
# The footprint of a build

Whatever comes of a build and whatever its sources say, it changes nothing but the entries of the
volume and missing directories on the way to these (`build_touches_layout`).
-/

namespace BootVolume

namespace Build

open FileTree Layout

/-- The places on the volume that applications in these directories, and the fixed components, go
to. -/
inductive Destination (dirs : List String) : Place → Prop
  | bootloader : Destination dirs bootloaderPlace
  | bootConfig : Destination dirs bootConfigPlace
  | kernel : Destination dirs kernelPlace
  | app {dir : String} {name : Name} : dir ∈ dirs → name.bytes = Utf8.encode dir →
    Destination dirs (appPlace name)

/-- Something that is brought to one of these places on the volume. -/
def EntryAmong (config : Config) (site : Site) (among : Place → Prop) (δ : Delivery) : Prop :=
  ∃ volume p, (Volume.root config site).Spells volume ∧ among p ∧ δ.place = volume ++ p

section Entries

variable {config : Config} {site : Site} {among : Place → Prop} {dirs : List String} {p : Place}

lemma Destination.isEntry (h : Destination dirs p) : IsEntry p := by
  cases h with
  | bootloader => exact .bootloader
  | bootConfig => exact .bootConfig
  | kernel => exact .kernel
  | app => exact .app _

lemma ne_nil_of_isEntry (h : IsEntry p) : p ≠ [] := by
  cases h <;> exact nofun

lemma mem_of_above (h : IsEntry p) {q : Place} (hq : q <+: p.dropLast) :
    q ∈ [[], [efiName], [efiName, bootName], [appsName]] := by
  cases h with
  | bootloader | bootConfig =>
    have hq : q <+: [efiName] ++ [bootName] := hq
    rcases List.prefix_concat_iff.1 hq with rfl | hq
    · simp
    · rcases List.prefix_concat_iff.1 (show q <+: [] ++ [efiName] from hq) with rfl | hq
      · simp
      · simp [List.prefix_nil.1 hq]
  | kernel =>
    rw [List.prefix_nil.1 hq]
    simp
  | app name =>
    rcases List.prefix_concat_iff.1 (show q <+: [] ++ [appsName] from hq) with rfl | hq
    · simp
    · simp [List.prefix_nil.1 hq]

lemma unnested_entries (hentries : ∀ p, among p → IsEntry p) :
    Unnested (EntryAmong config site among) := by
  rintro ⟨_, _⟩ ⟨_, _⟩ ⟨volume, p, hvolume, hp, rfl⟩ ⟨volume', q, hvolume', hq, rfl⟩ hway
  obtain rfl := hvolume.unique hvolume'
  have hentry := hentries q hq
  dsimp only at hway
  rw [List.dropLast_append_of_ne_nil (ne_nil_of_isEntry hentry),
    List.prefix_append_right_inj] at hway
  obtain rfl := (hentries p hp).eq_of_above hentry (hway.trans (List.dropLast_prefix q))
  exact Place.not_prefix_dropLast (ne_nil_of_isEntry hentry) hway

/-- The volume lies somewhere if its path holds no NUL. -/
lemma exists_volume {root : Place} (hroot : site.root.Spells root) (hboot : config.boot.Normal)
    (hzero : 0 ∉ (Volume.root config site).bytes) :
    ∃ volume, (Volume.root config site).Spells volume := by
  obtain ⟨way, hway⟩ :=
    hboot.exists_leads (Path.zero_not_mem_of_join hboot.relative hzero).2
  exact ⟨root ++ way, hroot.join hway⟩

lemma leads_shown (name : Name) :
    (appEntry (Utf8.lossy name.bytes)).Leads
      (appPlace ⟨Utf8.encode (Utf8.lossy name.bytes), Utf8.isName_lossy name.isName⟩) := by
  have hentry : (Path.ofString appsEntry).Leads [appsName] := ⟨by decide, by decide⟩
  exact hentry.join (Path.leads_name ⟨_, Utf8.isName_lossy name.isName⟩)

end Entries

/-! ## Deliveries to the entries -/

section Staging

variable {config : Config} {site : Site} {executor : Executor} {root : Place}
  {among : Place → Prop} {t : FileTree}

variable (hdry : config.dryRun = false) (hroot : site.root.Spells root)
  (hboot : config.boot.Normal)
include hdry hroot hboot

/-- Whatever comes of it, staging an entry is a delivery to it. The volume lies somewhere unless the
name of a directory holds a NUL, and then nothing can be staged there. -/
lemma stage_receives_entry {w : World} (hw : w.tree.Linkless) {entry : Path} {p : Place}
    (hleads : entry.Leads p) (hne : p ≠ []) (source : Path) :
    Receives (fun δ => δ.source = site.path source ∧ ∃ volume,
      (Volume.root config site).Spells volume ∧ δ.place = volume ++ p) w.tree
        (Volume.stage config site source entry w).2.tree := by
  by_cases hzero : 0 ∈ config.boot.bytes
  · obtain ⟨seg, hseg, hmem⟩ := Path.exists_zero_mem_names hzero
    have hnames : (Volume.destination config site entry).names =
        site.root.names ++ config.boot.names ++ entry.names := by
      rw [Volume.destination, Volume.root, Site.path, Path.names_join hleads.relative,
        Path.names_join hboot.relative]
    have habs : (Volume.destination config site entry).isAbsolute = true :=
      Path.isAbsolute_join (Path.isAbsolute_join hroot.absolute hboot.relative) hleads.relative
    have hnonempty : entry.names ≠ [] := by
      rw [hleads.names]
      simpa using hne
    have hdestination : 0 ∈ (Volume.destination config site entry).bytes :=
      Path.zero_mem_of_names (by simp [hnames, hseg]) hmem
    rw [Volume.tree_stage_of_zero hdry hdestination]
    · exact receives_refl _ _
    · intro parent hparent
      refine Path.zero_mem_of_names ?_ hmem
      rw [(Path.names_of_parent? habs hparent).2, hnames, List.dropLast_append_of_ne_nil hnonempty]
      simp [hseg]
  · obtain ⟨way, hway⟩ := hboot.exists_leads hzero
    have hvolume : (Volume.root config site).Spells (root ++ way) := hroot.join hway
    have hplace : root ++ way ++ p ≠ [] := by simp [hne]
    refine (Volume.stage_receives hdry hw (hvolume.join hleads) hplace).mono ?_
    rintro _ rfl
    exact ⟨rfl, root ++ way, hvolume, rfl⟩

lemma preserves_stage (ht : t.Linkless) (hentries : ∀ p, among p → IsEntry p) {entry : Path}
    {p : Place} (hleads : entry.Leads p) (hp : among p) (source : Path) :
    Preserves (Receives (EntryAmong config site among) t)
      (Volume.stage config site source entry) := by
  intro w hw
  refine hw.trans ?_ (unnested_entries hentries)
  refine (stage_receives_entry hdry hroot hboot (hw.linkless ht) hleads
    (ne_nil_of_isEntry (hentries p hp)) source).mono ?_
  rintro δ ⟨-, volume, hvolume, hplace⟩
  exact ⟨volume, p, hvolume, hp, hplace⟩

end Staging

/-! ## The whole build -/

/-- The directories of the applications that a build comes upon; none if it does not get there. -/
def discovered (config : Config) (site : Site) (executor : Executor) (w : World) : List String :=
  match (executor.find Layout.toolchain >>= found config site executor) w with
  | (.ok dirs, _) => dirs
  | (.error _, _) => []

section Whole

variable {config : Config} {site : Site} {executor : Executor} {root : Place} {w : World}

lemma shown_of_found {toolchain : Path} {v : World} {dirs : List String}
    (h : found config site executor toolchain w = (.ok dirs, v)) :
    ∀ dir ∈ dirs, ∃ name : Name, dir = Utf8.lossy name.bytes := by
  unfold found at h
  obtain ⟨-, u, -, h⟩ := Job.exists_of_bind_ok h
  obtain ⟨-, u, -, h⟩ := Job.exists_of_bind_ok h
  obtain ⟨names, rfl, -⟩ := App.discover_spec (congrArg Prod.fst h)
  intro dir hdir
  obtain ⟨name, -, rfl⟩ := List.mem_map.1 hdir
  exact ⟨name, rfl⟩

/-- Before a build turns to the applications, it has made deliveries to the fixed entries. -/
lemma receives_found (hdry : config.dryRun = false) (hw : w.tree.Linkless)
    (hroot : site.root.Spells root) (hboot : config.boot.Normal)
    (inert : ∀ calls inv tree, (executor.execute calls inv tree).tree = tree) (toolchain : Path)
    (dirs : List String) :
    Receives (EntryAmong config site (Destination dirs)) w.tree
      (found config site executor toolchain w).2.tree := by
  have hstage {entry : Path} {p : Place} (hleads : entry.Leads p) (hp : Destination dirs p)
      (source : Path) :=
    preserves_stage hdry hroot hboot hw (fun _ => Destination.isEntry) hleads hp source
  exact preserves_found (fun call => preserves_of_keeps (keeps_tree_run inert call))
    (hstage leads_bootloader .bootloader _) (fun _ _ _ => hstage leads_bootConfig .bootConfig _)
    (hstage leads_kernel .kernel _) w (receives_refl _ _)

/-- A build makes deliveries to the volume, for the applications that it comes upon. -/
lemma receives_all (hdry : config.dryRun = false) (hw : w.tree.Linkless)
    (hroot : site.root.Spells root) (hboot : config.boot.Normal)
    (inert : ∀ calls inv tree, (executor.execute calls inv tree).tree = tree) :
    Receives (EntryAmong config site (Destination (discovered config site executor w))) w.tree
      (all config site executor w).2.tree := by
  rw [all_eq, discovered]
  cases hlocate : executor.locate w.tree Layout.toolchain with
  | error failure =>
    rw [Job.find_bind_of_error hlocate, Job.find_bind_of_error hlocate]
    exact receives_refl _ _
  | ok toolchain =>
    rw [Job.find_bind_of_ok hlocate, Job.find_bind_of_ok hlocate]
    have hfixed := receives_found hdry hw hroot hboot inert toolchain
    rcases hfound : found config site executor toolchain w with ⟨failure | dirs, u⟩ <;>
      rw [hfound] at hfixed
    · rw [Job.bind_of_error hfound]
      exact hfixed []
    · rw [Job.bind_of_ok hfound]
      refine preserves_appsIn (fun call => preserves_of_keeps (keeps_tree_run inert call))
        (fun dir hdir _ app _ _ => ?_) u (hfixed dirs)
      obtain ⟨name, rfl⟩ := shown_of_found hfound dir hdir
      exact preserves_stage hdry hroot hboot hw (fun _ => Destination.isEntry) (leads_shown name)
        (.app hdir rfl) _

/-- What a build may do to the entry at a place: it makes missing directories on the way to the
entries of the volume, and it writes these, or a file in the directory that is there. -/
inductive Touched (volume : Place) (dirs : List String) (before after : FileTree) (r : Place) : Prop
  | made : before.get? r = none → after.get? r = some .dir →
    (r <+: volume ∨ ∃ q ∈ [[efiName], [efiName, bootName], [appsName]], r = volume ++ q) →
      Touched volume dirs before after r
  | written {p : Place} {content : Bytes} {executable : Bool} : before.get? r ≠ some .dir →
    after.get? r = some (.file content executable) → Destination dirs p →
    (r = volume ++ p ∨
      before.get? (volume ++ p) = some .dir ∧ ∃ name, r = volume ++ p ++ [name]) →
      Touched volume dirs before after r

/-- Nothing is removed or becomes something of another kind, and everything outside the layout of
the volume stays as it is. -/
structure KeepsToLayout (config : Config) (site : Site) (dirs : List String)
    (before after : FileTree) : Prop where
  dir {r : Place} : before.get? r = some .dir → after.get? r = some .dir
  file {r : Place} {content : Bytes} {executable : Bool} :
    before.get? r = some (.file content executable) →
      ∃ content executable, after.get? r = some (.file content executable)
  changed {r : Place} : after.get? r ≠ before.get? r →
    ∃ volume, (Volume.root config site).Spells volume ∧ Touched volume dirs before after r

/-- Whatever comes of a build and whatever the manifests of its applications say, it keeps to the
layout of the volume. -/
theorem build_touches_layout (hdry : config.dryRun = false) (hlinkless : w.tree.Linkless)
    (hroot : site.root.Spells root) (hboot : config.boot.Normal)
    (inert : ∀ calls inv tree, (executor.execute calls inv tree).tree = tree) :
    KeepsToLayout config site (discovered config site executor w) w.tree
      (all config site executor w).2.tree := by
  have receives := receives_all hdry hlinkless hroot hboot inert
  generalize (all config site executor w).2.tree = after at receives ⊢
  refine ⟨receives.get?_dir, fun {r content executable} hfile => ?_, fun {r} hchanged => ?_⟩
  · cases receives r with
    | same heq => exact ⟨content, executable, heq.trans hfile⟩
    | made _ hnone _ _ =>
      rw [hfile] at hnone
      cases hnone
    | written _ _ hafter _ => exact ⟨_, _, hafter⟩
  · cases receives r with
    | same heq => exact absurd heq hchanged
    | made hδ hnone hdir hway =>
      obtain ⟨volume, p, hvolume, hp, hplace⟩ := hδ
      refine ⟨volume, hvolume, .made hnone hdir ?_⟩
      rw [hplace, List.dropLast_append_of_ne_nil (ne_nil_of_isEntry hp.isEntry)] at hway
      rcases List.prefix_or_prefix_of_prefix hway (List.prefix_append volume p.dropLast) with
        habove | ⟨q, rfl⟩
      · exact .inl habove
      · rw [List.prefix_append_right_inj] at hway
        rcases List.mem_cons.1 (mem_of_above hp.isEntry hway) with rfl | hq
        · exact .inl (by simp)
        · exact .inr ⟨q, hq, rfl⟩
    | @written δ _ _ hδ hne hfile heq =>
      obtain ⟨volume, p, hvolume, hp, hplace⟩ := hδ
      refine ⟨volume, hvolume, .written hne hfile hp ?_⟩
      rw [heq, outlet, hplace]
      by_cases hdir : w.tree.get? (volume ++ p) = some .dir
      · rw [if_pos hdir]
        cases δ.source.entryName? with
        | none => exact .inl (List.append_nil _)
        | some name => exact .inr ⟨hdir, name, rfl⟩
      · rw [if_neg hdir]
        exact .inl rfl

end Whole

namespace Twins

/-- Children that compile nothing. -/
def idle : Executor := ({} : Rehearsal).executor []

lemma idle_inert (calls : List Invocation) (inv : Invocation) (tree : FileTree) :
    (idle.execute calls inv tree).tree = tree := rfl

/-- Without artifacts the build of the twins fails after the kernel was staged. -/
lemma idle_evaluated :
    let done := all {} site idle { tree }
    (done.1.toOption, done.2.tree.get? (place "esp/KERNEL.ELF")) =
      (none, some (.file (Utf8.encode "kernel") false)) := by
  decide +kernel

end Twins

/-- A build that fails half-way has staged some entries and touched nothing else. -/
theorem build_touches_layout_twins :
    let done := all {} Twins.site Twins.idle { tree := Twins.tree }
    (Config.dryRun {} = false ∧ Twins.tree.Linkless ∧ Twins.site.root.Spells [] ∧
      (Config.boot {}).Normal ∧
      ∀ calls inv tree, (Twins.idle.execute calls inv tree).tree = tree) ∧
    (done.1.toOption, done.2.tree.get? (Twins.place "esp/KERNEL.ELF")) =
      (none, some (.file (Utf8.encode "kernel") false)) ∧
    KeepsToLayout {} Twins.site (discovered {} Twins.site Twins.idle { tree := Twins.tree })
      Twins.tree done.2.tree := by
  have orderly := Twins.orderly
  exact ⟨⟨rfl, orderly.linkless, orderly.rooted, orderly.boot, Twins.idle_inert⟩,
    Twins.idle_evaluated, build_touches_layout (w := { tree := Twins.tree }) rfl orderly.linkless
      orderly.rooted orderly.boot Twins.idle_inert⟩

end Build
end BootVolume
