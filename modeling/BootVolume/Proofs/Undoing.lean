import BootVolume.Proofs.Removing

/-!
# Undoing a build

Where no volume was, removing it takes away whatever a build made, and nothing else
(`removeAll_undoes_build`), unless the path of the volume ends in a dot
(`removeAll_keeps_dotted_volume`).
-/

namespace BootVolume.Build

open FileTree Layout

section Undoing

variable {config : Config} {site : Site} {executor : Executor} {root volume : Place} {w v : World}

/-- The directory that the boot loader is put into. -/
def bootloaderDir : Path := .ofString "EFI/BOOT"

lemma parent?_bootloader (hvolume : (Volume.root config site).Spells volume) :
    (Volume.destination config site (.ofString bootloaderEntry)).parent? =
      some (Volume.destination config site bootloaderDir) := by
  have hdir : bootloaderDir.isAbsolute = false := by decide
  have hpointed : bootloaderDir.Pointed := ⟨[Utf8.encode "EFI"], Utf8.encode "BOOT", by decide⟩
  have hlast : Path.isIdle (Utf8.encode "BOOTX64.EFI") = false := by decide
  obtain ⟨front, hfront⟩ := Path.exists_segments_join (Volume.root config site)
  refine Path.parent?_of_pointed (Path.isAbsolute_join hvolume.absolute hdir)
    (hpointed.join _ hdir) hlast ?_
  rw [Volume.destination, Volume.destination, hfront _ leads_bootloader.relative, hfront _ hdir,
    List.append_assoc]
  rfl

/-- What is above the volume stays out of a change, and what is changed elsewhere is on the volume
or it itself. -/
lemma volume_prefix_of_missing {t : FileTree} {r p : Place}
    (habove : t.get? volume.dropLast = some .dir) (hr : r <+: volume ++ p)
    (hnone : t.get? r = none) : volume <+: r := by
  rcases List.prefix_or_prefix_of_prefix hr (List.prefix_append volume p) with hfront | hbelow
  · by_cases heq : r = volume
    · exact heq ▸ List.prefix_rfl
    · rw [get?_eq_dir_of_front (Place.prefix_dropLast_of_ne hfront heq) habove] at hnone
      cases hnone
  · exact hbelow

/-- A copy to an entry comes to something only if the path of the volume passes to it. -/
lemma passes_of_copy {t u : FileTree} (ht : t.Linkless)
    (hvolume : (Volume.root config site).Spells volume) {entry source : Path} {p : Place}
    (hleads : entry.Leads p)
    (hcopy : t.copy site.here source
      (t.copyTarget site.here source (Volume.destination config site entry)) = .ok u) :
    (Volume.root config site).Passes volume := by
  obtain ⟨hpasses, origin, content, executable, hfind, -⟩ :=
    copy_outlet ht (hvolume.join hleads) hcopy
  have hbytes : (Volume.root config site).bytes <+:
      (t.copyTarget site.here source (Volume.destination config site entry)).bytes :=
    (Path.bytes_prefix_join _ hleads.relative).trans
      (bytes_prefix_copyTarget t site.here _ (zero_not_mem_of_find hfind))
  have hplace : volume <+: t.outlet ⟨source, volume ++ p⟩ :=
    (List.prefix_append volume p).trans (prefix_outlet t ⟨source, volume ++ p⟩)
  exact hpasses.of_front hplace hvolume hbytes

/-- Directories are made for the boot loader only if the path of the volume passes to it: it is a
part of the longest path among theirs. -/
lemma passes_of_makeDirs {t : FileTree} (ht : t.Linkless)
    (hvolume : (Volume.root config site).Spells volume)
    (habove : t.get? volume.dropLast = some .dir)
    (h : (t.makeDirs site.here (Volume.destination config site bootloaderDir)).1 ≠ t) :
    (Volume.root config site).Passes volume := by
  have hdir : bootloaderDir.Leads [efiName, bootName] := ⟨by decide, by decide⟩
  have hspells : (Volume.destination config site bootloaderDir).Spells
      (volume ++ [efiName, bootName]) := hvolume.join hdir
  obtain ⟨above, hancestors⟩ := (Volume.destination config site bootloaderDir).exists_ancestors
  obtain ⟨r, hr⟩ := exists_get?_ne h
  obtain ⟨hnone, -, hway⟩ := (paves_makeDirs ht hspells r).resolve_left hr
  have hbelow := volume_prefix_of_missing habove hway hnone
  have hshort := short_of_makeChain ht (fun _ hq => hspells.of_mem_ancestors hq) hr
  rw [makeDirs, hancestors] at h
  refine ⟨hvolume, (fits_of_makeChain h).of_front (Path.bytes_ne_nil hvolume.absolute) ?_, ?_⟩
  · exact Path.bytes_prefix_join _ hdir.relative
  · exact fun name hname => hshort name (hbelow.subset hname)

/-- Where the directory above the volume is there, staging the boot loader succeeds or does
something only if the path of the volume passes to it. -/
lemma passes_of_stage (hdry : config.dryRun = false) (hw : w.tree.Linkless)
    (hvolume : (Volume.root config site).Spells volume)
    (habove : w.tree.get? volume.dropLast = some .dir) {source : Path}
    {result : Except Failure Path}
    (h : Volume.stage config site source (.ofString bootloaderEntry) w = (result, v))
    (hdone : (∃ staged, result = .ok staged) ∨ v.tree ≠ w.tree) :
    (Volume.root config site).Passes volume := by
  have hentry : (Volume.destination config site (.ofString bootloaderEntry)).Spells
      (volume ++ bootloaderPlace) := hvolume.join leads_bootloader
  have linkless {paved : FileTree} (hpaved : paved = w.tree ∨ ∃ parent,
      (Volume.destination config site (.ofString bootloaderEntry)).parent? = some parent ∧
        paved = (w.tree.makeDirs site.here parent).1) : paved.Linkless := by
    rcases hpaved with rfl | ⟨parent, hparent, rfl⟩
    · exact hw
    · exact (paves_makeDirs hw (hentry.parent? hparent)).linkless hw
  rcases hdone with ⟨staged, rfl⟩ | hchanged
  · obtain ⟨paved, hpaved, hcopy⟩ := Volume.copy_of_stage hdry h
    exact passes_of_copy (linkless hpaved) hvolume leads_bootloader hcopy
  · obtain ⟨paved, hpaved, hcopied⟩ :=
      Volume.tree_stage hdry source (.ofString bootloaderEntry) w
    rw [h] at hcopied
    rcases hcopied with heq | hcopy
    · rcases hpaved with rfl | ⟨parent, hparent, rfl⟩
      · exact absurd heq hchanged
      · rw [parent?_bootloader hvolume, Option.some.injEq] at hparent
        subst hparent
        exact passes_of_makeDirs hw hvolume habove (heq ▸ hchanged)
    · exact passes_of_copy (linkless hpaved) hvolume leads_bootloader hcopy

/-- Where the directory above the volume is there, a build does something only if the path of the
volume passes to it. -/
lemma passes_of_build (hdry : config.dryRun = false) (hw : w.tree.Linkless)
    (inert : ∀ calls inv tree, (executor.execute calls inv tree).tree = tree)
    (hvolume : (Volume.root config site).Spells volume)
    (habove : w.tree.get? volume.dropLast = some .dir)
    (h : (all config site executor w).2.tree ≠ w.tree) :
    (Volume.root config site).Passes volume := by
  unfold all bootloader at h
  simp only [bind_assoc] at h
  cases hlocate : executor.locate w.tree Layout.toolchain with
  | error failure =>
    rw [Job.find_bind_of_error hlocate] at h
    exact absurd rfl h
  | ok toolchain =>
    rw [Job.find_bind_of_ok hlocate, Job.say_bind] at h
    generalize hsaid : { w with events := _ } = said at h
    have htree : said.tree = w.tree := hsaid ▸ rfl
    have hrun := keeps_tree_run inert
      (.compile toolchain .release (.ofString bootloaderSource)) said
    rcases hran : executor.run (.compile toolchain .release (.ofString bootloaderSource)) said with
      ⟨failure | _, ran⟩ <;> rw [hran] at hrun
    · rw [Job.bind_of_error hran] at h
      exact absurd (hrun.trans htree) h
    rw [Job.bind_of_ok hran] at h
    change ran.tree = said.tree at hrun
    rw [← htree, ← hrun] at hw habove h
    generalize artifact bootloaderTarget .release (bootloaderPackage ++ ".efi") = source at h
    rcases hstage : Volume.stage config site source (.ofString bootloaderEntry) ran with
      ⟨failure | staged, v⟩
    · rw [Job.bind_of_error hstage] at h
      exact passes_of_stage hdry hw hvolume habove hstage (.inr h)
    · exact passes_of_stage hdry hw hvolume habove hstage (.inl ⟨staged, rfl⟩)

/-! ## Removing -/

/-- Where there was a directory for the volume but not the volume itself, it holds all that was
delivered, and without it the files are as they were. -/
lemma erase_of_receives {t u : FileTree} {among : Place → Prop}
    (hvolume : (Volume.root config site).Spells volume) (hne : volume ≠ [])
    (hentries : ∀ p, among p → IsEntry p) (h : Receives (EntryAmong config site among) t u)
    (hfree : t.get? volume ≠ some .dir) (habove : t.get? volume.dropLast = some .dir)
    (hchanged : u ≠ t) : u.get? volume = some .dir ∧ u.erase volume = t := by
  have below_of_written {r : Place} {δ : Delivery} (hδ : EntryAmong config site among δ)
      (hr : r = t.outlet δ) : volume <+: r ∧ volume ≠ r := by
    obtain ⟨volume', p, hvolume', hp, hplace⟩ := hδ
    obtain rfl := hvolume.unique hvolume'
    have hway : volume ++ p <+: r := hr ▸ hplace ▸ prefix_outlet t δ
    refine ⟨(List.prefix_append volume p).trans hway, ?_⟩
    rintro rfl
    have hlength := hway.length_le
    rw [List.length_append] at hlength
    exact ne_nil_of_isEntry (hentries p hp) (List.eq_nil_of_length_eq_zero (by omega))
  have outside {r : Place} (hr : ¬volume <+: r) : u.get? r = t.get? r := by
    cases h r with
    | same heq => exact heq
    | made hδ hnone _ hway =>
      obtain ⟨volume', p, hvolume', hp, hplace⟩ := hδ
      obtain rfl := hvolume.unique hvolume'
      rw [hplace, List.dropLast_append_of_ne_nil (ne_nil_of_isEntry (hentries p hp))] at hway
      exact absurd (volume_prefix_of_missing habove hway hnone) hr
    | written hδ _ _ heq => exact absurd (below_of_written hδ heq).1 hr
  have below {r : Place} (hr : volume <+: r) (hr' : volume ≠ r) : t.get? r = none := by
    by_contra hthere
    exact hfree (get?_eq_dir_of_above hr hr' hthere)
  have hdir : u.get? volume = some .dir := by
    obtain ⟨r, hr⟩ := exists_get?_ne hchanged
    have hbelow : volume <+: r := by
      by_contra hr'
      exact hr (outside hr')
    by_cases heq : volume = r
    · subst heq
      cases h volume with
      | same heq => exact absurd heq hr
      | made _ _ hdir _ => exact hdir
      | written hδ _ _ heq => exact absurd rfl (below_of_written hδ heq).2
    · rw [below hbelow heq] at hr
      exact get?_eq_dir_of_above hbelow heq hr
  have hnone : t.get? volume = none := by
    cases h volume with
    | same heq => exact absurd (heq ▸ hdir) hfree
    | made _ hnone _ _ => exact hnone
    | written hδ _ _ heq => exact absurd rfl (below_of_written hδ heq).2
  refine ⟨hdir, ext_get? fun r => ?_⟩
  rw [get?_erase _ hne]
  by_cases hr : volume <+: r
  · rw [if_pos (List.isPrefixOf_iff_prefix.2 hr)]
    by_cases heq : volume = r
    · rw [← heq, hnone]
    · rw [below hr heq]
  · rw [if_neg (mt List.isPrefixOf_iff_prefix.1 hr), outside hr]

/-- Where no volume was but the directory above it, removing the volume takes away all that a build
has made, whatever came of it, and nothing else. The path of the volume must not end in a dot. -/
theorem removeAll_undoes_build (hdry : config.dryRun = false) (hlinkless : w.tree.Linkless)
    (hroot : site.root.Spells root) (hboot : config.boot.Normal)
    (inert : ∀ calls inv tree, (executor.execute calls inv tree).tree = tree)
    (habsent : w.tree.exists? site.here (Volume.root config site) = false)
    (habove : ∃ above, (Volume.root config site).parent? = some above ∧
      w.tree.isDir site.here above = true)
    (hdot : ¬(Volume.root config site).EndsInDot) :
    let left := (all config site executor w).2
    ∃ removed, (Volume.removeAll config site left).1 = .ok removed ∧
      (Volume.removeAll config site left).2.tree = w.tree := by
  intro left
  have receives := receives_all hdry hlinkless hroot hboot inert
  change Receives _ w.tree left.tree at receives
  by_cases hchanged : left.tree = w.tree
  · rw [← hchanged] at habsent
    rw [Volume.removeAll_of_missing habsent]
    exact ⟨false, rfl, hchanged⟩
  obtain ⟨volume, hvolume⟩ : ∃ volume, (Volume.root config site).Spells volume := by
    obtain ⟨r, hr⟩ := exists_get?_ne hchanged
    cases receives r with
    | same heq => exact absurd heq hr
    | made hδ | written hδ =>
      obtain ⟨volume, -, hvolume, -⟩ := hδ
      exact ⟨volume, hvolume⟩
  obtain ⟨above, hparent, hdir⟩ := habove
  have habove := get?_of_isDir hlinkless (hvolume.parent? hparent) hdir
  have hpasses := passes_of_build hdry hlinkless inert hvolume habove hchanged
  have hfree : w.tree.get? volume ≠ some .dir := by
    intro hthere
    rw [exists?, find_of_passes (hlinkless _) hpasses hthere (.inl rfl)] at habsent
    cases habsent
  have hne : volume ≠ [] := by
    rintro rfl
    exact hfree (get?_root _)
  obtain ⟨hdir, herased⟩ := erase_of_receives hvolume hne (fun _ => Destination.isEntry) receives
    hfree habove hchanged
  have hleft := receives.linkless hlinkless
  have hthere : left.tree.exists? site.here (Volume.root config site) = true := by
    rw [exists?, find_of_passes (hleft _) hpasses hdir (.inl rfl)]
    rfl
  obtain ⟨htree, -, hok⟩ := Volume.removeAll_of_exists hdry hthere
  rw [remove_of_passes hpasses hne hdot hdir] at htree hok
  exact ⟨true, hok.2 rfl, htree.trans herased⟩

end Undoing

/-- What is left of the build of the twins that fails half-way is taken away again. -/
theorem removeAll_undoes_twins :
    let left := (all {} Twins.site Twins.idle { tree := Twins.tree }).2
    (Config.dryRun {} = false ∧ Twins.tree.Linkless ∧ Twins.site.root.Spells [] ∧
      (Config.boot {}).Normal ∧
      (∀ calls inv tree, (Twins.idle.execute calls inv tree).tree = tree) ∧
      Twins.tree.exists? [] (Volume.root {} Twins.site) = false ∧
      (∃ above, (Volume.root {} Twins.site).parent? = some above ∧
        Twins.tree.isDir [] above = true) ∧
      ¬(Volume.root {} Twins.site).EndsInDot) ∧
    left.tree.get? (Twins.place "esp/KERNEL.ELF") = some (.file (Utf8.encode "kernel") false) ∧
    ∃ removed, (Volume.removeAll {} Twins.site left).1 = .ok removed ∧
      (Volume.removeAll {} Twins.site left).2.tree = Twins.tree := by
  have orderly := Twins.orderly
  have habsent : Twins.tree.exists? [] (Volume.root {} Twins.site) = false := by decide +kernel
  have habove : ∃ above, (Volume.root {} Twins.site).parent? = some above ∧
      Twins.tree.isDir [] above = true := ⟨.ofString "/", by decide +kernel⟩
  have hdot : ¬(Volume.root {} Twins.site).EndsInDot := by decide +kernel
  exact ⟨⟨rfl, orderly.linkless, orderly.rooted, orderly.boot, Twins.idle_inert, habsent, habove,
      hdot⟩, congrArg Prod.snd Twins.idle_evaluated,
    removeAll_undoes_build (w := { tree := Twins.tree }) rfl orderly.linkless orderly.rooted
      orderly.boot Twins.idle_inert habsent habove hdot⟩

/-- A volume whose path ends in a dot is emptied but not removed: the system refuses that. -/
theorem removeAll_keeps_dotted_volume :
    let config : Config := { boot := .ofString "esp/." }
    let left := (all config Twins.site Twins.idle { tree := .empty }).2
    let done := Volume.removeAll config Twins.site left
    (config.dryRun = false ∧ FileTree.empty.Linkless ∧ Twins.site.root.Spells [] ∧
      config.boot.Normal ∧
      (∀ calls inv tree, (Twins.idle.execute calls inv tree).tree = tree) ∧
      FileTree.empty.exists? [] (Volume.root config Twins.site) = false ∧
      ∃ above, (Volume.root config Twins.site).parent? = some above ∧
        FileTree.empty.isDir [] above = true) ∧
    (¬∃ removed, done.1 = .ok removed ∧ done.2.tree = .empty) ∧
    done.1 = .error (.files (.remove (.ofString "/esp/.")) (.os .invalidArgument)) ∧
    done.2.tree.get? (Twins.place "esp") = some .dir := by
  intro config left done
  have hdone : done.1 = .error (.files (.remove (.ofString "/esp/.")) (.os .invalidArgument)) ∧
      done.2.tree.get? (Twins.place "esp") = some .dir := by
    decide +kernel
  have hboot : config.boot.Normal := by
    have hcomponents : config.boot.components = [Utf8.encode "esp"].map .name := by decide
    exact Path.normal_of_components hcomponents
  refine ⟨⟨rfl, fun place target => ?_, Twins.orderly.rooted, hboot, Twins.idle_inert, ?_, ?_⟩, ?_,
    hdone⟩
  · cases place <;> exact nofun
  · decide +kernel
  · exact ⟨.ofString "/", by decide +kernel⟩
  · rw [hdone.1]
    rintro ⟨removed, hok, -⟩
    cases hok

end BootVolume.Build
