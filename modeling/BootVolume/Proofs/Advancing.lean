import BootVolume.Proofs.Places
import BootVolume.Proofs.Sources
import BootVolume.Proofs.Staging

/-!
# The files while a build goes on

They change only below the target directory, at the entries that are staged and on the way to these
(`Advances`). So the sources stay as they are (`Advances.sameAt`), and so does an entry that was
staged before (`Advances.get?_eq`).
-/

namespace BootVolume.Build

open FileTree Layout

/-- Where a build works. -/
structure Ground (config : Config) (site : Site) (root volume : Place) : Prop where
  rooted : site.root.Spells root
  mounted : (Volume.root config site).Spells volume
  sources : Apart volume (root ++ sourcesPlace)
  target : Apart volume (root ++ targetPlace)

/-- From one tree to a later one, only the entries that were staged, the directories on the way to
them and what is below the target directory may be different. -/
structure Advances (root volume : Place) (staged : List Place) (t u : FileTree) : Prop where
  entries : ∀ p ∈ staged, IsEntry p
  frame : Frame (root ++ targetPlace) (staged.map (volume ++ ·)) t u
  linkless : t.Linkless → u.Linkless

section Advancing

variable {config : Config} {site : Site} {root volume : Place} {staged staged' : List Place}
  {t u v : FileTree} {p : Place}

lemma Advances.trans (h : Advances root volume staged t u) (h' : Advances root volume staged' u v) :
    Advances root volume (staged ++ staged') t v where
  entries := List.forall_mem_append.2 ⟨h.entries, h'.entries⟩
  frame := by
    rw [List.map_append]
    exact h.frame.trans h'.frame
  linkless ht := h'.linkless (h.linkless ht)

lemma advances_refl (root volume : Place) (t : FileTree) : Advances root volume [] t t where
  entries := by simp
  frame _ _ _ := .inl rfl
  linkless := id

lemma advances_of_frame (hp : IsEntry p) (frame : Frame (root ++ targetPlace) [volume ++ p] t u)
    (hu : u.Linkless) : Advances root volume [p] t u where
  entries := by simpa using hp
  frame := frame
  linkless _ := hu

lemma not_mem_staged (hp : p ∉ staged) : volume ++ p ∉ staged.map (volume ++ ·) := by
  simpa using hp

variable (ground : Ground config site root volume)
include ground

lemma Ground.spells {entry : Path} (hleads : entry.Leads p) :
    (Volume.destination config site entry).Spells (volume ++ p) := ground.mounted.join hleads

/-- What is an entry stays as it is until it is staged. -/
lemma Advances.get?_eq (h : Advances root volume staged t u) (hp : p ∉ staged)
    (hthere : t.get? (volume ++ p) ≠ none) : u.get? (volume ++ p) = t.get? (volume ++ p) :=
  h.frame.get?_eq (ground.target.not_append p) (not_mem_staged hp) hthere

lemma Advances.isDir_eq_false (h : Advances root volume staged t u) (ht : t.Linkless)
    (hentry : IsEntry p) (hp : p ∉ staged) {entry : Path} (hleads : entry.Leads p)
    (hfree : t.isDir site.here (Volume.destination config site entry) = false) :
    u.isDir site.here (Volume.destination config site entry) = false := by
  have hspells := ground.spells hleads
  have hu := h.linkless ht
  by_contra hdir
  rw [Bool.not_eq_false] at hdir
  have hthere := get?_of_isDir hu hspells hdir
  rcases h.frame _ (ground.target.not_append p) (not_mem_staged hp) with
    heq | ⟨-, -, place, hplace, hway⟩
  · rw [isDir_of_isDir hu ht hspells hdir (heq ▸ hthere)] at hfree
    cases hfree
  · obtain ⟨q, hq, rfl⟩ := List.mem_map.1 hplace
    rw [List.prefix_append_right_inj] at hway
    exact hp (hentry.eq_of_above (h.entries q hq) hway ▸ hq)

lemma Advances.sameAt (h : Advances root volume staged t u) (hroot : t.get? root = some .dir) :
    SameAt (root ++ sourcesPlace) t u := by
  intro r hr
  have apart : Apart (root ++ targetPlace) (root ++ sourcesPlace) := by
    constructor <;> rw [List.prefix_append_right_inj] <;> decide
  have hloose : ¬root ++ targetPlace <+: r := by
    intro htarget
    rcases hr with hr | hr
    · exact apart.1 (htarget.trans hr)
    · exact apart.not_both htarget hr
  have houtside : ¬volume <+: r := by
    intro hvolume
    rcases hr with hr | hr
    · exact ground.sources.1 (hvolume.trans hr)
    · exact ground.sources.not_both hvolume hr
  have hr' : r ∉ staged.map (volume ++ ·) := by
    intro hmem
    obtain ⟨p, -, rfl⟩ := List.mem_map.1 hmem
    exact houtside (List.prefix_append _ _)
  rcases h.frame r hloose hr' with heq | ⟨hnone, -, q, hq, hway⟩
  · exact heq.symm
  · -- A directory was made here on the way to an entry, so the root was missing before.
    obtain ⟨p, -, rfl⟩ := List.mem_map.1 hq
    have hsources : ¬root ++ sourcesPlace <+: volume ++ p := ground.sources.not_append p
    rcases hr with hr | hr
    · rcases List.prefix_concat_iff.1 (show r <+: root ++ [pkgName] from hr) with rfl | hr
      · exact absurd hway hsources
      · rw [get?_eq_dir_of_front hr hroot] at hnone
        cases hnone
    · exact absurd (hr.trans hway) hsources

end Advancing

end BootVolume.Build
