import Mathlib.Logic.Function.Basic
import BootVolume.Proofs.Footprint
import BootVolume.Proofs.Growing

/-!
# A new volume

Where no volume was, one comes to be entry by entry: each file that is staged goes to a free place,
and whatever links the tree has, nothing outside the volume is different (`Shelved.stage`). So
everything that was found before is still found (`Shelved.find`).
-/

namespace BootVolume

namespace Path

variable {p q : Path} {way : Place}

lemma le_length_join (p : Path) (hq : q.isAbsolute = false) :
    p.bytes.length + q.bytes.length ≤ (p.join q).bytes.length := by
  rw [join, if_neg (by simp [hq])]
  split
  · simp
  · simp

lemma zero_not_mem_join (hp : 0 ∉ p.bytes) (hq : 0 ∉ q.bytes) : 0 ∉ (p.join q).bytes := by
  unfold join
  split_ifs
  · exact hq
  · simp [hp, hq]
  · simp [hp, hq, slash]

lemma Leads.zero_not_mem (h : p.Leads way) : 0 ∉ p.bytes := by
  intro hzero
  obtain ⟨seg, hseg, hmem⟩ := exists_zero_mem_names hzero
  rw [h.names] at hseg
  obtain ⟨name, -, rfl⟩ := List.mem_map.1 hseg
  exact name.isName.2.2.2.2 hmem

end Path

open FileTree Layout

namespace Volume

variable {config : Config} {site : Site} {w : World} {source entry : Path} {place origin : Place}
  {content : Bytes} {executable : Bool}

/-- A file is staged to a place where nothing is, with nothing but directories above it. -/
lemma stage_fresh (hdry : config.dryRun = false)
    (hpasses : (destination config site entry).Passes place)
    (hpointed : (destination config site entry).Pointed) (hne : place ≠ [])
    (habove : ∀ r, r <+: place.dropLast → w.tree.get? r = none ∨ w.tree.get? r = some .dir)
    (hfree : w.tree.get? place = none)
    (hfile : w.tree.find site.here (site.path source) = .ok (origin, .file content executable)) :
    ∃ v, stage config site source entry w = (.ok (destination config site entry), v) ∧
      ∀ r, v.tree.get? r = if r = place then some (.file content executable)
        else if r <+: place then some .dir else w.tree.get? r := by
  obtain ⟨paved, hprepare, paves, hdir⟩ := prepare_of_passes site hpasses hne habove
  have hfound := paves.widens.find hfile
  have hstill : paved.tree.get? place = none := by
    rw [← hfree]
    exact (paves place).resolve_right fun hnew => Place.not_prefix_dropLast hne hnew.2.2
  have hway {r : Place} (hr : r <+: place) (hrne : r ≠ place) : paved.tree.get? r = some .dir :=
    get?_eq_dir_of_front (Place.prefix_dropLast_of_ne hr hrne) hdir
  have hclear (r : Place) (hr : r <+: place) :
      paved.tree.get? r = none ∨ paved.tree.get? r = some .dir := by
    by_cases heq : r = place
    · exact .inl (heq ▸ hstill)
    · exact .inr (hway hr heq)
  have htarget : paved.tree.copyTarget site.here (site.path source)
      (destination config site entry) = destination config site entry := by
    rw [copyTarget, isDir, find_of_missing hpasses hclear hstill, if_neg Bool.false_ne_true]
  have hopen : paved.tree.openPlace site.here (destination config site entry) = .ok place :=
    openPlace_of_passes (by simp [hstill]) hpasses hpointed hne hdir (by simp [hstill])
  have hother : place ≠ origin := by
    rintro rfl
    have hthere := (find_eq_ok_iff.1 hfound).2
    rw [hstill] at hthere
    cases hthere
  have hcopy : paved.tree.copy site.here (site.path source)
      (paved.tree.copyTarget site.here (site.path source) (destination config site entry)) =
        .ok (paved.tree.put place (.file content executable)) := by
    rw [htarget, copy, hfound]
    dsimp only
    rw [hopen]
    dsimp only
    rw [if_neg hother]
  obtain ⟨v, hstaged, htree⟩ := stage_of_copy hdry hprepare hfound hcopy
  refine ⟨v, hstaged, fun r => ?_⟩
  rw [htree, get?_put ⟨hne, hdir, by simp [hstill]⟩]
  split
  · rfl
  rename_i hr
  split
  · rename_i hprefix
    exact hway hprefix hr
  · rename_i hprefix
    exact (paves r).resolve_right fun hnew =>
      hprefix (hnew.2.2.trans (List.dropLast_prefix place))

end Volume

namespace Build

/-- Nothing is different but at a place and below it, where there are no links. -/
structure Beyond (volume : Place) (t u : FileTree) : Prop where
  outside {r : Place} : ¬volume <+: r → u.get? r = t.get? r
  unlinked {r : Place} (target : Path) : volume <+: r → u.get? r ≠ some (.link target)

/-- The tree `u` has become of a tree `t` without a volume, and differs from it only there: the
entries of the volume are those of a shelf, and above them are only directories. -/
structure Shelved (t : FileTree) (volume : Place) (shelf : Place → Option Entry) (u : FileTree) :
    Prop extends Beyond volume t u where
  ground : t.get? volume.dropLast = some .dir
  vacant : t.get? volume = none
  entries {p : Place} : IsEntry p → u.get? (volume ++ p) = shelf p
  above {p r : Place} : IsEntry p → r <+: p.dropLast →
    u.get? (volume ++ r) = none ∨ u.get? (volume ++ r) = some .dir

namespace Shelved

variable {config : Config} {site : Site} {w : World} {t u : FileTree}
  {here volume place origin p r : Place} {shelf : Place → Option Entry} {e : Entry}
  {path source entry : Path} {content : Bytes} {executable : Bool}

lemma outside_of_there (h : Shelved t volume shelf u) (hthere : t.get? r ≠ none) :
    ¬volume <+: r := by
  intro hr
  exact hthere (get?_eq_none_of_front hr h.vacant)

lemma get?_eq (h : Shelved t volume shelf u) (hthere : t.get? r ≠ none) : u.get? r = t.get? r :=
  h.outside (h.outside_of_there hthere)

lemma grows (h : Shelved t volume shelf u) : Grows t u where
  dir hr := (h.get?_eq (by simp [hr])).trans hr
  link hr := (h.get?_eq (by simp [hr])).trans hr
  file hr := ⟨_, _, (h.get?_eq (by simp [hr])).trans hr⟩

lemma get?_of_above (h : Shelved t volume shelf u) (hr : r <+: volume) (hne : r ≠ volume) :
    t.get? r = some .dir :=
  get?_eq_dir_of_front (Place.prefix_dropLast_of_ne hr hne) h.ground

lemma find (h : Shelved t volume shelf u) (hfind : t.find here path = .ok (place, e)) :
    u.find here path = .ok (place, e) := by
  have hentry := (find_eq_ok_iff.1 hfind).2
  exact h.grows.find hfind ((h.get?_eq (by simp [hentry])).trans hentry)

/-- Above an entry of the volume there are only directories. -/
lemma clear_above (h : Shelved t volume shelf u) (hp : IsEntry p)
    (hr : r <+: (volume ++ p).dropLast) : u.get? r = none ∨ u.get? r = some .dir := by
  rw [List.dropLast_append_of_ne_nil (ne_nil_of_isEntry hp)] at hr
  rcases List.prefix_or_prefix_of_prefix hr (List.prefix_append volume p.dropLast) with
    habove | ⟨q, rfl⟩
  · by_cases heq : r = volume
    · have hroot := h.above hp List.nil_prefix
      rwa [List.append_nil, ← heq] at hroot
    · have hdir : t.get? r = some .dir := h.get?_of_above habove heq
      exact .inr ((h.get?_eq (by simp [hdir])).trans hdir)
  · rw [List.prefix_append_right_inj] at hr
    exact h.above hp hr

/-- A file that is staged is put on the shelf. -/
lemma stage (h : Shelved t volume shelf w.tree) (hdry : config.dryRun = false) (hp : IsEntry p)
    (hpasses : (Volume.destination config site entry).Passes (volume ++ p))
    (hpointed : (Volume.destination config site entry).Pointed) (hfree : shelf p = none)
    (hfile : t.find site.here (site.path source) = .ok (origin, .file content executable)) :
    ∃ v, Volume.stage config site source entry w =
        (.ok (Volume.destination config site entry), v) ∧
      Shelved t volume (Function.update shelf p (some (.file content executable))) v.tree := by
  have hne := ne_nil_of_isEntry hp
  obtain ⟨v, hstaged, htree⟩ := Volume.stage_fresh hdry hpasses hpointed (by simp [hne])
    (fun r => h.clear_above hp) ((h.entries hp).trans hfree) (h.find hfile)
  refine ⟨v, hstaged, ⟨fun {r} hr => ?_, fun {r} target hr => ?_⟩, h.ground, h.vacant,
    fun {q} hq => ?_, fun {q r} hq hr => ?_⟩
  · rw [htree, if_neg (by rintro rfl; exact hr (List.prefix_append _ _))]
    split
    · rename_i hway
      rcases List.prefix_or_prefix_of_prefix hway (List.prefix_append volume p) with habove | hin
      · refine (h.get?_of_above habove ?_).symm
        rintro rfl
        exact hr List.prefix_rfl
      · exact absurd hin hr
    · exact h.outside hr
  · rw [htree]
    split
    · simp
    split
    · simp
    · exact h.unlinked target hr
  · rw [htree]
    by_cases hqp : q = p
    · rw [if_pos (by rw [hqp]), hqp, Function.update_self]
    · rw [if_neg (by simpa using hqp), if_neg, h.entries hq, Function.update_of_ne hqp]
      rw [List.prefix_append_right_inj]
      exact fun hway => hqp (hq.eq_of_above hp hway)
  · rw [htree, if_neg]
    · split
      · exact .inr rfl
      · exact h.above hq hr
    · rw [List.append_cancel_left_eq]
      rintro rfl
      obtain rfl := hp.eq_of_above hq (hr.trans (List.dropLast_prefix q))
      exact Place.not_prefix_dropLast hne hr

end Shelved

lemma shelved_start {t : FileTree} {volume : Place} (hground : t.get? volume.dropLast = some .dir)
    (hvacant : t.get? volume = none) : Shelved t volume (fun _ => none) t := by
  refine ⟨⟨fun _ => rfl, fun target hr => ?_⟩, hground, hvacant, fun _ => ?_, fun _ _ => .inl ?_⟩
  · simp [get?_eq_none_of_front hr hvacant]
  · exact get?_eq_none_of_front (List.prefix_append _ _) hvacant
  · exact get?_eq_none_of_front (List.prefix_append _ _) hvacant

end Build
end BootVolume
