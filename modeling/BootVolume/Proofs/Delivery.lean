import BootVolume.Proofs.Parents
import BootVolume.Proofs.Passage
import BootVolume.Proofs.Staging

/-!
# Deliveries

A file that is staged goes to a place of the volume, or into the directory that is there, under the
name of its source (`outlet`). Whatever comes of it, only the outlet and missing directories above
the place change (`stage_receives`), and if it succeeds nothing else of the old entries matters
there (`stage_exact`). Such changes can be put together as long as no place lies above another one
(`Receives.trans`).
-/

namespace BootVolume

/-- The last component, if it is the name of an entry. -/
def Path.entryName? (p : Path) : Option Name := p.fileName?.bind Name.ofBytes?

lemma Path.isName_of_fileName? {p : Path} {bytes : Bytes} (h : p.fileName? = some bytes)
    (hzero : 0 ∉ p.bytes) : IsName bytes := by
  have hlast : p.components.getLast? = some (.name bytes) := by
    rw [fileName?] at h
    split at h
    · rename_i name hname
      rw [hname, Option.some.inj h]
    · cases h
  have isName {seg : Bytes} (hseg : seg ∈ p.segments) (hidle : isIdle seg = false)
      (hname : Component.ofSegment seg = .name bytes) : IsName bytes := by
    rw [Component.ofSegment] at hname
    split at hname
    · cases hname
    · cases hname
      have inside := of_mem_pieces hseg
      rw [isIdle, Bool.or_eq_false_iff] at hidle
      refine
        ⟨by simpa using hidle.1, by simpa using hidle.2, ‹_›, ?_, fun h => hzero (inside 0 h).1⟩
      intro hslash
      simpa using (inside slash hslash).2
  obtain ⟨first, rest, hsegs⟩ := List.exists_cons_of_ne_nil (pieces_ne_nil (· = slash) p.bytes)
  change p.segments = first :: rest at hsegs
  have hmem := List.mem_of_getLast? hlast
  rw [components, hsegs] at hmem
  rcases List.mem_append.1 hmem with hmem | hmem
  · split_ifs at hmem with habs hdot hempty
    · simp at hmem
    · simp at hmem
    · simp at hmem
    · have hidle : isIdle first = false := by simp [isIdle, hdot, hempty]
      exact isName (hsegs ▸ List.mem_cons_self) hidle (List.mem_singleton.1 hmem).symm
  · obtain ⟨seg, hseg, hname⟩ := List.mem_map.1 hmem
    obtain ⟨hseg, hidle⟩ := List.mem_filter.1 hseg
    exact isName (by simp [hsegs, hseg]) (by simpa using hidle) hname

/-- A file that is to be brought to a place. -/
@[ext]
structure Delivery where
  source : Path
  place : Place

namespace FileTree

/-- The place of the file that a delivery leaves: in a directory it keeps its name. -/
def outlet (t : FileTree) (δ : Delivery) : Place :=
  if t.get? δ.place = some .dir then δ.place ++ δ.source.entryName?.toList else δ.place

/-- What can have become of the entry at a place when some of the deliveries were made. -/
inductive Fate (D : Delivery → Prop) (t u : FileTree) (r : Place) : Prop
  | same : u.get? r = t.get? r → Fate D t u r
  | made {δ : Delivery} : D δ → t.get? r = none → u.get? r = some .dir → r <+: δ.place.dropLast →
    Fate D t u r
  | written {δ : Delivery} {content : Bytes} {executable : Bool} : D δ → t.get? r ≠ some .dir →
    u.get? r = some (.file content executable) → r = t.outlet δ → Fate D t u r

/-- The second tree is the first one after some of the deliveries were made, or begun. -/
def Receives (D : Delivery → Prop) (t u : FileTree) : Prop := ∀ r, Fate D t u r

/-- No delivery goes to a place above that of another one. -/
def Unnested (D : Delivery → Prop) : Prop := ∀ δ δ', D δ → D δ' → ¬δ.place <+: δ'.place.dropLast

variable {D E : Delivery → Prop} {t u v : FileTree} {δ : Delivery} {r : Place}

lemma exists_get?_ne (h : u ≠ t) : ∃ r, u.get? r ≠ t.get? r := by
  by_contra hsame
  exact h (ext_get? fun r => by simpa using fun hr => hsame ⟨r, hr⟩)

lemma prefix_outlet (t : FileTree) (δ : Delivery) : δ.place <+: t.outlet δ := by
  rw [outlet]
  split
  · exact List.prefix_append _ _
  · exact List.prefix_rfl

lemma dropLast_prefix_outlet (t : FileTree) (δ : Delivery) :
    δ.place.dropLast <+: (t.outlet δ).dropLast := by
  rw [outlet]
  split
  · cases δ.source.entryName? with
    | none => simp
    | some name =>
      rw [Option.toList_some, List.dropLast_concat]
      exact List.dropLast_prefix _
  · exact List.prefix_rfl

lemma receives_refl (D : Delivery → Prop) (t : FileTree) : Receives D t t := fun _ => .same rfl

lemma Receives.mono (h : Receives D t u) (hsub : ∀ δ, D δ → E δ) : Receives E t u := by
  intro r
  cases h r with
  | same heq => exact .same heq
  | made hδ hnone hdir hway => exact .made (hsub _ hδ) hnone hdir hway
  | written hδ hne hfile heq => exact .written (hsub _ hδ) hne hfile heq

namespace Receives

lemma linkless (h : Receives D t u) (ht : t.Linkless) : u.Linkless := by
  intro r target hlink
  cases h r with
  | same heq => exact ht r target (heq ▸ hlink)
  | made _ _ hdir _ =>
    rw [hdir] at hlink
    cases hlink
  | written _ _ hfile _ =>
    rw [hfile] at hlink
    cases hlink

lemma get?_dir (h : Receives D t u) (hdir : t.get? r = some .dir) : u.get? r = some .dir := by
  cases h r with
  | same heq => exact heq.trans hdir
  | made _ hnone _ _ =>
    rw [hdir] at hnone
    cases hnone
  | written _ hne _ _ => exact absurd hdir hne

lemma get?_ne_none (h : Receives D t u) (hthere : t.get? r ≠ none) : u.get? r ≠ none := by
  cases h r with
  | same heq => rwa [heq]
  | made _ hnone _ _ => exact absurd hnone hthere
  | written _ _ hfile _ => simp [hfile]

/-- The place of a delivery is a directory before and after. -/
lemma get?_place_dir_iff (h : Receives D t u) (hD : Unnested D) (hδ : D δ) :
    u.get? δ.place = some .dir ↔ t.get? δ.place = some .dir := by
  refine ⟨fun hdir => ?_, h.get?_dir⟩
  cases h δ.place with
  | same heq => exact heq ▸ hdir
  | made hδ' _ _ hway => exact absurd hway (hD _ _ hδ hδ')
  | written _ _ hfile _ =>
    rw [hfile] at hdir
    cases hdir

lemma outlet_eq (h : Receives D t u) (hD : Unnested D) (hδ : D δ) : u.outlet δ = t.outlet δ := by
  rw [outlet, outlet]
  simp only [h.get?_place_dir_iff hD hδ]

lemma trans (h : Receives D t u) (h' : Receives D u v) (hD : Unnested D) : Receives D t v := by
  intro r
  cases h' r with
  | same heq =>
    cases h r with
    | same heq' => exact .same (heq.trans heq')
    | made hδ hnone hdir hway => exact .made hδ hnone (heq.trans hdir) hway
    | written hδ hne hfile hr => exact .written hδ hne (heq.trans hfile) hr
  | made hδ hnone hdir hway =>
    refine .made hδ ?_ hdir hway
    by_contra hthere
    exact h.get?_ne_none hthere hnone
  | written hδ hne hfile hr =>
    refine .written hδ (fun hdir => hne (h.get?_dir hdir)) hfile ?_
    rw [hr, h.outlet_eq hD hδ]

/-- Above the place of a delivery nothing comes or goes but directories. -/
lemma clear_above_iff (h : Receives D t u) (hD : Unnested D) (hδ : D δ)
    (hr : r <+: δ.place.dropLast) :
    (u.get? r = none ∨ u.get? r = some .dir) ↔ (t.get? r = none ∨ t.get? r = some .dir) := by
  cases h r with
  | same heq => rw [heq]
  | made _ hnone hdir _ => simp [hnone, hdir]
  | written hδ' _ _ heq => exact absurd ((prefix_outlet t _).trans (heq ▸ hr)) (hD _ _ hδ' hδ)

end Receives

/-- A copy to the place of a delivery takes the same path before and after. -/
lemma Receives.copyTarget_eq (h : Receives D t u) (ht : t.Linkless) (hD : Unnested D) (hδ : D δ)
    {here : Place} {target : Path} (htarget : target.Spells δ.place) (source : Path) :
    u.copyTarget here source target = t.copyTarget here source target := by
  have hdir : u.isDir here target = t.isDir here target := by
    rw [Bool.eq_iff_iff]
    constructor
    · intro hu
      have hthere := (h.get?_place_dir_iff hD hδ).1 (get?_of_isDir (h.linkless ht) htarget hu)
      exact isDir_of_isDir (h.linkless ht) ht htarget hu hthere
    · intro ht'
      exact isDir_of_isDir ht (h.linkless ht) htarget ht'
        (h.get?_dir (get?_of_isDir ht htarget ht'))
  rw [copyTarget, copyTarget, hdir]

/-! ## Copying -/

variable {here place : Place} {source target : Path}

/-- A file is copied to a path or to its own name below it. -/
lemma copyTarget_cases (t : FileTree) (here : Place) (target : Path) (hzero : 0 ∉ source.bytes) :
    t.copyTarget here source target = target ∨
      ∃ name : Name, t.copyTarget here source target = target.join ⟨name.bytes⟩ := by
  rw [copyTarget]
  split
  · cases hname : source.fileName? with
    | none => exact .inl rfl
    | some bytes => exact .inr ⟨⟨bytes, Path.isName_of_fileName? hname hzero⟩, rfl⟩
  · exact .inl rfl

lemma bytes_prefix_copyTarget (t : FileTree) (here : Place) (target : Path)
    (hzero : 0 ∉ source.bytes) : target.bytes <+: (t.copyTarget here source target).bytes := by
  rcases copyTarget_cases t here target hzero with heq | ⟨name, heq⟩
  · exact (congrArg Path.bytes heq).symm ▸ List.prefix_rfl
  · rw [heq]
    exact Path.bytes_prefix_join target (Path.leads_name name).relative

/-- A copy that succeeds finds a file and leaves another one at the outlet. -/
lemma copy_outlet (ht : t.Linkless) (htarget : target.Spells place)
    (h : t.copy here source (t.copyTarget here source target) = .ok u) :
    let outlet := t.outlet ⟨source, place⟩
    (t.copyTarget here source target).Passes outlet ∧ ∃ origin content executable,
      t.find here source = .ok (origin, .file content executable) ∧
        t.Admits outlet (.file (if outlet = origin then [] else content) executable) ∧
        u = t.put outlet (.file (if outlet = origin then [] else content) executable) := by
  intro outlet
  rw [copy] at h
  split at h
  · cases h
  · rename_i origin content executable hfind
    split at h
    · cases h
    rename_i q hopen
    cases h
    have hspells : (t.copyTarget here source target).Spells
        (if t.isDir here target = true then place ++ source.entryName?.toList else place) := by
      rw [copyTarget]
      split
      · cases hname : source.fileName? with
        | none => simpa [Path.entryName?, hname] using htarget
        | some bytes =>
          have isName := Path.isName_of_fileName? hname (zero_not_mem_of_find hfind)
          have hentry : source.entryName? = some ⟨bytes, isName⟩ := by
            simp [Path.entryName?, hname, Name.ofBytes?, isName]
          rw [hentry]
          exact htarget.join (Path.leads_name ⟨bytes, isName⟩)
      · exact htarget
    obtain ⟨rfl, admits, reached⟩ := openPlace_spec ht hspells hopen
    have houtlet : outlet =
        if t.isDir here target = true then place ++ source.entryName?.toList else place := by
      change FileTree.outlet t ⟨source, place⟩ = _
      rw [FileTree.outlet]
      by_cases hdir : t.isDir here target = true
      · rw [if_pos hdir, if_pos (get?_of_isDir ht htarget hdir)]
      · rw [if_neg hdir] at admits ⊢
        rw [if_neg fun hthere => by cases (admits [] false).2.2 hthere]
    rw [← houtlet] at admits reached hspells ⊢
    have hlinkless : (t.put outlet (.file content executable)).Linkless := ht.put (by simp)
    have hput : (t.put outlet (.file content executable)).get? outlet =
        some (.file content executable) := by rw [get?_put (admits _ _), if_pos rfl]
    have hfound := reached _ hlinkless content executable hput
    exact ⟨passes_of_find hspells hfound, origin, content, executable, hfind,
      admits _ _, rfl⟩
  · cases h

lemma Paves.receives (h : Paves δ.place.dropLast t u) (hδ : D δ) : Receives D t u := by
  intro r
  rcases h r with heq | ⟨hnone, hdir, hway⟩
  · exact .same heq
  · exact .made hδ hnone hdir hway

end FileTree

namespace Volume

open FileTree

variable {config : Config} {site : Site} {w v : World} {source entry : Path} {place : Place}

/-- Directories are made, and then perhaps a copy, whatever comes of it. -/
lemma tree_stage (hdry : config.dryRun = false) (source entry : Path) (w : World) :
    ∃ paved : FileTree,
      (paved = w.tree ∨ ∃ parent, (destination config site entry).parent? = some parent ∧
        paved = (w.tree.makeDirs site.here parent).1) ∧
      ((stage config site source entry w).2.tree = paved ∨
        paved.copy site.here (site.path source)
          (paved.copyTarget site.here (site.path source) (destination config site entry)) =
            .ok (stage config site source entry w).2.tree) := by
  have hpaved := prepare_tree site w (destination config site entry)
  refine ⟨_, hpaved, ?_⟩
  obtain ⟨failure, v, hfailed, htree⟩ | ⟨paved, v, hprepare, hcopy, hstaged⟩ :=
    stage_cases hdry site source entry w
  · rw [hfailed]
    exact .inl htree
  · rw [hprepare, hstaged]
    exact .inr hcopy

/-- Where a NUL keeps the system from taking the path, nothing is made and nothing copied. -/
lemma tree_stage_of_zero (hdry : config.dryRun = false)
    (hzero : 0 ∈ (destination config site entry).bytes)
    (hparent : ∀ parent, (destination config site entry).parent? = some parent → 0 ∈ parent.bytes)
    (source : Path) (w : World) : (stage config site source entry w).2.tree = w.tree := by
  have hroute {p : Path} (hp : 0 ∈ p.bytes) : p.route? = .error .nulInPath := by
    rw [Path.route?, if_pos hp]
  have hdir {p : Path} (hp : 0 ∈ p.bytes) (t : FileTree) : t.isDir site.here p = false := by
    rw [isDir, find, locate, hroute hp]
  obtain ⟨paved, hpaved, hcopied⟩ := tree_stage hdry source entry w
  have hpaved : paved = w.tree := by
    rcases hpaved with rfl | ⟨parent, heq, rfl⟩
    · rfl
    have hzero := hparent parent heq
    obtain ⟨above, habove⟩ := parent.exists_ancestors
    rw [makeDirs, habove, makeChain, if_neg (List.ne_nil_of_mem hzero), makeDir, hroute hzero]
    rfl
  rcases hcopied with heq | hcopy
  · rw [heq, hpaved]
  rw [copyTarget, hdir hzero, if_neg Bool.false_ne_true, copy] at hcopy
  split at hcopy
  · cases hcopy
  · rw [openPlace, hroute hzero] at hcopy
    cases hcopy
  · cases hcopy

lemma unnested_single {δ : Delivery} (hne : δ.place ≠ []) : Unnested (· = δ) := by
  rintro _ _ rfl rfl
  exact Place.not_prefix_dropLast hne

/-- Whatever comes of it, staging makes one delivery at most. -/
lemma stage_receives (hdry : config.dryRun = false) (hw : w.tree.Linkless)
    (hentry : (destination config site entry).Spells place) (hne : place ≠ []) :
    Receives (· = ⟨site.path source, place⟩) w.tree (stage config site source entry w).2.tree := by
  obtain ⟨paved, hpaved, hcopied⟩ := tree_stage hdry source entry w
  have paves : Paves place.dropLast w.tree paved := by
    rcases hpaved with rfl | ⟨parent, hparent, rfl⟩
    · exact paves_refl _ _
    · exact paves_makeDirs hw (hentry.parent? hparent)
  have hway : Receives (· = ⟨site.path source, place⟩) w.tree paved := paves.receives rfl
  rcases hcopied with heq | hcopy
  · rwa [heq]
  obtain ⟨-, origin, content, executable, -, admits, heq⟩ :=
    copy_outlet (paves.linkless hw) hentry hcopy
  refine hway.trans (fun r => ?_) (unnested_single hne)
  rw [heq]
  by_cases hr : r = paved.outlet ⟨site.path source, place⟩
  · refine .written rfl ?_ (by rw [get?_put admits, if_pos hr]) hr
    exact fun hdir => by cases admits.2.2 (hr ▸ hdir)
  · exact .same (get?_put_of_ne hr)

/-- What makes a delivery possible, apart from its source. -/
structure Deliverable (t : FileTree) (here : Place) (target : Path) (δ : Delivery) : Prop where
  passes : (t.copyTarget here δ.source target).Passes (t.outlet δ)
  clear : ∀ r, r <+: δ.place.dropLast → t.get? r = none ∨ t.get? r = some .dir
  free : t.get? (t.outlet δ) ≠ some .dir

/-- What makes a delivery possible stays as it is when others are made. -/
lemma Deliverable.of_receives {D : Delivery → Prop} {t u : FileTree} {here : Place} {target : Path}
    {δ : Delivery} (h : Receives D t u) (ht : t.Linkless) (hD : Unnested D) (hδ : D δ)
    (htarget : target.Spells δ.place) :
    Deliverable u here target δ ↔ Deliverable t here target δ := by
  have hfree : u.get? (t.outlet δ) = some .dir ↔ t.get? (t.outlet δ) = some .dir := by
    refine ⟨fun hdir => ?_, h.get?_dir⟩
    cases h (t.outlet δ) with
    | same heq => exact heq ▸ hdir
    | made hδ' _ _ hway => exact absurd ((prefix_outlet t δ).trans hway) (hD _ _ hδ hδ')
    | written _ _ hfile _ =>
      rw [hfile] at hdir
      cases hdir
  have htarget : u.copyTarget here δ.source target = t.copyTarget here δ.source target :=
    h.copyTarget_eq ht hD hδ htarget δ.source
  have houtlet := h.outlet_eq hD hδ
  constructor <;> rintro ⟨passes, clear, free⟩
  · rw [htarget, houtlet] at passes
    rw [houtlet, Ne, hfree] at free
    exact ⟨passes, fun r hr => (h.clear_above_iff hD hδ hr).1 (clear r hr), free⟩
  · refine ⟨by rwa [htarget, houtlet], fun r hr => (h.clear_above_iff hD hδ hr).2 (clear r hr), ?_⟩
    rwa [houtlet, Ne, hfree]

/-- A delivery that succeeds was possible, and leaves a file like its source at the outlet and
directories above the place; everything else is as it was. -/
lemma stage_exact (hdry : config.dryRun = false) (hw : w.tree.Linkless)
    (hentry : (destination config site entry).Spells place) (hne : place ≠ []) {origin : Place}
    (hsource : (site.path source).Spells origin) (houtside : ¬place <+: origin) {staged : Path}
    (h : stage config site source entry w = (.ok staged, v)) :
    let δ : Delivery := ⟨site.path source, place⟩
    Deliverable w.tree site.here (destination config site entry) δ ∧ ∃ content executable,
      w.tree.find site.here (site.path source) = .ok (origin, .file content executable) ∧
      ∀ r, v.tree.get? r = if r = w.tree.outlet δ then some (.file content executable)
        else if r <+: place.dropLast then some .dir else w.tree.get? r := by
  intro δ
  obtain ⟨paved, hpaved, hcopy⟩ := copy_of_stage hdry h
  have paves : Paves place.dropLast w.tree paved := by
    rcases hpaved with rfl | ⟨parent, hparent, rfl⟩
    · exact paves_refl _ _
    · exact paves_makeDirs hw (hentry.parent? hparent)
  have hway : Receives (· = δ) w.tree paved := paves.receives rfl
  have hsingle : Unnested (· = δ) := unnested_single hne
  have hlinkless := paves.linkless hw
  obtain ⟨passes, origin', content, executable, hfind, admits, heq⟩ :=
    copy_outlet hlinkless hentry hcopy
  obtain ⟨rfl, hfile⟩ := get?_of_find hlinkless hsource hfind
  have habove : paved.get? (paved.outlet δ).dropLast = some .dir := admits.2.1
  rw [hway.outlet_eq hsingle rfl] at passes admits heq habove
  rw [hway.copyTarget_eq hw hsingle rfl hentry] at passes
  have hdir (r : Place) (hr : r <+: place.dropLast) : paved.get? r = some .dir :=
    get?_eq_dir_of_front (hr.trans (dropLast_prefix_outlet w.tree δ)) habove
  have hne' : w.tree.outlet δ ≠ origin' := by
    rintro rfl
    exact houtside (prefix_outlet w.tree δ)
  rw [if_neg hne'] at heq admits
  refine ⟨⟨passes, fun r hr => ?_, fun hthere => ?_⟩, content, executable, ?_, fun r => ?_⟩
  · rcases paves r with hsame | ⟨hnone, -, -⟩
    · exact .inr (hsame ▸ hdir r hr)
    · exact .inl hnone
  · cases admits.2.2 (hway.get?_dir hthere)
  · refine find_of_find hlinkless hw hsource hfind ?_ nofun
    rcases paves origin' with hsame | ⟨-, hdir, -⟩
    · exact hsame ▸ hfile
    · rw [hdir] at hfile
      cases hfile
  · rw [heq, get?_put admits]
    split
    · rfl
    split
    · rename_i hr
      exact hdir r hr
    · rename_i hr
      exact (paves r).resolve_right fun ⟨_, _, h⟩ => hr h

lemma Deliverable.passes_place {t : FileTree} {here : Place} {target : Path} {δ : Delivery}
    (h : Deliverable t here target δ) (htarget : target.Spells δ.place)
    (hzero : 0 ∉ δ.source.bytes) : target.Passes δ.place :=
  h.passes.of_front (prefix_outlet t δ) htarget (bytes_prefix_copyTarget t here target hzero)

lemma prepare_of_passes (site : Site) {target : Path} (hpasses : target.Passes place)
    (hne : place ≠ [])
    (hclear : ∀ r, r <+: place.dropLast → w.tree.get? r = none ∨ w.tree.get? r = some .dir) :
    ∃ v, prepare site target w = (.ok (), v) ∧ Paves place.dropLast w.tree v.tree ∧
      v.tree.get? place.dropLast = some .dir := by
  obtain ⟨parent, hparent, hpasses, hpointed⟩ := hpasses.exists_parent? hne
  rw [prepare, hparent]
  dsimp only
  rw [Job.ask_bind]
  cases hexists : w.tree.exists? site.here parent with
  | true =>
    refine ⟨w, rfl, paves_refl _ _, (hclear _ List.prefix_rfl).resolve_left fun hmissing => ?_⟩
    rw [exists?, find_of_missing hpasses hclear hmissing] at hexists
    cases hexists
  | false =>
    obtain ⟨u, hmade, hpaves, hdir⟩ := makeDirs_of_passes hpasses hpointed hclear
    refine ⟨Job.record w (.makeDir parent) true u, ?_, hpaves, hdir⟩
    simp only [Bool.false_eq_true, if_false, Job.change]
    rw [hmade]

lemma copy_of_deliverable {t : FileTree} (ht : t.Linkless) {here : Place} {target : Path}
    {δ : Delivery} (h : Deliverable t here target δ) (hpointed : target.Pointed)
    (hne : δ.place ≠ []) (hdir : t.get? δ.place.dropLast = some .dir) {origin : Place}
    {content : Bytes} {executable : Bool}
    (hfile : t.find here δ.source = .ok (origin, .file content executable)) :
    ∃ u, t.copy here δ.source (t.copyTarget here δ.source target) = .ok u := by
  have hpointed : (t.copyTarget here δ.source target).Pointed := by
    rcases copyTarget_cases t here target (zero_not_mem_of_find hfile) with heq | ⟨name, heq⟩
    · rwa [heq]
    · rw [heq]
      exact (Path.pointed_name name).join target (Path.leads_name name).relative
  have habove : t.get? (t.outlet δ).dropLast = some .dir := by
    by_cases hplace : t.get? δ.place = some .dir
    · rw [outlet, if_pos hplace]
      cases δ.source.entryName? with
      | none => simpa using hdir
      | some name => simpa using hplace
    · rwa [outlet, if_neg hplace]
  have hne : t.outlet δ ≠ [] := fun hnil => hne (List.prefix_nil.1 (hnil ▸ prefix_outlet t δ))
  rw [copy, hfile]
  dsimp only
  rw [openPlace_of_passes (ht _) h.passes hpointed hne habove h.free]
  exact ⟨_, rfl⟩

lemma stage_of_copy (hdry : config.dryRun = false) {paved : World}
    (hprepare : prepare site (destination config site entry) w = (.ok (), paved))
    {origin : Place} {content : Bytes} {executable : Bool}
    (hfile : paved.tree.find site.here (site.path source) = .ok (origin, .file content executable))
    {u : FileTree}
    (hcopy : paved.tree.copy site.here (site.path source)
      (paved.tree.copyTarget site.here (site.path source) (destination config site entry)) =
        .ok u) :
    ∃ v, stage config site source entry w = (.ok (destination config site entry), v) ∧
      v.tree = u := by
  have hisFile : paved.tree.isFile site.here (site.path source) = true := by rw [isFile, hfile]
  obtain ⟨noted, hnoted, htree⟩ := Job.detail_apply config "Copying"
    ((site.path source).display ++ " -> " ++ (destination config site entry).display) paved
  rw [stage]
  dsimp only
  rw [if_neg (by simp [hdry]), Job.bind_of_ok hprepare, Job.ask_bind, if_pos hisFile,
    Job.bind_of_ok hnoted, Job.ask_bind, htree, Job.bind_apply, Job.update, Job.change, htree,
    hcopy]
  exact ⟨_, rfl, rfl⟩

lemma stage_of_deliverable (hdry : config.dryRun = false) (hw : w.tree.Linkless)
    (hentry : (destination config site entry).Spells place) (hne : place ≠ [])
    (hpointed : (destination config site entry).Pointed) {origin : Place}
    (hsource : (site.path source).Spells origin) {content : Bytes} {executable : Bool}
    (hfile : w.tree.find site.here (site.path source) = .ok (origin, .file content executable))
    (h : Deliverable w.tree site.here (destination config site entry) ⟨site.path source, place⟩) :
    ∃ v, stage config site source entry w = (.ok (destination config site entry), v) := by
  have hzero := zero_not_mem_of_find hfile
  obtain ⟨paved, hprepare, paves, hdir⟩ := prepare_of_passes site
    (h.passes_place hentry hzero) hne h.clear
  have hsingle : Unnested (· = (⟨site.path source, place⟩ : Delivery)) := unnested_single hne
  have hway : Receives (· = ⟨site.path source, place⟩) w.tree paved.tree := paves.receives rfl
  have hlinkless := paves.linkless hw
  have hthere := (get?_of_find hw hsource hfile).2
  have hfound : paved.tree.find site.here (site.path source) =
      .ok (origin, .file content executable) := by
    refine find_of_find hw hlinkless hsource hfile ?_ nofun
    rcases paves origin with hsame | ⟨hnone, -, -⟩
    · rw [hsame, hthere]
    · rw [hthere] at hnone
      cases hnone
  have possible := (Deliverable.of_receives hway hw hsingle rfl hentry).2 h
  obtain ⟨u, hcopy⟩ := copy_of_deliverable hlinkless possible hpointed hne hdir hfound
  obtain ⟨v, hstaged, -⟩ := stage_of_copy hdry hprepare hfound hcopy
  exact ⟨v, hstaged⟩

end Volume
end BootVolume
