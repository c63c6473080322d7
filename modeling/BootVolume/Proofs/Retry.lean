import BootVolume.Proofs.Pairing

/-!
# Trying a build again

A build that failed is not rolled back, but what it left does no harm: another build comes to the
same end as it would have come to without the first one (`retry_converges`). The two are compared
step by step. Their files may differ only where something is still to be staged (`Pending`), and
whether that succeeds depends neither on what was staged there before nor on the directories that
were made on the way to it.
-/

namespace BootVolume.Build

open FileTree Layout

/-- A delivery that carries out an errand. -/
def Errand.Delivers (config : Config) (site : Site) (errand : Errand) (δ : Delivery) : Prop :=
  δ.source = site.path errand.source ∧ ∃ volume p,
    (Volume.root config site).Spells volume ∧ errand.Reaches p ∧ δ.place = volume ++ p

/-- The deliveries that carry out some errands. -/
def Due (config : Config) (site : Site) (errands : List Errand) (δ : Delivery) : Prop :=
  ∃ errand ∈ errands, errand.Delivers config site δ

/-- What a build relies on to come to the same end again: there are no links, the volume is apart
from the sources and from the target directory, and packages have names such as paths are made
of. -/
structure Steady (config : Config) (site : Site) (w : World) (root : Place) : Prop where
  earnest : config.dryRun = false
  linkless : w.tree.Linkless
  rooted : site.root.Spells root
  boot : config.boot.Normal
  apart (volume : Place) : (Volume.root config site).Spells volume →
    ∀ base ∈ [sourcesPlace, targetPlace], Apart volume (root ++ base)
  packages (dirs : List String) : (App.discover site w).1 = .ok dirs → ∀ dir ∈ dirs, ∀ app,
    (App.load site dir config.manifestScan w).1 = .ok app → (Path.ofString app.package).Normal

section Delivering

variable {config : Config} {site : Site} {errands : List Errand} {errand : Errand} {δ δ' : Delivery}

lemma Errand.Delivers.unique (h : errand.Delivers config site δ)
    (h' : errand.Delivers config site δ') : δ = δ' := by
  obtain ⟨hsource, volume, p, hvolume, hp, hplace⟩ := h
  obtain ⟨hsource', volume', p', hvolume', hp', hplace'⟩ := h'
  refine Delivery.ext (hsource.trans hsource'.symm) ?_
  rw [hplace, hplace']
  exact (hvolume.join hp.leads).unique (hvolume'.join hp'.leads)

lemma unnested_due : Unnested (Due config site errands) := by
  intro δ δ' hδ hδ'
  have among {δ : Delivery} (h : Due config site errands δ) : EntryAmong config site IsEntry δ := by
    obtain ⟨errand, -, -, volume, p, hvolume, hp, hplace⟩ := h
    exact ⟨volume, p, hvolume, hp.isEntry, hplace⟩
  exact unnested_entries (fun _ => id) δ δ' (among hδ) (among hδ')

end Delivering

section Steady

variable {config : Config} {site : Site} {executor : Executor} {w₀ w v u : World} {root : Place}
  {errand : Errand} {rest : List Errand}

variable (steady : Steady config site w₀ root)
include steady

lemma Steady.sameBelow {base : Place} (hbase : base ∈ [sourcesPlace, targetPlace]) {t : FileTree}
    (h : Receives (Due config site (agenda config site w₀)) w₀.tree t) :
    SameBelow (root ++ base) w₀.tree t := by
  refine h.sameBelow ?_
  rintro δ ⟨errand, -, -, volume, p, hvolume, -, hplace⟩
  rw [hplace]
  exact (steady.apart volume hvolume base hbase).append p

/-- Where the file of an errand comes from and where it goes, if it is staged at all. -/
lemma Steady.exists_delivery (hmem : errand ∈ agenda config site w₀) {staged : Path}
    (h : Volume.stage config site errand.source errand.entry w = (.ok staged, u)) :
    ∃ place origin, errand.Delivers config site ⟨site.path errand.source, place⟩ ∧
      (Volume.destination config site errand.entry).Spells place ∧
      (Volume.destination config site errand.entry).Pointed ∧ place ≠ [] ∧
      (site.path errand.source).Spells origin ∧ ¬place <+: origin ∧
      ∃ base ∈ [sourcesPlace, targetPlace], root ++ base <+: origin := by
  obtain ⟨hsource, hdestination⟩ := Volume.zero_not_mem_of_stage steady.earnest h
  obtain ⟨p, hp⟩ := exists_reaches hmem
  obtain ⟨base, hbase, way, hway⟩ := exists_origin steady.packages hmem hsource
  obtain ⟨volume, hspells⟩ := exists_volume steady.rooted steady.boot
    (Path.zero_not_mem_of_join hp.leads.relative hdestination).1
  have hbelow : root ++ base <+: root ++ (base ++ way) := by simp
  have hapart := steady.apart _ hspells base hbase
  refine ⟨volume ++ p, root ++ (base ++ way), ⟨rfl, _, p, hspells, hp, rfl⟩,
    hspells.join hp.leads, hp.pointed.join _ hp.leads.relative, ?_, steady.rooted.join hway, ?_,
    base, hbase, hbelow⟩
  · simp [ne_nil_of_isEntry hp.isEntry]
  · exact fun hinto => hapart.not_both ((List.prefix_append _ _).trans hinto) hbelow

/-- Whatever comes of it, staging a file that is on the agenda is a delivery that is due. -/
lemma Steady.preserves_stage (errand : Errand) (hmem : errand ∈ agenda config site w₀) :
    Preserves (Receives (Due config site (agenda config site w₀)) w₀.tree)
      (Volume.stage config site errand.source errand.entry) := by
  obtain ⟨p, hp⟩ := exists_reaches hmem
  intro w hw
  refine hw.trans ?_ unnested_due
  refine (stage_receives_entry steady.earnest steady.rooted steady.boot
    (hw.linkless steady.linkless) hp.leads (ne_nil_of_isEntry hp.isEntry) errand.source).mono ?_
  rintro δ ⟨hsource, volume, hvolume, hplace⟩
  exact ⟨errand, hmem, hsource, volume, p, hvolume, hp, hplace⟩

/-- Whatever comes of a build, it makes deliveries that are due. -/
lemma Steady.receives_all
    (inert : ∀ calls inv tree, (executor.execute calls inv tree).tree = tree) :
    Receives (Due config site (agenda config site w₀)) w₀.tree
      (all config site executor w₀).2.tree := by
  let inv := Receives (Due config site (agenda config site w₀)) w₀.tree
  have hrun (call : Invocation) : Preserves inv (executor.run call) :=
    preserves_of_keeps (keeps_tree_run inert call)
  have hsame {t : FileTree} (h : inv t) : SameBelow (root ++ sourcesPlace) t w₀.tree :=
    (steady.sameBelow (by simp) h).symm
  have hbootConfig (t : FileTree) (ht : inv t)
      (hpresent : t.exists? site.here (site.path (.ofString bootConfigSource))) :
      Preserves inv
        (Volume.stage config site (.ofString bootConfigSource) (.ofString bootConfigEntry)) := by
    refine steady.preserves_stage bootConfigErrand (bootConfig_mem_agenda ?_)
    rwa [← exists?_bootConfig_eq (w := { tree := t }) (hsame ht) (ht.linkless steady.linkless)
      steady.linkless steady.rooted]
  rw [all_eq]
  cases hlocate : executor.locate w₀.tree Layout.toolchain with
  | error failure =>
    rw [Job.find_bind_of_error hlocate]
    exact receives_refl _ _
  | ok toolchain =>
    rw [Job.find_bind_of_ok hlocate]
    have hfixed : inv (found config site executor toolchain w₀).2.tree :=
      preserves_found hrun
        (steady.preserves_stage Component.bootloader.errand bootloader_mem_agenda) hbootConfig
        (steady.preserves_stage (Component.kernel config).errand kernel_mem_agenda) w₀
          (receives_refl _ _)
    rcases hfound : found config site executor toolchain w₀ with ⟨failure | dirs, v⟩ <;>
      rw [hfound] at hfixed
    · rwa [Job.bind_of_error hfound]
    rw [Job.bind_of_ok hfound]
    have hdirs : (App.discover site w₀).1 = .ok dirs :=
      discover_of_found hfound (hsame hfixed).symm steady.linkless
        (hfixed.linkless steady.linkless) steady.rooted
    refine preserves_appsIn hrun (fun dir hdir w app hw happ => ?_) v hfixed
    obtain ⟨name, hname⟩ := exists_name_of_discover hdirs hdir
    exact steady.preserves_stage (Component.app config dir app.package).errand <|
      app_mem_agenda hdirs hdir <| load_ok (hsame hw) (hw.linkless steady.linkless)
        steady.linkless steady.rooted hname happ

/-- The files of two builds that began in the same files: whatever is different between them goes
back to deliveries that are still to be made. -/
structure Pending (config : Config) (site : Site) (w₀ : World) (errands : List Errand)
    (w v : World) : Prop where
  left : Receives (Due config site (agenda config site w₀)) w₀.tree w.tree
  right : Receives (Due config site (agenda config site w₀)) w₀.tree v.tree
  differs (r : Place) : w.tree.get? r ≠ v.tree.get? r →
    ∃ δ, Due config site errands δ ∧ (r = w₀.tree.outlet δ ∨ r <+: δ.place.dropLast)

omit steady in
lemma Pending.symm (h : Pending config site w₀ rest w v) : Pending config site w₀ rest v w :=
  ⟨h.right, h.left, fun r hr => h.differs r hr.symm⟩

omit steady in
lemma Pending.congr (h : Pending config site w₀ rest w v) {w' v' : World}
    (hw : w'.tree = w.tree) (hv : v'.tree = v.tree) : Pending config site w₀ rest w' v' := by
  refine ⟨hw ▸ h.left, hv ▸ h.right, ?_⟩
  rw [hw, hv]
  exact h.differs

omit steady in
/-- At the start anything may be different. -/
lemma pending_of_receives
    (h : Receives (Due config site (agenda config site w₀)) w₀.tree w.tree) :
    Pending config site w₀ (agenda config site w₀) w w₀ := by
  refine ⟨h, receives_refl _ _, fun r hr => ?_⟩
  cases h r with
  | same heq => exact absurd heq hr
  | made hδ _ _ hway => exact ⟨_, hδ, .inr hway⟩
  | written hδ _ _ heq => exact ⟨_, hδ, .inl heq⟩

omit steady in
/-- In the end nothing is. -/
lemma Pending.tree_eq (h : Pending config site w₀ [] w v) : w.tree = v.tree := by
  refine ext_get? fun r => ?_
  by_contra hr
  obtain ⟨δ, ⟨errand, hmem, -⟩, -⟩ := h.differs r hr
  cases hmem

/-- A file is staged on both sides or on none, and then there is no difference any more where it
went. -/
lemma Steady.tracks_stage (hmem : errand ∈ agenda config site w₀) :
    Tracks (Pending config site w₀ (errand :: rest)) (fun _ => Pending config site w₀ rest)
      (Volume.stage config site errand.source errand.entry)
      (Volume.stage config site errand.source errand.entry) := by
  intro w v staged u pending h
  have hw := pending.left.linkless steady.linkless
  have hv := pending.right.linkless steady.linkless
  obtain ⟨place, origin, hδ, hplace, hpointed, hne, horigin, houtside, base, hbase, hbelow⟩ :=
    steady.exists_delivery hmem h
  have hdue : Due config site (agenda config site w₀) ⟨site.path errand.source, place⟩ :=
    ⟨errand, hmem, hδ⟩
  obtain ⟨possible, content, executable, hfound, hleft⟩ :=
    Volume.stage_exact steady.earnest hw hplace hne horigin houtside h
  have hsame : SameBelow (root ++ base) w.tree v.tree :=
    (steady.sameBelow hbase pending.left).symm.trans (steady.sameBelow hbase pending.right)
  have hfound' := hsame.find_ok hw hv horigin hbelow hfound
  have possible₀ := (Volume.Deliverable.of_receives pending.left steady.linkless unnested_due hdue
    hplace).1 possible
  have possible' := (Volume.Deliverable.of_receives pending.right steady.linkless unnested_due hdue
    hplace).2 possible₀
  obtain ⟨u', h'⟩ := Volume.stage_of_deliverable steady.earnest hv hplace hne hpointed horigin
    hfound' possible'
  obtain rfl : staged = Volume.destination config site errand.entry := by
    obtain ⟨_, hagain⟩ := Volume.stage_of_deliverable steady.earnest hw hplace hne hpointed horigin
      hfound possible
    exact Except.ok.inj (Prod.mk.inj (h.symm.trans hagain)).1
  obtain ⟨-, content', executable', hagain, hright⟩ :=
    Volume.stage_exact steady.earnest hv hplace hne horigin houtside h'
  cases hfound'.symm.trans hagain
  have left := steady.preserves_stage errand hmem w pending.left
  have right := steady.preserves_stage errand hmem v pending.right
  rw [h] at left
  rw [h'] at right
  refine ⟨u', h', left, right, fun r hr => ?_⟩
  rw [hleft, hright, pending.left.outlet_eq unnested_due hdue,
    pending.right.outlet_eq unnested_due hdue] at hr
  split_ifs at hr with houtlet hway
  · exact absurd rfl hr
  · exact absurd rfl hr
  obtain ⟨δ, ⟨other, hother, hdelivers⟩, hr⟩ := pending.differs r hr
  rcases List.mem_cons.1 hother with rfl | hother
  · rw [hdelivers.unique hδ] at hr
    rcases hr with hr | hr
    · exact absurd hr houtlet
    · exact absurd hr hway
  · exact ⟨δ, ⟨other, hother, hdelivers⟩, hr⟩

/-- What is read from the sources is what would have been read at the start. -/
lemma Steady.tracks_reading {α : Type} {job : Job α} (keeps : Job.Keeps World.tree job)
    (reads : ∀ {w v : World} {a : α}, SameBelow (root ++ sourcesPlace) w.tree v.tree →
      w.tree.Linkless → v.tree.Linkless → (job w).1 = .ok a → (job v).1 = .ok a) :
    Tracks (Pending config site w₀ rest)
      (fun a w v => Pending config site w₀ rest w v ∧ (job w₀).1 = .ok a) job job := by
  intro w v a u pending h
  have hw := pending.left.linkless steady.linkless
  have hv := pending.right.linkless steady.linkless
  have hsources : sourcesPlace ∈ [sourcesPlace, targetPlace] := by simp
  have hstart : (job w₀).1 = .ok a := reads (steady.sameBelow hsources pending.left).symm hw
    steady.linkless (congrArg Prod.fst h)
  have hother : (job v).1 = .ok a := reads (steady.sameBelow hsources pending.right)
    steady.linkless hv hstart
  refine ⟨(job v).2, Prod.ext hother rfl, pending.congr ?_ (keeps v), hstart⟩
  simpa [h] using keeps w

lemma Steady.paired (inert : ∀ calls inv tree, (executor.execute calls inv tree).tree = tree)
    (succeeds : ∀ calls inv tree,
      Executor.callFailure? inv (executor.execute calls inv tree).result = none)
    (toolchain toolchain' : Path) :
    Paired config config site executor executor toolchain toolchain' w₀
      (Pending config site w₀) where
  profile := rfl
  scan := rfl
  say content := by
    rintro w v _ _ pending ⟨⟩
    exact ⟨_, rfl, pending.congr rfl rfl⟩
  skip content := by
    intro w v _ u pending h
    obtain ⟨noted, hnoted, htree⟩ := Job.detail_apply config "Skipping" content w
    obtain ⟨noted', hnoted', htree'⟩ := Job.detail_apply config "Skipping" content v
    rw [hnoted] at h
    cases h
    exact ⟨noted', hnoted', pending.congr htree htree'⟩
  run profile source := by
    intro w v _ u pending h
    rw [Executor.run_apply, succeeds] at h
    rw [Executor.run_apply, succeeds]
    cases h
    exact ⟨_, rfl, pending.congr (inert _ _ _) (inert _ _ _)⟩
  stage := steady.tracks_stage
  present w v pending := by
    have hsources : sourcesPlace ∈ [sourcesPlace, targetPlace] := by simp
    exact ⟨exists?_bootConfig_eq (steady.sameBelow hsources pending.left).symm
        (pending.left.linkless steady.linkless) steady.linkless steady.rooted,
      exists?_bootConfig_eq (steady.sameBelow hsources pending.right).symm
        (pending.right.linkless steady.linkless) steady.linkless steady.rooted⟩
  discover := steady.tracks_reading (Job.overlooks_tree.law.discover site) fun hsame hw hv hok =>
    discover_ok hsame hw hv steady.rooted hok
  load {_ dirs dir} hdirs hdir := by
    obtain ⟨name, hname⟩ := exists_name_of_discover hdirs hdir
    exact steady.tracks_reading (Job.overlooks_tree.law.load site _ _) fun hsame hw hv hok =>
      load_ok hsame hw hv steady.rooted hname hok

/-- If one of the builds succeeds, so does the other one, and they leave the same files. -/
lemma Steady.tracks_all (inert : ∀ calls inv tree, (executor.execute calls inv tree).tree = tree)
    (succeeds : ∀ calls inv tree,
      Executor.callFailure? inv (executor.execute calls inv tree).result = none)
    (located : ∀ t t', (executor.locate t Layout.toolchain).isOk =
      (executor.locate t' Layout.toolchain).isOk) :
    Tracks (Pending config site w₀ (agenda config site w₀)) (fun _ w v => w.tree = v.tree)
      (all config site executor) (all config site executor) := by
  intro w v _ u pending h
  rw [all_eq] at h ⊢
  cases hlocate : executor.locate w.tree Layout.toolchain with
  | error failure =>
    rw [Job.find_bind_of_error hlocate] at h
    cases h
  | ok toolchain =>
    have hlocated := located w.tree v.tree
    cases hlocate' : executor.locate v.tree Layout.toolchain with
    | error failure =>
      rw [hlocate, hlocate'] at hlocated
      cases hlocated
    | ok toolchain' =>
      rw [Job.find_bind_of_ok hlocate] at h
      rw [Job.find_bind_of_ok hlocate']
      obtain ⟨u', h', done⟩ := (steady.paired inert succeeds toolchain toolchain').tracks_build
        w v () u pending h
      exact ⟨u', h', done.tree_eq⟩

end Steady

/-- However a first build ended, a build that is tried on the files that it left succeeds just if it
would have succeeded without the first one, and then it leaves the same files as without. Building
once more changes nothing. -/
theorem retry_converges {config : Config} {site : Site} {first second : Executor}
    {w left : World} {root : Place} (steady : Steady config site w root)
    (inert : ∀ executor ∈ [first, second], ∀ calls inv tree,
      (executor.execute calls inv tree).tree = tree)
    (succeeds : ∀ calls inv tree,
      Executor.callFailure? inv (second.execute calls inv tree).result = none)
    (located : ∀ t t', (second.locate t Layout.toolchain).isOk =
      (second.locate t' Layout.toolchain).isOk)
    (hleft : left.tree = (all config site first w).2.tree) :
    let fresh := all config site second w
    let retried := all config site second left
    (retried.1 = .ok () ↔ fresh.1 = .ok ()) ∧
      (fresh.1 = .ok () → retried.2.tree = fresh.2.tree ∧
        ∀ v : World, v.tree = fresh.2.tree →
          (all config site second v).1 = .ok () ∧
          (all config site second v).2.tree = fresh.2.tree) := by
  intro fresh retried
  obtain ⟨inert₁, inert₂⟩ : (∀ calls inv tree, (first.execute calls inv tree).tree = tree) ∧
      ∀ calls inv tree, (second.execute calls inv tree).tree = tree := by simpa using inert
  have tracks := steady.tracks_all inert₂ succeeds located
  have pending : Pending config site w (agenda config site w) left w :=
    pending_of_receives (hleft ▸ steady.receives_all inert₁)
  refine ⟨⟨fun hok => ?_, fun hok => ?_⟩, fun hok => ⟨?_, fun v hv => ?_⟩⟩
  · obtain ⟨u, h, -⟩ := tracks left w () retried.2 pending (Prod.ext hok rfl)
    exact congrArg Prod.fst h
  · obtain ⟨u, h, -⟩ := tracks w left () fresh.2 pending.symm (Prod.ext hok rfl)
    exact congrArg Prod.fst h
  · obtain ⟨u, h, htree⟩ := tracks w left () fresh.2 pending.symm (Prod.ext hok rfl)
    exact (congrArg (World.tree ∘ Prod.snd) h).trans htree.symm
  · -- The first build may as well be one that succeeds.
    have again : Pending config site w (agenda config site w) v w :=
      pending_of_receives (hv ▸ steady.receives_all inert₂)
    obtain ⟨u, h, htree⟩ := tracks w v () fresh.2 again.symm (Prod.ext hok rfl)
    exact ⟨congrArg Prod.fst h, (congrArg (World.tree ∘ Prod.snd) h).trans htree.symm⟩

namespace Twins

/-- All artifacts of the twins are there. -/
def ready : World := { tree := tree.put binary (.file (Utf8.encode "tool") true) }

/-- The kernel does not compile. -/
def broken : Executor := ({ results := [.exit 0, .exit 1] } : Rehearsal).executor []

lemma ready_evaluated :
    (App.discover site ready).1.toOption = some ["a", "b"] ∧
    (∀ dir ∈ ["a", "b"], (App.load site dir .literal ready).1.toOption =
      some { dir, package := "tool" }) ∧
    (all {} site idle ready).1.toOption = some () := by
  decide +kernel

/-- What the build that stops at the kernel leaves. -/
def left : World := (all {} site broken ready).2

lemma left_evaluated :
    (left.tree.get? (place "esp/EFI/BOOT"), left.tree.get? (place "esp/APP")) =
      (some .dir, none) := by
  decide +kernel

lemma steady : Steady {} site ready [] where
  earnest := rfl
  linkless := orderly.linkless.put nofun
  rooted := orderly.rooted
  boot := orderly.boot
  apart volume hvolume := by
    simpa using apart hvolume
  packages dirs hdirs dir hdir app happ := by
    rw [← Except.ok.inj ((eq_ok_of_toOption ready_evaluated.1).symm.trans hdirs)] at hdir
    have hload := eq_ok_of_toOption (ready_evaluated.2.1 dir hdir)
    rw [← Except.ok.inj (hload.symm.trans happ)]
    exact @normal_of_name "tool" (by decide)

lemma inert : ∀ executor ∈ [broken, idle], ∀ calls inv tree,
    (executor.execute calls inv tree).tree = tree := by
  intro executor hmem calls inv tree
  simp only [List.mem_cons, List.not_mem_nil, or_false] at hmem
  rcases hmem with rfl | rfl <;> rfl

lemma succeeds (calls : List Invocation) (inv : Invocation) (tree : FileTree) :
    Executor.callFailure? inv (idle.execute calls inv tree).result = none := rfl

lemma located (t t' : FileTree) :
    (idle.locate t Layout.toolchain).isOk = (idle.locate t' Layout.toolchain).isOk := rfl

end Twins

/-- After a build that stopped at the kernel another one comes to the same end as without it. -/
theorem retry_converges_twins :
    (Steady {} Twins.site Twins.ready [] ∧
      (∀ executor ∈ [Twins.broken, Twins.idle], ∀ calls inv tree,
        (executor.execute calls inv tree).tree = tree) ∧
      (∀ calls inv tree,
        Executor.callFailure? inv (Twins.idle.execute calls inv tree).result = none) ∧
      (∀ t t', (Twins.idle.locate t Layout.toolchain).isOk =
        (Twins.idle.locate t' Layout.toolchain).isOk) ∧
      Twins.left.tree = (all {} Twins.site Twins.broken Twins.ready).2.tree) ∧
    (Twins.left.tree.get? (Twins.place "esp/EFI/BOOT"),
      Twins.left.tree.get? (Twins.place "esp/APP")) = (some .dir, none) ∧
    (all {} Twins.site Twins.idle Twins.left).1 = .ok () ∧
    (all {} Twins.site Twins.idle Twins.left).2.tree =
      (all {} Twins.site Twins.idle Twins.ready).2.tree := by
  have hleft : Twins.left.tree = (all {} Twins.site Twins.broken Twins.ready).2.tree :=
    congrArg World.tree (by rw [Twins.left])
  have hok := Twins.eq_ok_of_toOption Twins.ready_evaluated.2.2
  obtain ⟨hiff, hsame⟩ :=
    retry_converges Twins.steady Twins.inert Twins.succeeds Twins.located hleft
  exact ⟨⟨Twins.steady, Twins.inert, Twins.succeeds, Twins.located, hleft⟩, Twins.left_evaluated,
    hiff.2 hok, (hsame hok).1⟩

end BootVolume.Build
