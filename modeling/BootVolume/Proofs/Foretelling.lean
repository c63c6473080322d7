import BootVolume.Process.Child
import BootVolume.Proofs.Announcing
import BootVolume.Proofs.Footprint
import BootVolume.Proofs.Pairing
import BootVolume.Proofs.Rereading

/-!
# A run beside a dry run

A run and a dry run of the same are compared step by step (`Foretold`). The files of the dry run
stay as they were. Those of the other one change only by what is made of the volume, so that both
read the same sources, and a build is foretold step by step (`Build.tracks_all_rehearsal`).
-/

namespace BootVolume

open FileTree Layout

/-- The files of the first run are such as `P` says, those of the second one are as they were, and
it has told the same in its own words. -/
structure Foretold (t : FileTree) (P : FileTree → Prop) (w v : World) : Prop where
  real : P w.tree
  dry : v.tree = t
  told : v.told = w.told.map Message.rehearsed

/-- Children that end with zero, write nothing and leave the files alone. -/
def Machine.Quiet (m : Machine) : Prop :=
  ∀ path program argv dir t run, m.programs.run path program argv dir t = .ok run →
    run = { tree := t }

section Children

variable {m : Machine} {here dir : Place} {t : FileTree} {argv : List Bytes} {run : ChildRun}

lemma Machine.Quiet.of_start (quiet : m.Quiet) {p : Path} (h : m.start t dir p argv = .ok run) :
    run = { tree := t } := by
  rw [start] at h
  cases hprogram : t.program dir p with
  | error cause =>
    rw [hprogram] at h
    cases h
  | ok place =>
    rw [hprogram] at h
    exact quiet _ _ _ _ _ _ h

lemma Machine.Quiet.of_startFirst (quiet : m.Quiet) {refusal : Errno} {ps : List Path}
    (h : m.startFirst t dir argv refusal ps = .ok run) : run = { tree := t } := by
  induction ps generalizing refusal with
  | nil => cases h
  | cons p rest ih =>
    rw [startFirst] at h
    split at h
    · rename_i hstart
      cases h
      exact quiet.of_start hstart
    · split at h
      · exact ih h
      · cases h

lemma Machine.Quiet.of_spawn (quiet : m.Quiet) {inv : Invocation} {p : Path}
    (h : m.spawn t here inv p = .ok run) : run = { tree := t } := by
  rw [spawn] at h
  split at h
  · cases h
  split at h
  · cases h
  · rename_i place _
    cases hstart : m.startNamed t place inv.argv inv.program with
    | error cause =>
      rw [hstart] at h
      cases h
    | ok run' =>
      rw [hstart] at h
      cases h
      rw [startNamed] at hstart
      split_ifs at hstart
      · exact quiet.of_start hstart
      · exact quiet.of_startFirst hstart
  · cases h

lemma Machine.Quiet.inert (quiet : m.Quiet) (config : Config) (site : Site)
    (calls : List Invocation) (inv : Invocation) (t : FileTree) :
    ((m.executor config site).execute calls inv t).tree = t := by
  simp only [executor, Executor.starting]
  split
  · rfl
  · cases hspawn : m.spawn t site.here inv (workdir site inv) with
    | error cause => rfl
    | ok run => rw [quiet.of_spawn hspawn]

end Children

section Steps

variable {m : Machine} {config : Config} {site : Site} {t : FileTree} {P Q : FileTree → Prop}
  {α : Type}

lemma Foretold.mono {w v : World} (h : Foretold t P w v) (hPQ : ∀ u, P u → Q u) :
    Foretold t Q w v := ⟨hPQ _ h.real, h.dry, h.told⟩

lemma tracks_say {level level' : Level} {step step' content content' : String}
    (h : (Event.said ⟨level', step', content'⟩).announcement?.toList =
      ((Event.said ⟨level, step, content⟩).announcement?.toList).map Message.rehearsed) :
    Tracks (Foretold t P) (fun _ => Foretold t P) (Job.say level step content)
      (Job.say level' step' content') := by
  rintro w v _ _ ⟨real, dry, told⟩ ⟨⟩
  refine ⟨_, rfl, real, dry, ?_⟩
  rw [told_said, told_said, told, h, List.map_append]

lemma tracks_detail {step : String} (hstep : step ∉ announcing) (content : String) :
    Tracks (Foretold t P) (fun _ => Foretold t P) (Job.detail config.inEarnest step content)
      (Job.detail config.inRehearsal step content) := by
  have hreal : config.inEarnest.showDebug = true := rfl
  have hdry : config.inRehearsal.showDebug = true := by
    simp [Config.inRehearsal, Config.showDebug]
  rw [detail_of_showDebug hreal, detail_of_showDebug hdry]
  exact tracks_say (by simp [Event.announcement?, hstep])

/-- A child that is run in the first run is skipped in the second one. -/
lemma tracks_run (quiet : m.Quiet) (inv : Invocation) :
    Tracks (Foretold t P) (fun _ => Foretold t P)
      ((m.executor config.inEarnest site).run inv)
      ((m.executor config.inRehearsal site).run inv) := by
  rintro w v _ u ⟨real, dry, told⟩ h
  rw [Executor.run_apply] at h
  rw [Executor.run_apply]
  simp only [Machine.executor, Executor.starting] at h ⊢
  rw [if_neg (by simp [Config.inEarnest]), if_pos (by rfl)] at h
  rw [if_pos (by rfl), if_pos (by simp [Config.showDebug, Config.inRehearsal])]
  cases hspawn : m.spawn w.tree site.here inv (Machine.workdir site inv) with
  | error cause =>
    rw [hspawn] at h
    cases h
  | ok run =>
    rw [hspawn] at h
    obtain rfl := quiet.of_spawn hspawn
    cases h
    refine ⟨_, rfl, real, dry, ?_⟩
    simp only [World.told, announced, List.filterMap_append, List.map_append] at told ⊢
    rw [told]
    simp [Event.announcement?, announcing, Message.rehearsed]

lemma tracks_find {tool : String}
    (hfind : ∀ u, P u → SearchPath.find? u m.searchPath m.home site.here tool =
      SearchPath.find? t m.searchPath m.home site.here tool) :
    Tracks (Foretold t P) (fun _ => Foretold t P)
      ((m.executor config.inEarnest site).find tool)
      ((m.executor config.inRehearsal site).find tool) := by
  rintro w v path u ⟨real, dry, told⟩ h
  rw [Executor.find, Prod.mk.injEq] at h
  obtain ⟨hlocate, rfl⟩ := h
  refine ⟨v, ?_, real, dry, told⟩
  rw [Executor.find]
  simp only [Machine.executor, Executor.starting] at hlocate ⊢
  rw [dry, ← hfind _ real, hlocate]

/-- Both runs read the same, if that is the same in the files of both. -/
lemma tracks_reading {job : Job α} (htree : Job.Keeps World.tree job)
    (htold : Job.Keeps World.told job)
    (reads : ∀ {w v : World} {a : α}, P w.tree → v.tree = t → (job w).1 = .ok a →
      (job v).1 = .ok a) :
    Tracks (Foretold t P) (fun a w v => Foretold t P w v ∧ (job { tree := t }).1 = .ok a)
      job job := by
  rintro w v a u ⟨real, dry, told⟩ h
  have hread : (job v).1 = .ok a := reads real dry (congrArg Prod.fst h)
  have hstart : (job { tree := t }).1 = .ok a := reads real rfl (congrArg Prod.fst h)
  obtain rfl : (job w).2 = u := congrArg Prod.snd h
  refine ⟨(job v).2, Prod.ext hread rfl, ⟨?_, ?_, ?_⟩, hstart⟩
  · rwa [htree w]
  · rw [htree v, dry]
  · rw [htold v, htold w, told]

end Steps

namespace Build

section Building

variable {m : Machine} {config : Config} {site : Site} {root : Place} {t : FileTree}

/-- What becomes of the files in a build. -/
def Built (config : Config) (site : Site) (t : FileTree) : FileTree → Prop :=
  Receives (EntryAmong config.inEarnest site IsEntry) t

lemma tracks_stage (ht : t.Linkless) (hroot : site.root.Spells root) (hboot : config.boot.Normal)
    {errand : Errand} {p : Place} (hp : errand.Reaches p) :
    Tracks (Foretold t (Built config site t)) (fun _ => Foretold t (Built config site t))
      (Volume.stage config.inEarnest site errand.source errand.entry)
      (Volume.stage config.inRehearsal site errand.source errand.entry) := by
  rintro w v staged u ⟨real, dry, told⟩ h
  have hearnest : config.inEarnest.dryRun = false := rfl
  have hreal := preserves_stage hearnest hroot hboot ht (fun _ => id) hp.leads hp.isEntry
    errand.source w real
  rw [h] at hreal
  obtain ⟨rfl, htold⟩ := told_of_stage rfl rfl h
  rw [stage_of_dryRun rfl]
  refine ⟨_, rfl, hreal, dry, ?_⟩
  rw [told_said, htold, told, List.map_append]
  rfl

variable (ht : t.Linkless) (hroot : site.root.Spells root) (hboot : config.boot.Normal)
  (hapart : ∀ volume, (Volume.root config site).Spells volume →
    Apart volume (root ++ sourcesPlace))
  (quiet : m.Quiet)
include ht hroot hboot hapart

omit ht hroot hboot in
/-- What is made of the volume is not among the sources. -/
lemma Built.sameBelow {u v : FileTree} (h : Built config site t u) (hv : v = t) :
    SameBelow (root ++ sourcesPlace) u v := by
  refine hv ▸ (Receives.sameBelow h ?_).symm
  rintro δ ⟨volume, p, hvolume, -, hplace⟩
  rw [hplace]
  exact (hapart volume hvolume).append p

include quiet in
lemma paired_rehearsal (toolchain : Path) :
    Paired config.inEarnest config.inRehearsal site (m.executor config.inEarnest site)
      (m.executor config.inRehearsal site) toolchain toolchain { tree := t }
      (fun _ => Foretold t (Built config site t)) where
  profile := rfl
  scan := rfl
  say content := tracks_say (by simp [Event.announcement?, announcing])
  skip content := tracks_detail (by decide) content
  run profile source := tracks_run quiet _
  stage hmem := by
    obtain ⟨p, hp⟩ := exists_reaches hmem
    exact tracks_stage ht hroot hboot hp
  present w v := by
    rintro ⟨real, dry, -⟩
    rw [dry]
    exact ⟨exists?_bootConfig_eq (Built.sameBelow hapart real rfl) (real.linkless ht) ht hroot, rfl⟩
  discover := tracks_reading (Job.overlooks_tree.law.discover site) (keeps_told_discover site)
    fun real dry hok => discover_ok (Built.sameBelow hapart real dry) (real.linkless ht) (dry ▸ ht)
      hroot hok
  load {_ dirs dir} hdirs hdir := by
    obtain ⟨name, hname⟩ := exists_name_of_discover hdirs hdir
    exact tracks_reading (Job.overlooks_tree.law.load site _ _) (keeps_told_load site _ _)
      fun real dry hok => load_ok (Built.sameBelow hapart real dry) (real.linkless ht) (dry ▸ ht)
        hroot hname hok

include quiet in
/-- A build that succeeds is foretold by a dry run of it. -/
lemma tracks_all_rehearsal :
    Tracks (Foretold t (· = t)) (fun _ => Foretold t (Built config site t))
      (all config.inEarnest site (m.executor config.inEarnest site))
      (all config.inRehearsal site (m.executor config.inRehearsal site)) := by
  rw [all_eq, all_eq]
  refine tracks_bind (tracks_find fun u hu => by rw [hu]) fun toolchain => ?_
  exact tracks_mono (paired_rehearsal ht hroot hboot hapart quiet toolchain).tracks_build
    (fun _ _ h => h.mono fun u hu => hu ▸ receives_refl _ _) fun _ _ _ => id

end Building
end Build

end BootVolume
