import BootVolume.Proofs.Foretelling
import BootVolume.Proofs.Retry
import BootVolume.Proofs.Search
import BootVolume.Proofs.Task

/-!
# What a dry run foretells

A run that succeeds is foretold by a dry run, whatever the task (`dry_run_foretells`). A task that
has changed the volume may go on to look for a tool, and has to find it where it was before. That
the search path does not lead to the volume is not enough for that (`dry_run_misleads`).
-/

namespace BootVolume

open FileTree Layout

/-! ## Tasks -/

/-- The files are as they were but for what was made of the volume, if there can be one. -/
def Aside (config : Config) (site : Site) (t u : FileTree) : Prop :=
  u = t ∨ ∃ volume, (Volume.root config site).Spells volume ∧ Remakes volume t u ∧ u.Linkless

/-- The tool that a task looks for once it has changed the volume. -/
def Task.lateTool? : Task → Option String
  | clean => some Layout.toolchain
  | run => some Layout.hypervisor
  | build | launch | clippy => none

section Tasks

variable {m : Machine} {config : Config} {site : Site} {root : Place} {t u : FileTree}

lemma Build.Built.aside (ht : t.Linkless) (h : Build.Built config site t u) :
    Aside config site t u := by
  by_cases hvolume : ∃ volume, (Volume.root config site).Spells volume
  · obtain ⟨volume, hvolume⟩ := hvolume
    refine .inr ⟨volume, hvolume, Receives.remakes h ?_, h.linkless ht⟩
    rintro δ ⟨volume', p, hvolume', hp, hplace⟩
    exact ⟨p, Build.ne_nil_of_isEntry hp, hplace.trans (by rw [hvolume.unique hvolume'])⟩
  · refine .inl (ext_get? fun r => ?_)
    cases h r with
    | same heq => exact heq
    | made hδ | written hδ =>
      obtain ⟨volume, -, hspells, -⟩ := hδ
      exact absurd ⟨volume, hspells⟩ hvolume

/-- A tool is found where it was found before the volume changed. -/
lemma Aside.find?_eq (h : Aside config site t u) (ht : t.Linkless) {tool : String}
    (htool : (Path.ofString tool).components.length ≤ 1)
    (hclear : ∀ volume, (Volume.root config site).Spells volume →
      ∀ p ∈ SearchPath.candidates m.searchPath m.home (.ofString tool),
        t.ClearOf u volume site.here p) :
    SearchPath.find? u m.searchPath m.home site.here tool =
      SearchPath.find? t m.searchPath m.home site.here tool := by
  obtain rfl | ⟨volume, hvolume, remakes, hu⟩ := h
  · rfl
  · exact SearchPath.find?_eq remakes ht hu htool (hclear volume hvolume)

/-- The first run removes the volume, and the second one says so. -/
lemma tracks_removeAll (ht : t.Linkless) (hroot : site.root.Spells root)
    (hboot : config.boot.Normal) :
    Tracks (Foretold t (· = t)) (fun _ => Foretold t (Aside config site t))
      (Volume.removeAll config.inEarnest site) (Volume.removeAll config.inRehearsal site) := by
  rintro w v removed u ⟨rfl, dry, told⟩ h
  obtain ⟨hremoved, htree, htold⟩ := told_of_removeAll rfl rfl h
  have hdry : config.inRehearsal.dryRun = true := rfl
  have hpresent : v.tree.exists? site.here (Volume.root config.inRehearsal site) = removed := by
    rw [dry, hremoved]
    rfl
  obtain ⟨u', h', htree', htold'⟩ := removeAll_of_dryRun hdry hpresent
  refine ⟨u', h', ?_, htree'.trans dry, ?_⟩
  · cases removed with
    | false => exact .inl htree
    | true =>
      obtain ⟨volume, hvolume⟩ :=
        Build.exists_volume hroot hboot (zero_not_mem_of_exists? hremoved.symm)
      exact .inr ⟨volume, hvolume, htree ▸ remakes_remove ht hvolume⟩
  · rw [htold', htold, told, List.map_append]
    cases removed <;> rfl

/-- A second step that leaves the files alone starts from those that the first run ends with. -/
lemma tracks_bind_keeping {ε α β : Type} {P : FileTree → Prop} {R : World → World → Prop}
    {U : β → World → World → Prop} {first first' : ExceptT ε (StateM World) α}
    {second second' : α → ExceptT ε (StateM World) β}
    (hfirst : Tracks R (fun _ => Foretold t P) first first')
    (keeps : ∀ a, Job.Keeps World.tree (second a))
    (hsecond : ∀ a, Tracks (Foretold t fun v => P v ∧ v = u) U (second a) (second' a)) :
    Tracks (fun w v => R w v ∧ ((first >>= second) w).2.tree = u) U (first >>= second)
      (first' >>= second') := by
  refine tracks_bind_of_end (p := fun w => w.tree = u) hfirst fun a => ?_
  refine tracks_mono (hsecond a) ?_ fun _ _ _ => id
  rintro w v ⟨⟨real, dry, told⟩, hend⟩
  exact ⟨⟨real, (keeps a w).symm.trans hend⟩, dry, told⟩

lemma keeps_tree_sweep {executor : Executor}
    (inert : ∀ calls inv tree, (executor.execute calls inv tree).tree = tree) :
    Job.Keeps World.tree (Task.sweep executor) := by
  unfold Task.sweep
  refine Job.keeps_bind (fun _ => rfl) fun _ => Job.keeps_bind (fun _ => rfl) fun _ => ?_
  exact Build.keeps_tree_run inert _

lemma tracks_sweep {P : FileTree → Prop} (quiet : m.Quiet)
    (hfind : ∀ v, P v → SearchPath.find? v m.searchPath m.home site.here Layout.toolchain =
      SearchPath.find? t m.searchPath m.home site.here Layout.toolchain) :
    Tracks (Foretold t P) (fun _ => Foretold t P) (Task.sweep (m.executor config.inEarnest site))
      (Task.sweep (m.executor config.inRehearsal site)) := by
  unfold Task.sweep
  refine tracks_bind (tracks_find hfind) fun _ => ?_
  exact tracks_bind (tracks_say (by simp [Event.announcement?, announcing])) fun _ =>
    tracks_run quiet _

/-- The toolchain is looked for when the volume is gone. -/
lemma tracks_removeOutput (ht : t.Linkless) (hroot : site.root.Spells root)
    (hboot : config.boot.Normal) (quiet : m.Quiet)
    (hclear : ∀ volume, (Volume.root config site).Spells volume →
      ∀ p ∈ SearchPath.candidates m.searchPath m.home (.ofString Layout.toolchain),
        t.ClearOf u volume site.here p) :
    Tracks
      (fun w v => Foretold t (· = t) w v ∧
        (Task.removeOutput config.inEarnest site (m.executor config.inEarnest site) w).2.tree = u)
      (fun _ => Foretold t fun v => Aside config site t v ∧ v = u)
      (Task.removeOutput config.inEarnest site (m.executor config.inEarnest site))
      (Task.removeOutput config.inRehearsal site (m.executor config.inRehearsal site)) := by
  rw [Task.removeOutput_eq, Task.removeOutput_eq]
  have sweeps : Tracks (Foretold t fun v => Aside config site t v ∧ v = u)
      (fun _ => Foretold t fun v => Aside config site t v ∧ v = u)
      (Task.sweep (m.executor config.inEarnest site))
      (Task.sweep (m.executor config.inRehearsal site)) := by
    refine tracks_sweep quiet ?_
    rintro _ ⟨haside, rfl⟩
    exact haside.find?_eq ht (by decide) hclear
  refine tracks_bind_keeping (tracks_removeAll ht hroot hboot) (fun removed => ?_) fun removed => ?_
  · have keeps := keeps_tree_sweep (quiet.inert config.inEarnest site)
    split
    · exact Job.keeps_bind (fun _ => rfl) fun _ => keeps
    · exact keeps
  · split
    · exact tracks_bind (tracks_say (by simp [Event.announcement?, announcing])) fun _ => sweeps
    · exact sweeps

lemma tracks_checkApps (quiet : m.Quiet) (toolchain : Path) (dirs : List String) :
    Tracks (Foretold t (· = t)) (fun _ => Foretold t (· = t))
      (Task.checkApps (m.executor config.inEarnest site) toolchain dirs)
      (Task.checkApps (m.executor config.inRehearsal site) toolchain dirs) := by
  induction dirs with
  | nil => exact tracks_pure fun _ _ => id
  | cons dir dirs ih =>
    unfold Task.checkApps
    refine tracks_bind (tracks_say (by simp [Event.announcement?, announcing])) fun _ => ?_
    exact tracks_bind (tracks_run quiet _) fun _ => ih

lemma tracks_lint (quiet : m.Quiet) :
    Tracks (Foretold t (· = t)) (fun _ => Foretold t (· = t))
      (Task.lint site (m.executor config.inEarnest site))
      (Task.lint site (m.executor config.inRehearsal site)) := by
  have discovers : Tracks (Foretold t (· = t)) (fun _ => Foretold t (· = t)) (App.discover site)
      (App.discover site) := by
    refine tracks_mono (tracks_reading (Job.overlooks_tree.law.discover site)
      (keeps_told_discover site) fun {w v dirs} hw hv hok => ?_) (fun _ _ => id) fun _ _ _ h => h.1
    rw [App.discover_apply] at hok ⊢
    rwa [hv, ← hw]
  unfold Task.lint
  refine tracks_bind (tracks_find fun u hu => by rw [hu]) fun toolchain => ?_
  refine tracks_bind (tracks_say (by simp [Event.announcement?, announcing])) fun _ => ?_
  refine tracks_bind (tracks_run quiet _) fun _ => ?_
  refine tracks_bind (tracks_say (by simp [Event.announcement?, announcing])) fun _ => ?_
  refine tracks_bind (tracks_run quiet _) fun _ => ?_
  exact tracks_bind discovers fun dirs => tracks_checkApps quiet toolchain dirs

/-! ## Runs of the program -/

lemma tracks_within {R : World → World → Prop} {S : Unit → World → World → Prop}
    {job job' : Job Unit} (h : Tracks R S job job') (context : String) :
    Tracks R S (Program.within context job) (Program.within context job') := by
  intro w v a u hR hjob
  rw [Program.within] at hjob
  split at hjob
  · rename_i hdone
    cases hjob
    obtain ⟨u', hu', hS⟩ := h w v () _ hR hdone
    refine ⟨u', ?_, hS⟩
    rw [Program.within, hu']
  · cases hjob

lemma tracks_boot {P : FileTree → Prop} (quiet : m.Quiet)
    (hfind : ∀ v, P v → SearchPath.find? v m.searchPath m.home site.here Layout.hypervisor =
      SearchPath.find? t m.searchPath m.home site.here Layout.hypervisor) :
    Tracks (Foretold t P) (fun _ => Foretold t P)
      (Program.boot config.inEarnest (m.executor config.inEarnest site))
      (Program.boot config.inRehearsal (m.executor config.inRehearsal site)) := by
  unfold Program.boot
  refine tracks_bind (tracks_within (tracks_say (by simp [Event.announcement?, announcing])) _)
    fun _ => tracks_within ?_ _
  unfold Hypervisor.launch
  exact tracks_bind (tracks_find hfind) fun _ => tracks_run quiet _

/-- The first run may warn that there is no volume; otherwise both do the same. -/
lemma tracks_launch {P : FileTree → Prop} (quiet : m.Quiet)
    (hfind : ∀ v, P v → SearchPath.find? v m.searchPath m.home site.here Layout.hypervisor =
      SearchPath.find? t m.searchPath m.home site.here Layout.hypervisor) :
    Tracks (Foretold t P) (fun _ => Foretold t P)
      (Program.launch config.inEarnest site (m.executor config.inEarnest site))
      (Program.launch config.inRehearsal site (m.executor config.inRehearsal site)) := by
  intro w v a u foretold h
  rw [Program.launch_eq, Job.bind_apply] at h ⊢
  dsimp only at h ⊢
  rw [if_neg (by simp [Config.inRehearsal])]
  split at h
  · refine tracks_boot quiet hfind _ v a u ⟨?_, foretold.dry, ?_⟩ h
    · exact foretold.real
    · rw [told_said, foretold.told]
      simp [Event.announcement?, announcing]
  · exact tracks_boot quiet hfind w v a u foretold h

lemma keeps_tree_launch (quiet : m.Quiet) :
    Job.Keeps World.tree
      (Program.launch config.inEarnest site (m.executor config.inEarnest site)) := by
  have boots : Job.Keeps World.tree
      (Program.boot config.inEarnest (m.executor config.inEarnest site)) := by
    refine Job.keeps_bind (Program.keeps_within (fun _ => rfl) _) fun _ =>
      Program.keeps_within (Job.keeps_bind (fun _ => rfl) fun _ => ?_) _
    exact Build.keeps_tree_run (quiet.inert _ _) _
  rw [Program.launch_eq]
  refine Job.keeps_bind (fun _ => rfl) fun present => ?_
  split
  · exact Job.keeps_bind (Program.keeps_within (fun _ => rfl) _) fun _ => boots
  · exact boots

section Building

variable (ht : t.Linkless) (hroot : site.root.Spells root) (hboot : config.boot.Normal)
  (hapart : ∀ volume, (Volume.root config site).Spells volume →
    Apart volume (root ++ sourcesPlace))
  (quiet : m.Quiet)
include ht hroot hboot hapart quiet

lemma tracks_build :
    Tracks (Foretold t (· = t)) (fun _ => Foretold t (Aside config site t))
      (Program.build config.inEarnest site (m.executor config.inEarnest site))
      (Program.build config.inRehearsal site (m.executor config.inRehearsal site)) := by
  unfold Program.build
  refine tracks_bind (tracks_within (tracks_detail (by decide) _) _) fun _ => ?_
  refine tracks_bind
    (tracks_within (Build.tracks_all_rehearsal ht hroot hboot hapart quiet) _) fun _ => ?_
  refine tracks_mono (tracks_within
    (tracks_say (by simp [Event.announcement?, announcing])) _) ?_ fun _ _ _ => id
  exact fun _ _ foretold => foretold.mono fun _ => Build.Built.aside ht

lemma tracks_task
    (hclear : ∀ tool ∈ config.task.lateTool?, ∀ volume, (Volume.root config site).Spells volume →
      ∀ p ∈ SearchPath.candidates m.searchPath m.home (.ofString tool),
        t.ClearOf u volume site.here p) :
    Tracks
      (fun w v => Foretold t (· = t) w v ∧
        (Program.task config.inEarnest site (m.executor config.inEarnest site) w).2.tree = u)
      (fun _ => Foretold t fun _ => True)
      (Program.task config.inEarnest site (m.executor config.inEarnest site))
      (Program.task config.inRehearsal site (m.executor config.inRehearsal site)) := by
  have hreal : config.inEarnest.task = config.task := rfl
  have hdry : config.inRehearsal.task = config.task := rfl
  simp only [Program.task, hreal, hdry]
  cases htask : config.task with
  | build =>
    exact tracks_mono (tracks_build ht hroot hboot hapart quiet) (fun _ _ h => h.1)
      fun _ _ _ h => h.mono fun _ _ => trivial
  | clean =>
    rw [htask] at hclear
    refine tracks_mono (tracks_within (tracks_removeOutput ht hroot hboot quiet (hclear _ rfl)) _)
      (fun w _ h => ⟨h.1, ?_⟩) fun _ _ _ h => h.mono fun _ _ => trivial
    rw [← h.2, Program.snd_within]
  | launch =>
    refine tracks_mono (tracks_launch quiet fun v hv => ?_) (fun _ _ h => h.1)
      fun _ _ _ h => h.mono fun _ _ => trivial
    rw [hv]
  | run =>
    rw [htask] at hclear
    refine tracks_mono (tracks_bind_keeping (tracks_build ht hroot hboot hapart quiet)
      (fun _ => keeps_tree_launch quiet) fun _ => tracks_launch quiet ?_) (fun _ _ => id)
      fun _ _ _ h => h.mono fun _ _ => trivial
    rintro _ ⟨haside, rfl⟩
    exact haside.find?_eq ht (by decide) (hclear _ rfl)
  | clippy =>
    exact tracks_mono (tracks_within (tracks_lint quiet) _) (fun _ _ h => h.1)
      fun _ _ _ h => h.mono fun _ _ => trivial

/-- A run that succeeds is foretold by a dry run, up to the line that reports a failure. -/
lemma tracks_whole
    (hclear : ∀ tool ∈ config.task.lateTool?, ∀ volume, (Volume.root config site).Spells volume →
      ∀ p ∈ SearchPath.candidates m.searchPath m.home (.ofString tool),
        t.ClearOf u volume site.here p) :
    Tracks
      (fun w v => Foretold t (· = t) w v ∧
        (Program.whole config.inEarnest site (m.executor config.inEarnest site) w).2.tree = u)
      (fun _ => Foretold t fun _ => True)
      (Program.whole config.inEarnest site (m.executor config.inEarnest site))
      (Program.whole config.inRehearsal site (m.executor config.inRehearsal site)) :=
  tracks_bind_of_end (p := fun w => w.tree = u)
    (tracks_within (tracks_detail (by decide) _) _) fun _ =>
      tracks_task ht hroot hboot hapart quiet hclear

end Building

section Completion

variable {executor : Executor}

lemma Program.complete_of_ok {w : World}
    (h : whole config site executor { tree := t } = (.ok (), w)) :
    complete config site executor t = { exit := 0, tree := w.tree, events := w.events } := by
  rw [complete, h]

lemma Program.exists_of_exit_eq_zero (h : (complete config site executor t).exit = 0) :
    ∃ w, whole config site executor { tree := t } = (.ok (), w) := by
  rw [complete] at h
  rcases hwhole : whole config site executor { tree := t } with ⟨report | _, w⟩
  · rw [hwhole] at h
    cases h
  · exact ⟨w, rfl⟩

end Completion

end Tasks

/-- What a run takes for granted: its children do their work without a trace, nothing is a link, and
the volume lies apart from the sources. -/
structure Undisturbed (m : Machine) (config : Config) (here : Place) (tree : FileTree) : Prop where
  quiet : m.Quiet
  linkless : tree.Linkless
  boot : config.boot.Normal
  apart (root volume : Place) : (Program.site tree here).root.Spells root →
    (Volume.root config (Program.site tree here)).Spells volume →
      Apart volume (root ++ sourcesPlace)

/-- A run with details that succeeds is foretold by a dry run. That one succeeds too, and tells of
the same children, copies and removals, one for one and in the same order. A tool that is looked for
once the volume was changed has to be found where it was before: the search must not lead up from a
directory that the run makes or removes, nor below the volume or to a program in its place.

Whatever is staged, the dry run also comes to the same path as the other one. -/
theorem dry_run_foretells {m : Machine} {config : Config} {here : Place} {tree : FileTree}
    (undisturbed : Undisturbed m config here tree)
    (hclear : ∀ tool ∈ config.task.lateTool?, ∀ volume,
      (Volume.root config (Program.site tree here)).Spells volume →
        ∀ p ∈ SearchPath.candidates m.searchPath m.home (.ofString tool),
          tree.ClearOf (Program.run m config.inEarnest here tree).tree volume here p) :
    let real := Program.run m config.inEarnest here tree
    let dry := Program.run m config.inRehearsal here tree
    (real.exit = 0 →
      dry.exit = 0 ∧ announced dry.events = (announced real.events).map Message.rehearsed) ∧
    ∀ site source entry staged w v,
      (Volume.stage config.inEarnest site source entry w).1 = .ok staged →
        (Volume.stage config.inRehearsal site source entry v).1 = .ok staged := by
  intro real dry
  constructor
  · intro hexit
    obtain ⟨root, -, hroot⟩ := Program.exists_spells_root tree here
    obtain ⟨w, hwhole⟩ := Program.exists_of_exit_eq_zero hexit
    have hreal : real = { exit := 0, tree := w.tree, events := w.events } :=
      Program.complete_of_ok hwhole
    have foretold : Foretold tree (· = tree) { tree } { tree } := ⟨rfl, rfl, rfl⟩
    have htree : (Program.whole config.inEarnest (Program.site tree here)
        (m.executor config.inEarnest (Program.site tree here)) { tree }).2.tree = real.tree := by
      rw [hwhole, hreal]
    obtain ⟨v, hwhole', done⟩ := tracks_whole undisturbed.linkless hroot undisturbed.boot
      (fun volume => undisturbed.apart root volume hroot) undisturbed.quiet hclear _ _ _ _
      ⟨foretold, htree⟩ hwhole
    have hdry : dry = { exit := 0, tree := v.tree, events := v.events } :=
      Program.complete_of_ok hwhole'
    rw [hdry, hreal]
    exact ⟨rfl, done.told⟩
  · intro site source entry staged w v h
    have hstaged : Volume.stage config.inEarnest site source entry w =
        (.ok staged, (Volume.stage config.inEarnest site source entry w).2) := Prod.ext h rfl
    obtain ⟨rfl, -⟩ := told_of_stage rfl rfl hstaged
    rw [stage_of_dryRun rfl]
    rfl

namespace Build.Twins

/-- A machine on which every program ends at once and changes nothing. -/
def idleMachine (searchPath : String) : Machine where
  searchPath := Utf8.encode searchPath
  home := .ofString "/"
  programs := ⟨fun _ _ _ _ tree => .ok { tree }⟩

lemma idleMachine_quiet (searchPath : String) : (idleMachine searchPath).Quiet := by
  rintro path program argv dir tree run ⟨⟩
  rfl

lemma site_eq (t : FileTree) : Program.site t [] = site := by
  have hancestors : (Place.path []).ancestors = [Place.path []] := by decide
  rw [Program.site, projectRoot, hancestors, List.find?_singleton]
  split <;> rfl

lemma undisturbed {config : Config} {t : FileTree} {volume : Place} (searchPath : String)
    (ht : t.Linkless) (hboot : config.boot.Normal)
    (hvolume : (Volume.root config site).Spells volume) (hapart : Apart volume sourcesPlace) :
    Undisturbed (idleMachine searchPath) config [] t where
  quiet := idleMachine_quiet searchPath
  linkless := ht
  boot := hboot
  apart root volume' hroot' hvolume' := by
    rw [site_eq] at hroot' hvolume'
    rw [hroot'.unique orderly.rooted, hvolume'.unique hvolume]
    exact hapart

def dirsAndPrograms (dirs programs : List String) : List (Place × Entry) :=
  dirs.map (fun path => (place path, .dir)) ++ programs.map fun path => (place path, .file [] true)

/-- A tree with some more directories and programs. -/
def planted (dirs programs : List String) (t : FileTree) : FileTree :=
  (dirsAndPrograms dirs programs).foldl (fun t entry => t.put entry.1 entry.2) t

lemma linkless_planted {t : FileTree} (ht : t.Linkless) (dirs programs : List String) :
    (planted dirs programs t).Linkless := by
  refine linkless_foldl ht fun entry hentry => ?_
  rw [dirsAndPrograms, List.mem_append, List.mem_map, List.mem_map] at hentry
  obtain ⟨path, -, rfl⟩ | ⟨path, -, rfl⟩ := hentry
  · exact nofun
  · exact nofun

/-- The twins and their artifacts, with both tools. -/
def equipped : FileTree :=
  planted ["pkg/boot", "pkg/kernel", "tools", "bin"] ["tools/cargo", "bin/qemu-system-x86_64"]
    ready.tree

lemma linkless_equipped : equipped.Linkless := linkless_planted steady.linkless _ _

def running : Config := { task := .run }

def ran : Program.Completion :=
  Program.run (idleMachine "/bin:/tools") running.inEarnest [] equipped

def rehearsed : Program.Completion :=
  Program.run (idleMachine "/bin:/tools") running.inRehearsal [] equipped

lemma ran_evaluated :
    ran.exit = 0 ∧
    (∀ p ∈ SearchPath.candidates (idleMachine "/bin:/tools").searchPath (.ofString "/")
        (.ofString hypervisor),
      equipped.ClearOf ran.tree (place "esp") [] p) ∧
    (Volume.stage running.inEarnest site (Component.kernel running).artifact
      (Component.kernel running).entry { tree := equipped }).1.toOption =
        some (.ofString "/esp/KERNEL.ELF") := by
  decide +kernel

end Build.Twins

open Build in
/-- The twins are built and booted. -/
theorem dry_run_foretells_twins :
    (Undisturbed (Twins.idleMachine "/bin:/tools") Twins.running [] Twins.equipped ∧
      ∀ tool ∈ Twins.running.task.lateTool?, ∀ volume,
        (Volume.root Twins.running (Program.site Twins.equipped [])).Spells volume →
          ∀ p ∈ SearchPath.candidates (Twins.idleMachine "/bin:/tools").searchPath (.ofString "/")
              (.ofString tool),
            Twins.equipped.ClearOf Twins.ran.tree volume [] p) ∧
    (Twins.ran.exit = 0 ∧ Twins.rehearsed.exit = 0 ∧
      announced Twins.rehearsed.events = (announced Twins.ran.events).map Message.rehearsed) ∧
    let kernel := Component.kernel Twins.running
    (Volume.stage Twins.running.inEarnest Twins.site kernel.artifact kernel.entry
      { tree := Twins.equipped }).1 = .ok (.ofString "/esp/KERNEL.ELF") ∧
    (Volume.stage Twins.running.inRehearsal Twins.site kernel.artifact kernel.entry
      { tree := .empty }).1 = .ok (.ofString "/esp/KERNEL.ELF") := by
  have hvolume : (Volume.root Twins.running Twins.site).Spells (Twins.place "esp") :=
    ⟨by decide, by decide⟩
  have undisturbed : Undisturbed (Twins.idleMachine "/bin:/tools") Twins.running []
      Twins.equipped :=
    Twins.undisturbed _ Twins.linkless_equipped Twins.orderly.boot hvolume
      ⟨by decide, by decide⟩
  have hclear : ∀ tool ∈ Twins.running.task.lateTool?, ∀ volume,
      (Volume.root Twins.running (Program.site Twins.equipped [])).Spells volume →
        ∀ p ∈ SearchPath.candidates (Twins.idleMachine "/bin:/tools").searchPath (.ofString "/")
            (.ofString tool),
          Twins.equipped.ClearOf Twins.ran.tree volume [] p := by
    rintro _ ⟨⟩ volume hspells
    rw [Twins.site_eq] at hspells
    rw [hspells.unique hvolume]
    exact Twins.ran_evaluated.2.1
  have hstaged := Twins.eq_ok_of_toOption Twins.ran_evaluated.2.2
  obtain ⟨foretells, stages⟩ := dry_run_foretells undisturbed hclear
  exact ⟨⟨undisturbed, hclear⟩, ⟨Twins.ran_evaluated.1, foretells Twins.ran_evaluated.1⟩, hstaged,
    stages _ _ _ _ _ _ hstaged⟩

/-- A directory of the search path is a place or lies below it. -/
def Machine.SearchesBelow (m : Machine) (t : FileTree) (here volume : Place) : Prop :=
  ∃ dir ∈ SearchPath.dirs m.searchPath,
    ∃ found ∈ (t.find here (SearchPath.expandHome m.home dir)).toOption, volume <+: found.1

instance (m : Machine) (t : FileTree) (here volume : Place) :
    Decidable (m.SearchesBelow t here volume) :=
  inferInstanceAs (Decidable (∃ _ ∈ _, ∃ _ ∈ _, _))

namespace Build.Twins

/-- The volume is to be made in a directory that is not there yet. -/
def newcomer : Config := { task := .run, boot := .ofString "out/esp" }

/-- The volume that is to be removed is a program. -/
def mistaken : Config := { task := .clean, boot := .ofString "cargo" }

def crowded : FileTree := planted ["tools"] ["cargo", "tools/cargo"] .empty

def misled : Program.Completion :=
  Program.run (idleMachine "/out/../bin:/tools") newcomer.inEarnest [] equipped

def misleading : Program.Completion :=
  Program.run (idleMachine "/out/../bin:/tools") newcomer.inRehearsal [] equipped

lemma misled_evaluated :
    ¬(idleMachine "/out/../bin:/tools").SearchesBelow equipped [] (place "out/esp") ∧
    ¬(idleMachine "/out/../bin:/tools").SearchesBelow misled.tree [] (place "out/esp") ∧
    misled.exit = 0 ∧ misleading.exit = 1 := by
  decide +kernel

def deprived : Program.Completion :=
  Program.run (idleMachine "/:/tools") mistaken.inEarnest [] crowded

def depriving : Program.Completion :=
  Program.run (idleMachine "/:/tools") mistaken.inRehearsal [] crowded

lemma deprived_evaluated :
    ¬(idleMachine "/:/tools").SearchesBelow crowded [] (place "cargo") ∧
    ¬(idleMachine "/:/tools").SearchesBelow deprived.tree [] (place "cargo") ∧
    deprived.exit = 0 ∧ depriving.exit = 0 ∧
    announced depriving.events ≠ (announced deprived.events).map Message.rehearsed := by
  decide +kernel

end Build.Twins

open Build in
/-- A dry run may tell of something else although no directory of the search path is on the volume.
The hypervisor is found only on the way through a directory that the run makes. The toolchain is
found first in the place of the volume, as long as that was not removed. -/
theorem dry_run_misleads :
    (Undisturbed (Twins.idleMachine "/out/../bin:/tools") Twins.newcomer [] Twins.equipped ∧
      (∀ volume, (Volume.root Twins.newcomer (Program.site Twins.equipped [])).Spells volume →
        ¬(Twins.idleMachine "/out/../bin:/tools").SearchesBelow Twins.equipped [] volume ∧
        ¬(Twins.idleMachine "/out/../bin:/tools").SearchesBelow Twins.misled.tree [] volume) ∧
      Twins.misled.exit = 0 ∧ Twins.misleading.exit = 1) ∧
    (Undisturbed (Twins.idleMachine "/:/tools") Twins.mistaken [] Twins.crowded ∧
      (∀ volume, (Volume.root Twins.mistaken (Program.site Twins.crowded [])).Spells volume →
        ¬(Twins.idleMachine "/:/tools").SearchesBelow Twins.crowded [] volume ∧
        ¬(Twins.idleMachine "/:/tools").SearchesBelow Twins.deprived.tree [] volume) ∧
      Twins.deprived.exit = 0 ∧ Twins.depriving.exit = 0 ∧
      announced Twins.depriving.events ≠
        (announced Twins.deprived.events).map Message.rehearsed) := by
  have hnewcomer : (Volume.root Twins.newcomer Twins.site).Spells (Twins.place "out/esp") :=
    ⟨by decide, by decide⟩
  have hmistaken : (Volume.root Twins.mistaken Twins.site).Spells (Twins.place "cargo") :=
    ⟨by decide, by decide⟩
  have hlinkless : Twins.crowded.Linkless :=
    Twins.linkless_planted (fun q target hq => by cases q <;> cases hq) _ _
  have hboot : Twins.newcomer.boot.Normal :=
    @Path.normal_of_components _ (["out", "esp"].map Utf8.encode) (by decide)
  refine ⟨⟨Twins.undisturbed _ Twins.linkless_equipped hboot hnewcomer ⟨by decide, by decide⟩,
      fun volume hvolume => ?_, Twins.misled_evaluated.2.2⟩,
    Twins.undisturbed _ hlinkless (Twins.normal_of_name (by decide)) hmistaken
      ⟨by decide, by decide⟩, fun volume hvolume => ?_, Twins.deprived_evaluated.2.2⟩
  · rw [Twins.site_eq] at hvolume
    rw [hvolume.unique hnewcomer]
    exact ⟨Twins.misled_evaluated.1, Twins.misled_evaluated.2.1⟩
  · rw [Twins.site_eq] at hvolume
    rw [hvolume.unique hmistaken]
    exact ⟨Twins.deprived_evaluated.1, Twins.deprived_evaluated.2.1⟩

end BootVolume
