import BootVolume.Proofs.DryRun
import BootVolume.Proofs.Retry

/-!
# Where calls run

A task that succeeds hands over the calls of its plan and no others, each for a directory of the
sources. What there is to visit is looked for at different moments: by linting at the start, by a
build after it has staged the fixed components. Both find the same, and so they visit the same
directories in the same order (`lint_visits_built`).
-/

namespace BootVolume

namespace Job

variable {α β : Type} {invs more : List Invocation}

/-- Whenever it succeeds, the job hands over these invocations, in this order. -/
def Calls (job : Job α) (invs : List Invocation) : Prop :=
  ∀ ⦃w v a⦄, job w = (.ok a, v) → v.calls = w.calls ++ invs

lemma calls_of_keeps {job : Job α} (h : Keeps World.calls job) : Calls job [] := by
  intro w v a hok
  simpa [hok] using h w

lemma calls_bind {first : Job α} {second : α → Job β} (hfirst : Calls first invs)
    (hsecond : ∀ {w v a}, first w = (.ok a, v) → Calls (second a) more) :
    Calls (first >>= second) (invs ++ more) := by
  intro w v b hok
  obtain ⟨a, u, hu, hv⟩ := exists_of_bind_ok hok
  rw [hsecond hu hv, hfirst hu, List.append_assoc]

lemma calls_after {first : Job α} {second : α → Job β} (hfirst : Keeps World.calls first)
    (hsecond : ∀ {w v a}, first w = (.ok a, v) → Calls (second a) more) :
    Calls (first >>= second) more :=
  calls_bind (calls_of_keeps hfirst) hsecond

lemma calls_run (executor : Executor) (inv : Invocation) : Calls (executor.run inv) [inv] := by
  intro w v a hok
  rw [Executor.run_apply] at hok
  exact (congrArg World.calls (Prod.mk.inj hok).2).symm

lemma calls_announced {executor : Executor} {inv : Invocation} {rest : Unit → Job β}
    (hrest : Calls (rest ()) more) (level : Level) (step content : String) :
    Calls (say level step content >>= fun _ => executor.run inv >>= rest) (inv :: more) :=
  calls_after (fun _ => rfl) fun _ => calls_bind (calls_run executor inv) fun _ => hrest

end Job

open FileTree Layout Job

namespace Build

variable {config : Config} {site : Site} {executor : Executor} {toolchain : Path} {w v : World}
  {root : Place} {dirs : List String}

lemma calls_bootloader :
    Calls (bootloader config site executor toolchain)
      [.compile toolchain .release (.ofString bootloaderSource)] := by
  have law := keeps_calls_law
  refine calls_announced (calls_of_keeps ?_) _ _ _
  refine law.bind (law.stage _ _ _ _) fun _ => law.bind (law.ask _) fun present => ?_
  exact law.ite (law.bind (law.stage _ _ _ _) fun _ => law.pure ()) (law.detail _ _ _)

lemma calls_kernel :
    Calls (kernel config site executor toolchain)
      [.compile toolchain config.profile (.ofString kernelSource)] := by
  have law := keeps_calls_law
  exact calls_announced (calls_of_keeps (law.bind (law.stage _ _ _ _) fun _ => law.pure ())) _ _ _

lemma calls_found :
    Calls (found config site executor toolchain)
      [.compile toolchain .release (.ofString bootloaderSource),
        .compile toolchain config.profile (.ofString kernelSource)] :=
  calls_bind calls_bootloader fun _ =>
    calls_bind calls_kernel fun _ => calls_of_keeps (keeps_calls_law.discover site)

/-- Each application is compiled in the directory that it was found in. -/
lemma calls_appsIn (dirs : List String) :
    Calls (appsIn config site executor toolchain dirs)
      (dirs.map fun dir => .compile toolchain config.profile (appSource dir)) := by
  have law := keeps_calls_law
  induction dirs with
  | nil => exact calls_of_keeps (law.pure ())
  | cons dir dirs ih =>
    refine calls_after (law.load site dir config.manifestScan) fun {_ _ app} loaded => ?_
    obtain rfl := load_dir loaded
    have happ : Calls (Build.app config site executor toolchain app)
        [.compile toolchain config.profile app.source] :=
      calls_announced (calls_of_keeps (law.bind (law.stage _ _ _ _) fun _ => law.pure ())) _ _ _
    exact calls_bind happ fun _ => ih

/-- Before it turns to the applications, a build has changed nothing among the sources. -/
lemma sameBelow_found (hw : w.tree.Linkless) (hroot : site.root.Spells root)
    (hboot : config.boot.Normal)
    (apart : ∀ volume, (Volume.root config site).Spells volume →
      Apart volume (root ++ sourcesPlace))
    (inert : ∀ calls inv tree, (executor.execute calls inv tree).tree = tree) (toolchain : Path) :
    SameBelow (root ++ sourcesPlace) w.tree (found config site executor toolchain w).2.tree ∧
      (found config site executor toolchain w).2.tree.Linkless := by
  cases hdry : config.dryRun with
  | true =>
    have hstage (source entry : Path) :
        Preserves (fun t => t = w.tree) (Volume.stage config site source entry) :=
      preserves_of_keeps fun u => congrArg Prod.fst (keeps_stage hdry source entry u)
    have hsame : (found config site executor toolchain w).2.tree = w.tree :=
      preserves_found (fun call => preserves_of_keeps (keeps_tree_run inert call)) (hstage _ _)
        (fun _ _ _ => hstage _ _) (hstage _ _) w rfl
    rw [hsame]
    exact ⟨fun _ _ => rfl, hw⟩
  | false =>
    have receives := receives_found hdry hw hroot hboot inert toolchain []
    refine ⟨receives.sameBelow ?_, receives.linkless hw⟩
    rintro δ ⟨volume, p, hvolume, -, hplace⟩
    rw [hplace]
    exact (apart volume hvolume).append p

/-- The calls of a build that succeeds: the boot loader, the kernel, and the applications that it
finds. -/
lemma calls_of_found (hok : all config site executor w = (.ok (), v)) :
    ∃ toolchain dirs u, executor.locate w.tree Layout.toolchain = .ok toolchain ∧
      found config site executor toolchain w = (.ok dirs, u) ∧
      v.calls = w.calls ++ Invocation.compile toolchain .release (.ofString bootloaderSource) ::
        (Path.ofString kernelSource :: dirs.map appSource).map
          (Invocation.compile toolchain config.profile) := by
  rw [all_eq] at hok
  cases hlocate : executor.locate w.tree Layout.toolchain with
  | error failure =>
    rw [Job.find_bind_of_error hlocate] at hok
    cases hok
  | ok toolchain =>
    rw [Job.find_bind_of_ok hlocate] at hok
    obtain ⟨dirs, u, hfound, happs⟩ := Job.exists_of_bind_ok hok
    refine ⟨toolchain, dirs, u, rfl, hfound, ?_⟩
    rw [calls_appsIn dirs happs, calls_found hfound]
    simp

/-- They are those that were there at the start. -/
lemma calls_of_all (hw : w.tree.Linkless) (hroot : site.root.Spells root)
    (hboot : config.boot.Normal)
    (apart : ∀ volume, (Volume.root config site).Spells volume →
      Apart volume (root ++ sourcesPlace))
    (inert : ∀ calls inv tree, (executor.execute calls inv tree).tree = tree)
    (hok : all config site executor w = (.ok (), v)) :
    ∃ toolchain dirs, executor.locate w.tree Layout.toolchain = .ok toolchain ∧
      (App.discover site w).1 = .ok dirs ∧
      v.calls = w.calls ++ Invocation.compile toolchain .release (.ofString bootloaderSource) ::
        (Path.ofString kernelSource :: dirs.map appSource).map
          (Invocation.compile toolchain config.profile) := by
  obtain ⟨toolchain, dirs, u, hlocate, hfound, hcalls⟩ := calls_of_found hok
  obtain ⟨hsame, hu⟩ := sameBelow_found hw hroot hboot apart inert toolchain
  rw [hfound] at hsame hu
  exact ⟨toolchain, dirs, hlocate, discover_of_found hfound hsame hw hu hroot, hcalls⟩

end Build

namespace Task

variable {site : Site} {executor : Executor} {toolchain : Path} {w v : World}

/-- The toolchain's request to format everything, in no directory of its own. -/
def formatting (toolchain : Path) : Invocation :=
  (Invocation.new toolchain.bytes).addArgs (["+nightly", "fmt", "--all"].map Utf8.encode)

/-- What linting does before it looks for the applications. -/
def checkFixed (executor : Executor) (toolchain : Path) : Job Unit := do
  Job.say .info "Running" "cargo fmt on root..."
  executor.run (formatting toolchain)
  Job.say .info "Running" "clippy on kernel..."
  executor.run (check toolchain (.ofString kernelSource))

lemma lint_eq (site : Site) (executor : Executor) :
    lint site executor = executor.find Layout.toolchain >>= fun toolchain =>
      checkFixed executor toolchain >>= fun _ =>
        App.discover site >>= checkApps executor toolchain := by
  unfold lint checkFixed
  simp only [bind_assoc]
  rfl

lemma calls_checkFixed :
    Calls (checkFixed executor toolchain)
      [formatting toolchain, check toolchain (.ofString kernelSource)] :=
  calls_announced (calls_after (fun _ => rfl) fun _ => calls_run _ _) _ _ _

lemma calls_checkApps (dirs : List String) :
    Calls (checkApps executor toolchain dirs)
      (dirs.map fun dir => check toolchain (appSource dir)) := by
  induction dirs with
  | nil => exact calls_of_keeps (keeps_calls_law.pure ())
  | cons dir dirs ih => exact calls_announced ih _ _ _

section Linting

variable (inert : ∀ calls inv tree, (executor.execute calls inv tree).tree = tree)
include inert

lemma keeps_tree_checkFixed (toolchain : Path) :
    Keeps World.tree (checkFixed executor toolchain) := by
  have law := overlooks_tree.law
  have hrun := Build.keeps_tree_run inert
  refine law.bind (law.say _ _ (by decide)) fun _ => law.bind (hrun _) fun _ => ?_
  exact law.bind (law.say _ _ (by decide)) fun _ => hrun _

lemma keeps_tree_lint : Keeps World.tree (lint site executor) := by
  have law := overlooks_tree.law
  have hcheck (toolchain : Path) (dirs : List String) :
      Keeps World.tree (checkApps executor toolchain dirs) := by
    induction dirs with
    | nil => exact law.pure ()
    | cons dir dirs ih =>
      refine law.bind (law.say _ _ (by decide)) fun _ => ?_
      exact law.bind (Build.keeps_tree_run inert _) fun _ => ih
  rw [lint_eq]
  refine law.bind (fun _ => rfl) fun toolchain => ?_
  refine law.bind (keeps_tree_checkFixed inert toolchain) fun _ => ?_
  exact law.bind (law.discover site) fun dirs => hcheck toolchain dirs

/-- The calls of a lint that succeeds: the formatting, and the checks of the kernel and of the
applications that are there. -/
lemma calls_of_lint (hok : lint site executor w = (.ok (), v)) :
    ∃ toolchain dirs, executor.locate w.tree Layout.toolchain = .ok toolchain ∧
      (App.discover site w).1 = .ok dirs ∧
      v.calls = w.calls ++ formatting toolchain ::
        (Path.ofString kernelSource :: dirs.map appSource).map (check toolchain) := by
  rw [lint_eq] at hok
  cases hlocate : executor.locate w.tree Layout.toolchain with
  | error failure =>
    rw [Job.find_bind_of_error hlocate] at hok
    cases hok
  | ok toolchain =>
    rw [Job.find_bind_of_ok hlocate] at hok
    obtain ⟨⟨⟩, u, hfixed, hok⟩ := Job.exists_of_bind_ok hok
    obtain ⟨dirs, u', hdirs, happs⟩ := Job.exists_of_bind_ok hok
    have htree : u.tree = w.tree := by
      simpa [hfixed] using keeps_tree_checkFixed inert toolchain w
    have hcalls : u'.calls = u.calls := by
      simpa [hdirs] using keeps_calls_law.discover site u
    refine ⟨toolchain, dirs, rfl, ?_, ?_⟩
    · have hfound := congrArg Prod.fst hdirs
      rw [App.discover_apply] at hfound ⊢
      rwa [htree] at hfound
    · rw [calls_checkApps dirs happs, hcalls, calls_checkFixed hfixed]
      simp

end Linting
end Task

/-- Linting changes no file. If it succeeds and a build does, then but for their first calls, the
formatting and the boot loader's, their calls run in the same directories one after the other: that
of the kernel and those of the applications. All of them run the same program. -/
theorem lint_visits_built {config : Config} {site : Site} {linter builder : Executor} {w : World}
    {root : Place} (hlinkless : w.tree.Linkless) (hroot : site.root.Spells root)
    (hboot : config.boot.Normal)
    (apart : ∀ volume, (Volume.root config site).Spells volume →
      Apart volume (root ++ sourcesPlace))
    (located : linter.locate w.tree Layout.toolchain = builder.locate w.tree Layout.toolchain)
    (inert : ∀ executor ∈ [linter, builder], ∀ calls inv tree,
      (executor.execute calls inv tree).tree = tree) :
    let linted := Task.lint site linter w
    let built := Build.all config site builder w
    linted.2.tree = w.tree ∧
      (linted.1 = .ok () → built.1 = .ok () →
        ∃ (toolchain : Path) (dirs : List String) (formatting loader : Invocation)
          (checks builds : List Invocation),
          linter.locate w.tree Layout.toolchain = .ok toolchain ∧
          (App.discover site w).1 = .ok dirs ∧
          linted.2.calls = w.calls ++ formatting :: checks ∧
          built.2.calls = w.calls ++ loader :: builds ∧
          formatting.workdir = none ∧ loader.workdir = some (.ofString bootloaderSource) ∧
          checks.map (·.workdir) = builds.map (·.workdir) ∧
          builds.map (·.workdir) = (Path.ofString kernelSource :: dirs.map appSource).map some ∧
          ∀ inv ∈ formatting :: checks ++ loader :: builds, inv.program = toolchain.bytes) := by
  intro linted built
  obtain ⟨inert₁, inert₂⟩ : (∀ calls inv tree, (linter.execute calls inv tree).tree = tree) ∧
      ∀ calls inv tree, (builder.execute calls inv tree).tree = tree := by simpa using inert
  refine ⟨Task.keeps_tree_lint inert₁ w, fun hlinted hbuilt => ?_⟩
  obtain ⟨toolchain, dirs, hlocate, hdirs, hcalls⟩ :=
    Task.calls_of_lint inert₁ (eq_of_ok hlinted)
  obtain ⟨toolchain', dirs', hlocate', hdirs', hcalls'⟩ :=
    Build.calls_of_all hlinkless hroot hboot apart inert₂ (eq_of_ok hbuilt)
  obtain rfl : toolchain = toolchain' :=
    Except.ok.inj (hlocate.symm.trans (located.trans hlocate'))
  obtain rfl : dirs = dirs' := Except.ok.inj (hdirs.symm.trans hdirs')
  refine ⟨toolchain, dirs, _, _, _, _, hlocate, hdirs, hcalls, hcalls', rfl, rfl, ?_, ?_, ?_⟩
  · rw [List.map_map, List.map_map]
    rfl
  · rw [List.map_map]
    rfl
  · intro inv hinv
    rw [List.mem_append, List.mem_cons, List.mem_cons, List.mem_map, List.mem_map] at hinv
    rcases hinv with (rfl | ⟨dir, -, rfl⟩) | rfl | ⟨dir, -, rfl⟩ <;> rfl

namespace Build.Twins

lemma linted_evaluated :
    let linted := Task.lint site idle ready
    (linted.1.toOption, linted.2.calls.map fun inv => inv.workdir.map (·.bytes)) =
      (some (), none :: ["pkg/kernel", "pkg/app/a", "pkg/app/b"].map (some ∘ Utf8.encode)) := by
  decide +kernel

lemma linted_ok : (Task.lint site idle ready).1 = .ok () :=
  eq_ok_of_toOption (congrArg Prod.fst linted_evaluated)

lemma built_ok : (all {} site idle ready).1 = .ok () :=
  eq_ok_of_toOption ready_evaluated.2.2

end Build.Twins

/-- Linting and building the twins. -/
theorem lint_visits_built_twins :
    let linted := Task.lint Build.Twins.site Build.Twins.idle Build.Twins.ready
    let built := Build.all {} Build.Twins.site Build.Twins.idle Build.Twins.ready
    (Build.Twins.ready.tree.Linkless ∧ Build.Twins.site.root.Spells [] ∧
      (Config.boot {}).Normal ∧
      (∀ volume, (Volume.root {} Build.Twins.site).Spells volume → Apart volume sourcesPlace) ∧
      ∀ calls inv tree, (Build.Twins.idle.execute calls inv tree).tree = tree) ∧
    linted.1 = .ok () ∧ built.1 = .ok () ∧ linted.2.tree = Build.Twins.ready.tree ∧
    built.2.calls.tail.map (fun inv => inv.workdir.map (·.bytes)) =
      ["pkg/kernel", "pkg/app/a", "pkg/app/b"].map (some ∘ Utf8.encode) := by
  have steady := Build.Twins.steady
  have apart (volume : Place) (hvolume : (Volume.root {} Build.Twins.site).Spells volume) :
      Apart volume sourcesPlace := steady.apart volume hvolume sourcesPlace (by simp)
  have located : Build.Twins.idle.locate Build.Twins.ready.tree Layout.toolchain =
      Build.Twins.idle.locate Build.Twins.ready.tree Layout.toolchain := rfl
  have inert : ∀ executor ∈ [Build.Twins.idle, Build.Twins.idle], ∀ calls inv tree,
      (executor.execute calls inv tree).tree = tree := by simp [Build.Twins.idle_inert]
  obtain ⟨htree, visits⟩ :=
    lint_visits_built steady.linkless steady.rooted steady.boot apart located inert
  obtain ⟨toolchain, dirs, formatting, loader, checks, builds, -, -, hcalls, hcalls', -, -, hsame,
    -, -⟩ := visits Build.Twins.linted_ok Build.Twins.built_ok
  dsimp only
  refine ⟨⟨steady.linkless, steady.rooted, steady.boot, apart, Build.Twins.idle_inert⟩,
    Build.Twins.linted_ok, Build.Twins.built_ok, htree, ?_⟩
  have hdirs := congrArg Prod.snd Build.Twins.linted_evaluated
  dsimp only at hdirs
  have hchecks : checks.map (fun inv => inv.workdir.map (·.bytes)) =
      ["pkg/kernel", "pkg/app/a", "pkg/app/b"].map (some ∘ Utf8.encode) := by
    rw [hcalls, List.map_append, List.map_cons] at hdirs
    exact (List.cons.inj hdirs).2
  have hbuilds := congrArg (List.map (Option.map Path.bytes)) hsame
  rw [List.map_map, List.map_map] at hbuilds
  rw [hcalls']
  exact hbuilds.symm.trans hchecks

end BootVolume
