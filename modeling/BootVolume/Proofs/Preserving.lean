import BootVolume.Proofs.Plan

/-!
# What a build preserves

A property of the files that calls and deliveries preserve holds after every build, whatever comes
of it. A delivery needs to preserve it only where the build makes it: the boot configuration where
there is one, and an application as its manifest is read then.
-/

namespace BootVolume

section Preserving

variable {inv : FileTree → Prop} {α β : Type}

/-- Whatever comes of the job, what was true of the files still is. -/
def Preserves (inv : FileTree → Prop) (job : Job α) : Prop := ∀ w, inv w.tree → inv (job w).2.tree

lemma preserves_of_keeps {job : Job α} (h : Job.Keeps World.tree job) : Preserves inv job := by
  intro w hw
  rwa [h w]

lemma preserves_bind {first : Job α} {second : α → Job β} (hfirst : Preserves inv first)
    (hsecond : ∀ {w v a}, inv w.tree → first w = (.ok a, v) → Preserves inv (second a)) :
    Preserves inv (first >>= second) := by
  intro w hw
  have hinv := hfirst w hw
  rw [Job.bind_apply]
  rcases h : first w with ⟨failure | a, v⟩ <;> rw [h] at hinv
  · exact hinv
  · exact hsecond hw h v hinv

lemma preserves_law (inv : FileTree → Prop) : Job.Law fun _ job => Preserves inv job where
  pure a := preserves_of_keeps (Job.overlooks_tree.law.pure a)
  throw failure := preserves_of_keeps (Job.overlooks_tree.law.throw failure)
  bind hfirst hsecond := preserves_bind hfirst fun {_ _ a} _ _ => hsecond a
  ask question := preserves_of_keeps (Job.overlooks_tree.law.ask question)
  say step content h := preserves_of_keeps (Job.overlooks_tree.law.say step content h)
  query request question := preserves_of_keeps (Job.overlooks_tree.law.query request question)

end Preserving

namespace Build

variable {config : Config} {site : Site} {executor : Executor} {inv : FileTree → Prop}
  {toolchain : Path}

/-- What a build does before it turns to the applications that it finds then. -/
def found (config : Config) (site : Site) (executor : Executor) (toolchain : Path) :
    Job (List String) := do
  bootloader config site executor toolchain
  kernel config site executor toolchain
  App.discover site

lemma all_eq (config : Config) (site : Site) (executor : Executor) :
    all config site executor = executor.find Layout.toolchain >>= fun toolchain =>
      found config site executor toolchain >>= appsIn config site executor toolchain := by
  unfold all found apps
  simp only [bind_assoc]

/-- Calls that change nothing preserve everything. -/
lemma keeps_tree_run (inert : ∀ calls inv tree, (executor.execute calls inv tree).tree = tree)
    (inv : Invocation) : Job.Keeps World.tree (executor.run inv) := by
  intro w
  rw [Executor.run_apply]
  exact inert _ _ _

variable (hrun : ∀ call, Preserves inv (executor.run call))
include hrun

lemma preserves_found
    (hbootloader : Preserves inv
      (Volume.stage config site Component.bootloader.artifact Component.bootloader.entry))
    (hbootConfig : ∀ t, inv t →
      t.exists? site.here (site.path (.ofString Layout.bootConfigSource)) →
      Preserves inv (Volume.stage config site (.ofString Layout.bootConfigSource)
        (.ofString Layout.bootConfigEntry)))
    (hkernel : Preserves inv (Volume.stage config site (Component.kernel config).artifact
      (Component.kernel config).entry)) :
    Preserves inv (found config site executor toolchain) := by
  have law := preserves_law inv
  have bootConfig : Preserves inv (do
      if ← Job.ask (·.exists? site.here (site.path (.ofString Layout.bootConfigSource))) then
        let _ ← Volume.stage config site (.ofString Layout.bootConfigSource)
          (.ofString Layout.bootConfigEntry)
      else
        Job.detail config "Skipping" "no kernel boot.conf") := by
    intro w hw
    rw [Job.ask_bind]
    split
    · rename_i hpresent
      exact law.bind (hbootConfig w.tree hw hpresent) (fun _ => law.pure ()) w hw
    · exact law.detail _ _ _ w hw
  unfold found bootloader kernel
  refine law.bind (law.bind (law.say _ _ (by decide)) fun _ => law.bind (hrun _) fun _ => ?_)
    fun _ => law.bind (law.bind (law.say _ _ (by decide)) fun _ => ?_) fun _ => law.discover _
  · exact law.bind hbootloader fun _ => bootConfig
  · exact law.bind (hrun _) fun _ => law.bind hkernel fun _ => law.pure ()

lemma preserves_appsIn {dirs : List String}
    (happs : ∀ dir ∈ dirs, ∀ w app, inv w.tree →
      (App.load site dir config.manifestScan w).1 = .ok app →
        Preserves inv (Volume.stage config site (Component.app config dir app.package).artifact
          (Component.app config dir app.package).entry)) :
    Preserves inv (appsIn config site executor toolchain dirs) := by
  have law := preserves_law inv
  induction dirs with
  | nil => exact law.pure ()
  | cons dir dirs ih =>
    obtain ⟨happ, hrest⟩ := List.forall_mem_cons.1 happs
    unfold appsIn
    refine preserves_bind (law.load _ _ _) fun {w _ app} hw loaded => ?_
    have hstage := happ w app hw (by rw [loaded])
    obtain rfl := load_dir loaded
    unfold Build.app
    refine law.bind (law.bind (law.say _ _ (by decide)) fun _ => ?_) fun _ => ih hrest
    exact law.bind (hrun _) fun _ => law.bind hstage fun _ => law.pure ()

end Build
end BootVolume
