import BootVolume.Proofs.Job
import BootVolume.Program

/-!
# Laws of tasks

A law that holds of what tasks are made of, of staging, of removing the volume and of handing
invocations over, holds of every task, and so of the whole program.
-/

namespace BootVolume

/-- What is left to be done once the volume is removed. -/
def Task.sweep (executor : Executor) : Job Unit := do
  let toolchain ← executor.find Layout.toolchain
  Job.say .info "Running" "cargo clean..."
  executor.run ((Invocation.new toolchain.bytes).arg (Utf8.encode "clean"))

lemma Task.removeOutput_eq (config : Config) (site : Site) (executor : Executor) :
    Task.removeOutput config site executor = (do
      if ← Volume.removeAll config site then
        Job.say .info "Removed" (Volume.root config site).display
      Task.sweep executor) := rfl

/-- A law that holds of all that a task does on the volume and over an executor. -/
structure TaskLaw (config : Config) (site : Site) (executor : Executor)
    (holds : (α : Type) → Job α → Prop) : Prop extends Job.Law holds where
  find (tool : String) : holds Path (executor.find tool)
  run (inv : Invocation) : holds Unit (executor.run inv)
  stage (source rel : Path) : holds Path (Volume.stage config site source rel)
  removeAll : holds Bool (Volume.removeAll config site)

namespace TaskLaw

variable {config : Config} {site : Site} {executor : Executor} {holds : (α : Type) → Job α → Prop}
  (law : TaskLaw config site executor holds) (toolchain : Path)
include law

lemma bootloader : holds Unit (Build.bootloader config site executor toolchain) := by
  unfold Build.bootloader
  refine law.bind (law.say _ _ (by decide)) fun _ => law.bind (law.run _) fun _ => ?_
  refine law.bind (law.stage _ _) fun _ => law.bind (law.ask _) fun present => ?_
  exact law.ite (law.bind (law.stage _ _) fun _ => law.pure ()) (law.detail _ _ _)

lemma kernel : holds Unit (Build.kernel config site executor toolchain) := by
  unfold Build.kernel
  refine law.bind (law.say _ _ (by decide)) fun _ => law.bind (law.run _) fun _ => ?_
  exact law.bind (law.stage _ _) fun _ => law.pure ()

lemma app (loaded : App) : holds Unit (Build.app config site executor toolchain loaded) := by
  unfold Build.app
  refine law.bind (law.say _ _ (by decide)) fun _ => law.bind (law.run _) fun _ => ?_
  exact law.bind (law.stage _ _) fun _ => law.pure ()

lemma appsIn (dirs : List String) :
    holds Unit (Build.appsIn config site executor toolchain dirs) := by
  induction dirs with
  | nil => exact law.pure ()
  | cons dir dirs ih =>
    unfold Build.appsIn
    exact law.bind (law.load _ _ _) fun loaded => law.bind (law.app _ _) fun _ => ih

lemma apps : holds Unit (Build.apps config site executor toolchain) := by
  unfold Build.apps
  exact law.bind (law.discover _) fun dirs => law.appsIn _ _

lemma build : holds Unit (Build.all config site executor) := by
  unfold Build.all
  refine law.bind (law.find _) fun toolchain => law.bind (law.bootloader _) fun _ => ?_
  exact law.bind (law.kernel _) fun _ => law.apps _

lemma sweep : holds Unit (Task.sweep executor) := by
  unfold Task.sweep
  refine law.bind (law.find _) fun toolchain => law.bind (law.say _ _ (by decide)) fun _ => ?_
  exact law.run _

lemma removeOutput : holds Unit (Task.removeOutput config site executor) := by
  rw [Task.removeOutput_eq]
  refine law.bind law.removeAll fun removed => ?_
  exact law.ite (law.bind (law.say _ _ (by decide)) fun _ => law.sweep) law.sweep

lemma checkApps (dirs : List String) : holds Unit (Task.checkApps executor toolchain dirs) := by
  induction dirs with
  | nil => exact law.pure ()
  | cons dir dirs ih =>
    unfold Task.checkApps
    exact law.bind (law.say _ _ (by decide)) fun _ => law.bind (law.run _) fun _ => ih

lemma lint : holds Unit (Task.lint site executor) := by
  unfold Task.lint
  refine law.bind (law.find _) fun toolchain => law.bind (law.say _ _ (by decide)) fun _ => ?_
  refine law.bind (law.run _) fun _ => law.bind (law.say _ _ (by decide)) fun _ => ?_
  exact law.bind (law.run _) fun _ => law.bind (law.discover _) fun dirs => law.checkApps _ _

lemma launch : holds Unit (Hypervisor.launch config executor) := by
  unfold Hypervisor.launch
  exact law.bind (law.find _) fun hypervisor => law.run _

end TaskLaw

namespace Program

/-- Boots the volume, whether there is one or not. -/
def boot (config : Config) (executor : Executor) : Stage := do
  always (Job.say .info "Launching" "qemu...")
  within "launch failed" (Hypervisor.launch config executor)

lemma launch_eq (config : Config) (site : Site) (executor : Executor) :
    launch config site executor = (do
      let root := Volume.root config site
      let present ← fun w => (.ok (w.tree.exists? site.here root), w)
      if !config.dryRun && !present then
        always (Job.say .warning "Launch"
          (root.display ++ " does not exist, run `ysos build` first"))
      boot config executor) := rfl

lemma snd_within (context : String) (job : Job Unit) (w : World) :
    (within context job w).2 = (job w).2 := by
  rw [within]
  split <;> simp_all

lemma keeps_within {γ : Type} {view : World → γ} {job : Job Unit} (h : Job.Keeps view job)
    (context : String) : Job.Keeps view (within context job) := by
  intro w
  rw [snd_within]
  exact h w

end Program

/-- A law of tasks with the law that then holds of what the program makes of them. -/
structure ProgramLaw (config : Config) (site : Site) (executor : Executor)
    (holds : (α : Type) → Job α → Prop)
    (staged : (α : Type) → ExceptT Report (StateM World) α → Prop) : Prop
    extends TaskLaw config site executor holds where
  within (context : String) (job : Job Unit) :
    holds Unit job → staged Unit (Program.within context job)
  sequence {α β : Type} {first : ExceptT Report (StateM World) α}
    {second : α → ExceptT Report (StateM World) β} :
    staged α first → (∀ a, staged β (second a)) → staged β (first >>= second)
  look {α : Type} (question : FileTree → α) : staged α fun w => (.ok (question w.tree), w)

namespace ProgramLaw

variable {config : Config} {site : Site} {executor : Executor} {holds : (α : Type) → Job α → Prop}
  {staged : (α : Type) → ExceptT Report (StateM World) α → Prop}
  (law : ProgramLaw config site executor holds staged)
include law

lemma build : staged Unit (Program.build config site executor) := by
  unfold Program.build
  refine law.sequence (law.within _ _ (law.detail _ _ _)) fun _ => ?_
  refine law.sequence (law.within _ _ law.toTaskLaw.build) fun _ => ?_
  exact law.within _ _ (law.say _ _ (by decide))

lemma boot : staged Unit (Program.boot config executor) :=
  law.sequence (law.within _ _ (law.say _ _ (by decide))) fun _ =>
    law.within _ _ law.toTaskLaw.launch

lemma launch : staged Unit (Program.launch config site executor) := by
  rw [Program.launch_eq]
  refine law.sequence (law.look (·.exists? site.here (Volume.root config site))) fun present => ?_
  split
  · exact law.sequence (law.within _ _ (law.say _ _ (by decide))) fun _ => law.boot
  · exact law.boot

lemma task : staged Unit (Program.task config site executor) := by
  unfold Program.task
  split
  · exact law.build
  · exact law.within _ _ law.removeOutput
  · exact law.launch
  · exact law.sequence law.build fun _ => law.launch
  · exact law.within _ _ law.lint

lemma whole : staged Unit (Program.whole config site executor) :=
  law.sequence (law.within _ _ (law.detail _ _ _)) fun _ => law.task

end ProgramLaw
end BootVolume
