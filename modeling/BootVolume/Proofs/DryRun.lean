import BootVolume.Proofs.CommandLine
import BootVolume.Proofs.Task
import BootVolume.Rehearsal

/-!
# Dry runs

A dry run changes no file and starts no child, whatever it is asked for and however it ends
(`dry_run_is_inert`).
-/

namespace BootVolume

/-- The files, and the children that were started. -/
def World.effects (w : World) : FileTree × List Invocation :=
  (w.tree, w.events.filterMap Event.child?)

namespace Job

lemma overlooks_effects : Overlooks World.effects where
  said w message := by simp [World.effects, Event.child?]
  asked w request granted := by simp [record, World.effects, Event.child?]

end Job

section Inert

open Job

variable {config : Config} {site : Site} {find? : FileTree → String → Option Path}
  {children : Children} (hdry : config.dryRun = true)
include hdry

lemma keeps_stage (source rel : Path) :
    Keeps World.effects (Volume.stage config site source rel) := by
  have law := overlooks_effects.law
  unfold Volume.stage
  dsimp only
  rw [if_pos hdry]
  exact law.bind (law.detail _ _ _) fun _ => law.pure _

lemma keeps_removeAll : Keeps World.effects (Volume.removeAll config site) := by
  have law := overlooks_effects.law
  unfold Volume.removeAll
  dsimp only
  rw [if_pos hdry]
  refine law.bind (law.ask _) fun present => law.ite ?_ (law.pure _)
  exact law.bind (law.detail _ _ _) fun _ => law.pure _

omit hdry in
/-- A run has no other effects than what it does up to the line that reports a failure. -/
lemma effects_complete {executor : Executor} (tree : FileTree) :
    let done := Program.complete config site executor tree
    (done.tree, done.events.filterMap Event.child?) =
      (Program.whole config site executor { tree }).2.effects := by
  dsimp only
  rw [Program.complete]
  rcases Program.whole config site executor { tree } with ⟨report | _, w⟩
  · simp [World.effects, Event.child?]
  · rfl

lemma keeps_run (inv : Invocation) :
    Keeps World.effects (Executor.run (.starting config find? children) inv) := by
  intro w
  rw [Executor.run_apply]
  simp only [Executor.starting, if_pos hdry, World.effects, List.filterMap_append]
  split <;> simp [Event.child?]

/-- In a dry run nothing that a task does has an effect. -/
lemma inert_taskLaw :
    TaskLaw config site (.starting config find? children) fun _ => Keeps World.effects where
  toLaw := overlooks_effects.law
  find _ _ := rfl
  run := keeps_run hdry
  stage := keeps_stage hdry
  removeAll := keeps_removeAll hdry

lemma inert_programLaw :
    ProgramLaw config site (.starting config find? children) (fun _ => Keeps World.effects)
      fun _ => Keeps World.effects where
  toTaskLaw := inert_taskLaw hdry
  within context _ h := Program.keeps_within h context
  sequence := keeps_bind
  look _ _ := rfl

end Inert

/-! ## Operations -/

inductive Operation where
  | buildAll
  | buildBootloader (toolchain : Path)
  | buildKernel (toolchain : Path)
  | buildApps (toolchain : Path)
  | buildApp (toolchain : Path) (app : App)
  | stage (source rel : Path)
  | removeAll
  | clean
  | lint
  | launch

/-- The world that an operation leaves, whether it succeeds or fails. -/
def Operation.after (config : Config) (site : Site) (executor : Executor) (w : World) :
    Operation → World
  | buildAll => (Build.all config site executor w).2
  | buildBootloader toolchain => (Build.bootloader config site executor toolchain w).2
  | buildKernel toolchain => (Build.kernel config site executor toolchain w).2
  | buildApps toolchain => (Build.apps config site executor toolchain w).2
  | buildApp toolchain app => (Build.app config site executor toolchain app w).2
  | stage source rel => (Volume.stage config site source rel w).2
  | removeAll => (Volume.removeAll config site w).2
  | clean => (Task.removeOutput config site executor w).2
  | lint => (Task.lint site executor w).2
  | launch => (Hypervisor.launch config executor w).2

/-- A dry run that is asked for on the command line leaves the files as they are and starts no
child, whatever it is to do, where, and whether it succeeds. Nor does any sequence of operations
under a configuration for dry runs. -/
theorem dry_run_is_inert (site : Site) (find? : FileTree → String → Option Path)
    (children : Children) :
    (∀ args config, CommandLine.read args = .ok config →
      Utf8.encode "--dry-run" ∈ CommandLine.standing false args →
        ∀ tree, let done := Program.complete config site (.starting config find? children) tree
          done.tree = tree ∧ ∀ event ∈ done.events, event.child? = none) ∧
    ∀ config : Config, config.dryRun = true → ∀ (operations : List Operation) (w : World),
      (operations.foldl (Operation.after config site (.starting config find? children)) w).effects =
        w.effects := by
  constructor
  · intro args config hread hasked tree done
    have law : ProgramLaw config site (.starting config find? children) _ _ :=
      inert_programLaw (CommandLine.dryRun_of_read hread hasked)
    have kept := (effects_complete tree).trans (law.whole { tree })
    obtain ⟨htree, hchildren⟩ := Prod.mk.inj kept
    exact ⟨htree, List.filterMap_eq_nil_iff.1 hchildren⟩
  · intro config hdry operations w
    have law : TaskLaw config site (.starting config find? children) _ := inert_taskLaw hdry
    have step (w : World) (operation : Operation) :
        (operation.after config site (.starting config find? children) w).effects = w.effects := by
      cases operation with
      | buildAll => exact law.build w
      | buildBootloader toolchain => exact law.bootloader toolchain w
      | buildKernel toolchain => exact law.kernel toolchain w
      | buildApps toolchain => exact law.apps toolchain w
      | buildApp toolchain app => exact law.app toolchain app w
      | stage source rel => exact law.stage source rel w
      | removeAll => exact law.removeAll w
      | clean => exact law.removeOutput w
      | lint => exact law.lint w
      | launch => exact law.launch w
    induction operations generalizing w with
    | nil => rfl
    | cons operation rest ih => exact (ih _).trans (step w operation)

/-- Cleaning in earnest would remove the volume, and its child would leave no file at all. -/
theorem dry_run_is_inert_clean :
    let args := ["clean", "--dry-run"].map Utf8.encode
    let config : Config := { task := .clean, dryRun := true }
    let site : Site := { here := [], root := .ofString "/" }
    let find? : FileTree → String → Option Path := fun _ tool => some (.ofString tool)
    let children : Children := fun _ _ _ => .ok { tree := .empty }
    let tree := FileTree.empty.withDir [] (.ofString "/esp/EFI/BOOT")
    let done := Program.complete config site (.starting config find? children) tree
    let operations := [.clean, .buildAll, .stage (.ofString "a") (.ofString "b")]
    CommandLine.read args = .ok config ∧ Utf8.encode "--dry-run" ∈ CommandLine.standing false args ∧
      config.dryRun = true ∧ (done.tree = tree ∧ ∀ event ∈ done.events, event.child? = none) ∧
      (operations.foldl (Operation.after config site (.starting config find? children))
        { tree }).effects = (tree, []) := by
  intro args config site find? children tree done operations
  have hread : CommandLine.read args = .ok config := by rfl
  have hasked : Utf8.encode "--dry-run" ∈ CommandLine.standing false args := by decide
  have inert := dry_run_is_inert site find? children
  exact ⟨hread, hasked, rfl, inert.1 args config hread hasked tree, inert.2 config rfl operations _⟩

end BootVolume
