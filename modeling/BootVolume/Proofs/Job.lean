import Mathlib.Tactic.Lemma
import BootVolume.App
import BootVolume.Volume

/-!
# Running jobs

How the steps of a job act on a world, one after the other, and laws that hold of a job because they
hold of its steps.
-/

namespace BootVolume

variable {ε α β : Type}

namespace Job

lemma throw_apply (failure : ε) (w : World) :
    (throw failure : ExceptT ε (StateM World) α) w = (.error failure, w) := rfl

lemma eq_of_ok {job : ExceptT ε (StateM World) α} {w : World} {a : α} (h : (job w).1 = .ok a) :
    job w = (.ok a, (job w).2) := Prod.ext h rfl

lemma eq_of_error {job : ExceptT ε (StateM World) α} {w : World} {failure : ε}
    (h : (job w).1 = .error failure) : job w = (.error failure, (job w).2) := Prod.ext h rfl

/-- A second step acts on the world that the first one leaves, unless that failed. -/
lemma bind_apply (first : ExceptT ε (StateM World) α) (second : α → ExceptT ε (StateM World) β)
    (w : World) :
    (first >>= second) w =
      match first w with
      | (.ok a, v) => second a v
      | (.error failure, v) => (.error failure, v) := by
  change (match first w with | (result, v) => ExceptT.bindCont second result v) = _
  rcases first w with ⟨_ | _, _⟩ <;> rfl

lemma bind_of_ok {first : ExceptT ε (StateM World) α} {w v : World} {a : α}
    (h : first w = (.ok a, v)) (second : α → ExceptT ε (StateM World) β) :
    (first >>= second) w = second a v := by
  rw [bind_apply, h]

lemma bind_of_error {first : ExceptT ε (StateM World) α} {w v : World} {failure : ε}
    (h : first w = (.error failure, v)) (second : α → ExceptT ε (StateM World) β) :
    (first >>= second) w = (.error failure, v) := by
  rw [bind_apply, h]

lemma exists_of_bind_ok {first : ExceptT ε (StateM World) α}
    {second : α → ExceptT ε (StateM World) β} {w v : World} {b : β}
    (h : (first >>= second) w = (.ok b, v)) :
    ∃ a u, first w = (.ok a, u) ∧ second a u = (.ok b, v) := by
  rw [bind_apply] at h
  rcases hfirst : first w with ⟨failure | a, u⟩ <;> rw [hfirst] at h
  · cases h
  · exact ⟨a, u, rfl, h⟩

lemma ask_bind (question : FileTree → α) (second : α → Job β) (w : World) :
    (ask question >>= second) w = second (question w.tree) w := rfl

lemma say_bind (level : Level) (step content : String) (second : Unit → Job β) (w : World) :
    (say level step content >>= second) w =
      second () { w with events := w.events ++ [.said { level, step, content }] } := rfl

lemma tree_of_change (request : FileRequest) (operation : FileTree → Change) (w : World) :
    (change request operation w).2.tree = (operation w.tree).1 := by
  rw [change]
  rcases operation w.tree with ⟨tree, _ | _⟩ <;> rfl

lemma detail_apply (config : Config) (step content : String) (w : World) :
    ∃ v, detail config step content w = (.ok (), v) ∧ v.tree = w.tree := by
  rw [detail]
  split <;> exact ⟨_, rfl, rfl⟩

lemma find_bind_of_ok {executor : Executor} {tool : String} {w : World} {path : Path}
    (h : executor.locate w.tree tool = .ok path) (second : Path → Job β) :
    (executor.find tool >>= second) w = second path w :=
  bind_of_ok (by rw [Executor.find, h]) second

lemma find_bind_of_error {executor : Executor} {tool : String} {w : World} {failure : Failure}
    (h : executor.locate w.tree tool = .error failure) (second : Path → Job β) :
    (executor.find tool >>= second) w = (.error failure, w) :=
  bind_of_error (by rw [Executor.find, h]) second

end Job

namespace Executor

/-- The failure that a call comes to, if it fails: the executor's own, or one that tells how the
child ended. A child that ends with zero and a call that is skipped are no failures. -/
def callFailure? (inv : Invocation) : Except Failure Outcome → Option Failure
  | .error failure => some failure
  | .ok (.exited code) =>
    if code = some 0 then none else some (.processFailure inv.commandLine code)
  | .ok .skipped => none

lemma run_apply (executor : Executor) (inv : Invocation) (w : World) :
    executor.run inv w =
      ((callFailure? inv (executor.execute w.calls inv w.tree).result).elim (.ok ()) .error,
        { tree := (executor.execute w.calls inv w.tree).tree, calls := w.calls ++ [inv]
          events := w.events ++ (executor.execute w.calls inv w.tree).events }) := by
  rw [run, Job.bind_apply, perform]
  rcases (executor.execute w.calls inv w.tree).result with failure | code | _
  · rfl
  · simp only [callFailure?]
    split <;> rfl
  · rfl

end Executor

namespace Job

/-! ## Laws -/

/-- A law that holds of everything a job can do without an effect on files or children, and of a
sequence if it holds of both steps. -/
structure Law (holds : (α : Type) → Job α → Prop) : Prop where
  pure {α : Type} (a : α) : holds α (pure a)
  throw {α : Type} (failure : Failure) : holds α (throw failure)
  bind {α β : Type} {first : Job α} {second : α → Job β} :
    holds α first → (∀ a, holds β (second a)) → holds β (first >>= second)
  ask {α : Type} (question : FileTree → α) : holds α (ask question)
  say {level : Level} (step content : String) : level ≠ .error → holds Unit (say level step content)
  query {α : Type} (request : FileRequest) (question : FileTree → Except SystemError α) :
    holds α (query request question)

namespace Law

variable {holds : (α : Type) → Job α → Prop}

lemma ite (_ : Law holds) {p : Prop} [Decidable p] {yes no : Job α} (hyes : holds α yes)
    (hno : holds α no) :
    holds α (if p then yes else no) := by
  split
  · exact hyes
  · exact hno

variable (law : Law holds)
include law

lemma detail (config : Config) (step content : String) :
    holds Unit (Job.detail config step content) := by
  unfold Job.detail
  exact law.ite (law.say _ _ (by decide)) (law.pure ())

lemma discover (site : Site) : holds (List String) (App.discover site) := by
  unfold App.discover
  refine law.bind (law.ask _) fun present => ?_
  refine law.ite (law.bind (law.query _ _) fun names => ?_) (law.pure _)
  exact law.bind (law.ask _) fun dirs => law.pure _

lemma load (site : Site) (dir : String) (scan : ManifestScan) :
    holds App (App.load site dir scan) := by
  unfold App.load
  refine law.bind (law.query _ _) fun text => ?_
  rcases Manifest.readName scan text with fault | _ | package
  · exact law.throw _
  · exact law.throw _
  · exact law.pure _

end Law

/-- A law that holds of every change of the files as well. -/
structure ChangeLaw (holds : (α : Type) → Job α → Prop) : Prop extends Law holds where
  change (request : FileRequest) (operation : FileTree → Change) :
    holds Unit (change request operation)

namespace ChangeLaw

variable {holds : (α : Type) → Job α → Prop} (law : ChangeLaw holds)
include law

lemma prepare (site : Site) (target : Path) : holds Unit (Volume.prepare site target) := by
  unfold Volume.prepare
  split
  · exact law.pure ()
  · exact law.bind (law.ask _) fun _ => law.ite (law.pure ()) (law.change _ _)

lemma stage (config : Config) (site : Site) (source rel : Path) :
    holds Path (Volume.stage config site source rel) := by
  unfold Volume.stage
  refine law.ite (law.bind (law.detail _ _ _) fun _ => law.pure _) ?_
  refine law.bind (law.prepare _ _) fun _ => law.bind (law.ask _) fun present => ?_
  refine law.ite (law.bind (law.detail _ _ _) fun _ => law.bind (law.ask _) fun copied => ?_)
    (law.throw _)
  exact law.bind (law.change _ _) fun _ => law.pure _

lemma removeAll (config : Config) (site : Site) :
    holds Bool (Volume.removeAll config site) := by
  unfold Volume.removeAll
  refine law.bind (law.ask _) fun present => law.ite ?_ (law.pure _)
  refine law.ite (law.bind (law.detail _ _ _) fun _ => law.pure _) ?_
  exact law.bind (law.detail _ _ _) fun _ => law.bind (law.change _ _) fun _ => law.pure _

end ChangeLaw

/-! ## What a job leaves as it was -/

section Keeping

variable {γ : Type} {view : World → γ}

/-- Whatever comes of the job, what is seen of the world through `view` stays the same. -/
def Keeps (view : World → γ) (job : ExceptT ε (StateM World) α) : Prop :=
  ∀ w, view (job w).2 = view w

lemma keeps_bind {first : ExceptT ε (StateM World) α} {second : α → ExceptT ε (StateM World) β}
    (hfirst : Keeps view first) (hsecond : ∀ a, Keeps view (second a)) :
    Keeps view (first >>= second) := by
  intro w
  have hw := hfirst w
  rw [bind_apply]
  rcases h : first w with ⟨failure | a, v⟩
  · rwa [h] at hw
  · rw [h] at hw
    exact (hsecond a v).trans hw

/-- A view that shows neither what the program says nor what it asks of the files. -/
structure Overlooks (view : World → γ) : Prop where
  said (w : World) (message : Message) :
    view { w with events := w.events ++ [.said message] } = view w
  asked (w : World) (request : FileRequest) (granted : Bool) :
    view (record w request granted w.tree) = view w

lemma Overlooks.law (h : Overlooks view) : Law fun _ => Keeps view where
  pure _ _ := rfl
  throw _ _ := rfl
  bind := keeps_bind
  ask _ _ := rfl
  say _ _ _ w := h.said w _
  query request question w := by
    rw [query]
    split
    · exact h.asked w request true
    · exact h.asked w request false

end Keeping

lemma overlooks_calls : Overlooks World.calls := ⟨fun _ _ => rfl, fun _ _ _ => rfl⟩

lemma overlooks_tree : Overlooks World.tree := ⟨fun _ _ => rfl, fun _ _ _ => rfl⟩

/-- Only an executor is handed invocations. -/
lemma keeps_calls_law : ChangeLaw fun _ => Keeps World.calls where
  toLaw := overlooks_calls.law
  change request operation w := by
    rw [change]
    split <;> rfl

end Job
end BootVolume
