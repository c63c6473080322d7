import BootVolume.Proofs.Job
import BootVolume.Tasks

/-!
# The plan of a build

What a build of everything is to do, as data: which sources are compiled, which files are staged,
and where it has to look before it knows what comes next. The plan says nothing about failures;
following it, a run performs one element after the other and stops at the first that fails.

Main statement: the build follows its plan (`all_follows_plan`).
-/

namespace BootVolume.Build

open Job (keeps_calls_law)

/-- A part of the system: how its sources are compiled, what comes of them, and where on the volume
that goes. -/
structure Component where
  profile : Profile
  source : Path
  artifact : Path
  entry : Path

namespace Component

def bootloader : Component where
  profile := .release
  source := .ofString Layout.bootloaderSource
  artifact := Layout.artifact Layout.bootloaderTarget .release (Layout.bootloaderPackage ++ ".efi")
  entry := .ofString Layout.bootloaderEntry

def kernel (config : Config) : Component where
  profile := config.profile
  source := .ofString Layout.kernelSource
  artifact := Layout.artifact Layout.kernelTarget config.profile Layout.kernelPackage
  entry := .ofString Layout.kernelEntry

/-- The application in a directory: its package names the artifact and the directory its entry. -/
def app (config : Config) (dir package : String) : Component where
  profile := config.profile
  source := Layout.appSource dir
  artifact := Layout.artifact Layout.appTarget config.profile package
  entry := Layout.appEntry dir

end Component

inductive Element where
  | compile (profile : Profile) (source : Path)
  | stage (source entry : Path)
  | listApps
  | readManifest (dir : String)
  deriving DecidableEq

inductive Plan where
  | done
  | compile (profile : Profile) (source : Path) (rest : Plan)
  | stage (source entry : Path) (rest : Plan)
  /-- Goes on as the files are at this moment. -/
  | ifPresent (source : Path) (present absent : Plan)
  | listApps (rest : (dirs : List String) → Plan)
  | readManifest (dir : String) (rest : (package : String) → Plan)

namespace Plan

def component (c : Component) (rest : Plan) : Plan :=
  .compile c.profile c.source (.stage c.artifact c.entry rest)

/-- The boot loader, and the boot configuration exactly if it is there after that. -/
def bootloader (rest : Plan) : Plan :=
  component .bootloader <|
    .ifPresent (.ofString Layout.bootConfigSource)
      (.stage (.ofString Layout.bootConfigSource) (.ofString Layout.bootConfigEntry) rest) rest

/-- Applications in the order of their list; each manifest is read when its turn comes. -/
def appsIn (config : Config) : List String → Plan
  | [] => .done
  | dir :: rest =>
    .readManifest dir fun package => component (.app config dir package) (appsIn config rest)

/-- Everything: the boot loader, the kernel, and the applications that are found after these. -/
def all (config : Config) : Plan :=
  bootloader <| component (.kernel config) <| .listApps (appsIn config)

end Plan

section Following

variable (config : Config) (site : Site) (executor : Executor) (toolchain : Path)

/-- The first element of a plan performed in a world: the element, its failure or else what is left
of the plan, and the world that it leaves. -/
def Plan.step : Plan → World → Option (Element × Except Failure Plan × World)
  | .done, _ => none
  | .compile profile source rest, w =>
    let inv := Invocation.compile toolchain profile source
    let reply := executor.execute w.calls inv w.tree
    some (.compile profile source,
      (Executor.callFailure? inv reply.result).elim (.ok rest) .error,
      { tree := reply.tree, calls := w.calls ++ [inv], events := w.events ++ reply.events })
  | .stage source entry rest, w =>
    let staged := Volume.stage config site source entry w
    some (.stage source entry, staged.1.map fun _ => rest, staged.2)
  | .ifPresent source present absent, w =>
    if w.tree.exists? site.here (site.path source) then present.step w else absent.step w
  | .listApps rest, w =>
    let listed := App.discover site w
    some (.listApps, listed.1.map rest, listed.2)
  | .readManifest dir rest, w =>
    let loaded := App.load site dir config.manifestScan w
    some (.readManifest dir, loaded.1.map fun app => rest app.package, loaded.2)

/-- An element that was performed, between two worlds, and its failure if it had one. -/
structure Attempt where
  element : Element
  before : World
  after : World
  failure : Option Failure

/-- Nothing but messages is between two worlds. -/
def Says (w v : World) : Prop :=
  ∃ messages : List Message, v = { w with events := w.events ++ messages.map .said }

/-- Runs along a plan: every element is performed in the world that the one before it left, but for
messages in between, up to the first that fails or to the end of the plan. -/
inductive Plan.Follows : Plan → World → List Attempt → Except Failure Unit → World → Prop
  | done {plan : Plan} {w v : World} : Says w v →
    plan.step config site executor toolchain v = none → Follows plan w [] (.ok ()) v
  | failed {plan : Plan} {w before after : World} {element : Element} {failure : Failure} :
    Says w before →
    plan.step config site executor toolchain before = some (element, .error failure, after) →
    Follows plan w [⟨element, before, after, some failure⟩] (.error failure) after
  | next {plan rest : Plan} {w before after v : World} {element : Element}
      {attempts : List Attempt} {result : Except Failure Unit} :
    Says w before →
    plan.step config site executor toolchain before = some (element, .ok rest, after) →
    Follows rest after attempts result v →
    Follows plan w (⟨element, before, after, none⟩ :: attempts) result v

def Element.call? : Element → Option Invocation
  | .compile profile source => some (.compile toolchain profile source)
  | _ => none

end Following

section Performing

variable {config : Config} {site : Site} {executor : Executor} {toolchain : Path}

lemma Says.refl (w : World) : Says w w := ⟨[], by simp⟩

lemma Says.of_said {w v : World} {message : Message}
    (h : Says { w with events := w.events ++ [.said message] } v) : Says w v := by
  obtain ⟨messages, rfl⟩ := h
  exact ⟨message :: messages, by simp⟩

lemma Plan.Follows.of_said {plan : Plan} {w v : World} {message : Message}
    {attempts : List Attempt} {result : Except Failure Unit}
    (h : plan.Follows config site executor toolchain
      { w with events := w.events ++ [.said message] } attempts result v) :
    plan.Follows config site executor toolchain w attempts result v := by
  cases h with
  | done said last => exact .done said.of_said last
  | failed said step => exact .failed said.of_said step
  | next said step rest => exact .next said.of_said step rest

/-- Plans with the same next element in the files as they are have the same runs. -/
lemma Plan.Follows.of_step {plan plan' : Plan} {w v : World} {attempts : List Attempt}
    {result : Except Failure Unit}
    (h : plan.Follows config site executor toolchain w attempts result v)
    (same : ∀ u : World, u.tree = w.tree → plan'.step config site executor toolchain u =
      plan.step config site executor toolchain u) :
    plan'.Follows config site executor toolchain w attempts result v := by
  have tree : ∀ {u}, Says w u → u.tree = w.tree := fun ⟨_, hu⟩ => hu ▸ rfl
  cases h with
  | done said last => exact .done said ((same _ (tree said)).trans last)
  | failed said step => exact .failed said ((same _ (tree said)).trans step)
  | next said step rest => exact .next said ((same _ (tree said)).trans step) rest

/-- Runs along a plan with a condition are those along the branch that it chooses. -/
lemma Plan.follows_ifPresent {source : Path} {present absent : Plan} {w v : World}
    {attempts : List Attempt} {result : Except Failure Unit} :
    (Plan.ifPresent source present absent).Follows config site executor toolchain w attempts result
        v ↔
      (if w.tree.exists? site.here (site.path source) then present else absent).Follows config site
        executor toolchain w attempts result v := by
  have hstep (u : World) (hu : u.tree = w.tree) :
      (Plan.ifPresent source present absent).step config site executor toolchain u =
        (if w.tree.exists? site.here (site.path source) then present else absent).step config site
          executor toolchain u := by
    rw [Plan.step, hu]
    split <;> rfl
  exact ⟨fun h => h.of_step fun u hu => (hstep u hu).symm, fun h => h.of_step hstep⟩

variable (config site executor toolchain) in
/-- From every world, the job runs along the plan. -/
def Performs (job : Job Unit) (plan : Plan) : Prop :=
  ∀ w, ∃ attempts, plan.Follows config site executor toolchain w attempts (job w).1 (job w).2

lemma performs_done : Performs config site executor toolchain (pure ()) .done :=
  fun w => ⟨[], .done (.refl w) rfl⟩

lemma performs_say {job : Job Unit} {plan : Plan}
    (h : Performs config site executor toolchain job plan) (level : Level) (step content : String) :
    Performs config site executor toolchain (Job.say level step content >>= fun _ => job) plan := by
  intro w
  obtain ⟨attempts, follows⟩ := h { w with events := w.events ++ [.said ⟨level, step, content⟩] }
  exact ⟨attempts, follows.of_said⟩

lemma performs_detail {job : Job Unit} {plan : Plan}
    (h : Performs config site executor toolchain job plan) (step content : String) :
    Performs config site executor toolchain (Job.detail config step content >>= fun _ => job)
      plan := by
  unfold Job.detail
  split
  · exact performs_say h _ _ _
  · exact h

/-- The rule for one element: the job begins with what the element does, and goes on as the rest of
the plan does after each of its answers. -/
lemma performs_bind {α : Type} {first : Job α} {second : α → Job Unit} {plan : Plan}
    (element : Element) (next : α → Plan)
    (hstep : ∀ w, plan.step config site executor toolchain w =
      some (element, (first w).1.map next, (first w).2))
    (hrest : ∀ {w v a}, first w = (.ok a, v) →
      Performs config site executor toolchain (second a) (next a)) :
    Performs config site executor toolchain (first >>= second) plan := by
  intro w
  have h := hstep w
  rcases hw : first w with ⟨failure | a, v⟩
  · rw [hw] at h
    rw [Job.bind_of_error hw]
    exact ⟨_, .failed (.refl w) h⟩
  · rw [hw] at h
    rw [Job.bind_of_ok hw]
    obtain ⟨attempts, follows⟩ := hrest hw v
    exact ⟨_, .next (.refl w) h follows⟩

lemma performs_component (c : Component) {rest : Job Unit} {plan : Plan}
    (h : Performs config site executor toolchain rest plan) :
    Performs config site executor toolchain
      (do
        executor.run (.compile toolchain c.profile c.source)
        let _ ← Volume.stage config site c.artifact c.entry
        rest)
      (.component c plan) := by
  refine performs_bind (.compile c.profile c.source)
    (fun _ => .stage c.artifact c.entry plan) (fun w => ?_) fun _ => ?_
  · rw [Executor.run_apply, Plan.component, Plan.step]
    cases Executor.callFailure? (.compile toolchain c.profile c.source)
      (executor.execute w.calls (.compile toolchain c.profile c.source) w.tree).result <;> rfl
  · exact performs_bind (.stage c.artifact c.entry) (fun _ => plan) (fun w => rfl) fun _ => h

lemma performs_ifPresent {source : Path} {rest : Bool → Job Unit} {present absent : Plan}
    (hpresent : Performs config site executor toolchain (rest true) present)
    (habsent : Performs config site executor toolchain (rest false) absent) :
    Performs config site executor toolchain
      (Job.ask (·.exists? site.here (site.path source)) >>= rest)
      (.ifPresent source present absent) := by
  intro w
  rw [Job.ask_bind]
  simp only [Plan.follows_ifPresent]
  cases w.tree.exists? site.here (site.path source)
  · exact habsent w
  · exact hpresent w

lemma performs_bootloader {rest : Job Unit} {plan : Plan}
    (h : Performs config site executor toolchain rest plan) :
    Performs config site executor toolchain
      (bootloader config site executor toolchain >>= fun _ => rest) (.bootloader plan) := by
  unfold bootloader
  simp only [bind_assoc]
  refine performs_say (performs_component .bootloader (performs_ifPresent ?_ ?_)) _ _ _
  · rw [if_pos rfl]
    simp only [bind_assoc, pure_bind]
    exact performs_bind (.stage _ _) (fun _ => plan) (fun w => rfl) fun _ => h
  · exact performs_detail h _ _

lemma performs_kernel {rest : Job Unit} {plan : Plan}
    (h : Performs config site executor toolchain rest plan) :
    Performs config site executor toolchain
      (kernel config site executor toolchain >>= fun _ => rest)
      (.component (.kernel config) plan) := by
  unfold kernel
  simp only [bind_assoc, pure_bind]
  exact performs_say (performs_component (.kernel config) h) _ _ _

lemma load_dir {dir : String} {scan : ManifestScan} {w v : World} {app : App}
    (h : App.load site dir scan w = (.ok app, v)) : app.dir = dir := by
  rw [App.load] at h
  rcases hq : Job.query (.readText (site.path (App.manifest dir)))
    (·.readText site.here (site.path (App.manifest dir))) w with ⟨_ | text, u⟩
  · rw [Job.bind_of_error hq] at h
    cases h
  · rw [Job.bind_of_ok hq] at h
    rcases hread : Manifest.readName scan text with fault | _ | package <;> rw [hread] at h <;>
      cases h
    rfl

lemma performs_appsIn (dirs : List String) :
    Performs config site executor toolchain (appsIn config site executor toolchain dirs)
      (.appsIn config dirs) := by
  induction dirs with
  | nil => exact performs_done
  | cons dir dirs ih =>
    unfold appsIn
    refine performs_bind (.readManifest dir)
      (fun app => .component (.app config dir app.package) (.appsIn config dirs))
      (fun w => ?_) fun {w v app} loaded => ?_
    · rw [Plan.appsIn, Plan.step]
    · obtain rfl := load_dir loaded
      unfold Build.app
      simp only [bind_assoc, pure_bind]
      exact performs_say (performs_component (.app config app.dir app.package) ih) _ _ _

lemma performs_apps :
    Performs config site executor toolchain (apps config site executor toolchain)
      (.listApps (.appsIn config)) :=
  performs_bind .listApps (.appsIn config) (fun _ => rfl) fun _ => performs_appsIn _

variable (config site executor toolchain) in
lemma performs_all :
    Performs config site executor toolchain
      (do
        bootloader config site executor toolchain
        kernel config site executor toolchain
        apps config site executor toolchain)
      (.all config) :=
  performs_bootloader (performs_kernel performs_apps)

/-- Runs along a plan fail in the last element that they attempt or not at all. -/
lemma Plan.Follows.failure_eq {plan : Plan} {w v : World} {attempts : List Attempt}
    {result : Except Failure Unit}
    (h : plan.Follows config site executor toolchain w attempts result v) :
    (result = .ok () ∧ ∀ a ∈ attempts, a.failure = none) ∨
      ∃ failure front last, result = .error failure ∧ attempts = front ++ [last] ∧
        (∀ a ∈ front, a.failure = none) ∧ last.failure = some failure := by
  induction h with
  | done => exact .inl ⟨rfl, by simp⟩
  | failed => exact .inr ⟨_, [], _, rfl, rfl, by simp, rfl⟩
  | next _ _ _ ih =>
    rcases ih with ⟨hr, all⟩ | ⟨failure, front, last, hr, rfl, all, hlast⟩
    · exact .inl ⟨hr, List.forall_mem_cons.2 ⟨rfl, all⟩⟩
    · exact .inr ⟨failure, _ :: front, last, hr, rfl, List.forall_mem_cons.2 ⟨rfl, all⟩, hlast⟩

lemma Plan.Follows.ok_iff {plan : Plan} {w v : World} {attempts : List Attempt}
    {result : Except Failure Unit}
    (h : plan.Follows config site executor toolchain w attempts result v) :
    result = .ok () ↔ ∀ a ∈ attempts, a.failure = none := by
  rcases h.failure_eq with ⟨rfl, all⟩ | ⟨failure, front, last, rfl, rfl, _, hlast⟩
  · exact ⟨fun _ => all, fun _ => rfl⟩
  · refine ⟨nofun, fun all => ?_⟩
    rw [all last (by simp)] at hlast
    cases hlast

end Performing

end BootVolume.Build
