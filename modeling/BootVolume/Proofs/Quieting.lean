import BootVolume.Process.Child
import BootVolume.Proofs.Omitting
import BootVolume.Proofs.Task
import BootVolume.Rehearsal

/-!
# Details

Two runs side by side, one with details and one without. The one without does what the other one
does, and its trace is that of the other one with the details left out (`Mutes`). This holds of
every step of a task, so of whole runs: with details asked for in front of a command line
(`verbosity_only_tells`), or wherever else they are (`verbosity_anywhere_only_tells`).
-/

namespace BootVolume

/-- A message that is printed only where details are. -/
def Event.isDetail : Event → Bool
  | said message => message.level = .debug
  | asked _ _ | ran _ _ _ | notStarted _ _ => false

def withoutDetails (events : List Event) : List Event := events.filter (!·.isDetail)

/-- The world as it is without details. -/
def World.muted (w : World) : World := { w with events := withoutDetails w.events }

section Muting

variable {ε α β : Type}

/-- From a world without details, the quiet job comes to what the loud one comes to, and leaves the
same world but for details. -/
def Mutes (loud quiet : ExceptT ε (StateM World) α) : Prop :=
  ∀ w, quiet w.muted = ((loud w).1, (loud w).2.muted)

lemma mutes_bind {first first' : ExceptT ε (StateM World) α}
    {second second' : α → ExceptT ε (StateM World) β} (hfirst : Mutes first first')
    (hsecond : ∀ a, Mutes (second a) (second' a)) :
    Mutes (first >>= second) (first' >>= second') := by
  intro w
  rw [Job.bind_apply, Job.bind_apply, hfirst w]
  rcases first w with ⟨failure | a, v⟩
  · rfl
  · exact hsecond a v

lemma mutes_ite {p : Prop} [Decidable p] {yes yes' no no' : ExceptT ε (StateM World) α}
    (hyes : Mutes yes yes') (hno : Mutes no no') :
    Mutes (if p then yes else no) (if p then yes' else no') := by
  split
  · exact hyes
  · exact hno

lemma mutes_pure (a : α) : Mutes (pure a : ExceptT ε (StateM World) α) (pure a) := fun _ => rfl

lemma mutes_throw (failure : ε) :
    Mutes (throw failure : ExceptT ε (StateM World) α) (throw failure) := fun _ => rfl

lemma mutes_ask (question : FileTree → α) : Mutes (Job.ask question) (Job.ask question) :=
  fun _ => rfl

lemma withoutDetails_append (events more : List Event) :
    withoutDetails (events ++ more) = withoutDetails events ++ withoutDetails more :=
  List.filter_append ..

lemma mutes_say {level : Level} (h : level ≠ .debug) (step content : String) :
    Mutes (Job.say level step content) (Job.say level step content) := by
  intro w
  have hkept :
      withoutDetails [.said { level, step, content }] = [.said { level, step, content }] := by
    simp [withoutDetails, Event.isDetail, h]
  simp only [Job.say, World.muted, withoutDetails_append, hkept]

lemma muted_record (w : World) (request : FileRequest) (granted : Bool) (tree : FileTree) :
    (Job.record w request granted tree).muted = Job.record w.muted request granted tree := by
  have hkept : withoutDetails [.asked request granted] = [.asked request granted] := rfl
  simp only [Job.record, World.muted, withoutDetails_append, hkept]

lemma mutes_query (request : FileRequest) (question : FileTree → Except SystemError α) :
    Mutes (Job.query request question) (Job.query request question) := by
  intro w
  simp only [Job.query, show w.muted.tree = w.tree from rfl]
  cases question w.tree <;> simp only [muted_record]

lemma mutes_change (request : FileRequest) (operation : FileTree → Change) :
    Mutes (Job.change request operation) (Job.change request operation) := by
  intro w
  simp only [Job.change, show w.muted.tree = w.tree from rfl]
  rcases operation w.tree with ⟨tree, _ | _⟩ <;> simp only [muted_record]

/-! ## Reading the sources and preparing the volume -/

lemma mutes_discover (site : Site) : Mutes (App.discover site) (App.discover site) := by
  unfold App.discover
  refine mutes_bind (mutes_ask _) fun present => ?_
  refine mutes_ite (mutes_bind (mutes_query _ _) fun names => ?_) (mutes_pure _)
  exact mutes_bind (mutes_ask _) fun dirs => mutes_pure _

lemma mutes_load (site : Site) (dir : String) (scan : ManifestScan) :
    Mutes (App.load site dir scan) (App.load site dir scan) := by
  unfold App.load
  refine mutes_bind (mutes_query _ _) fun text => ?_
  rcases Manifest.readName scan text with fault | _ | package
  · exact mutes_throw _
  · exact mutes_throw _
  · exact mutes_pure _

lemma mutes_prepare (site : Site) (target : Path) :
    Mutes (Volume.prepare site target) (Volume.prepare site target) := by
  unfold Volume.prepare
  split
  · exact mutes_pure ()
  · refine mutes_bind (mutes_ask _) fun present => ?_
    exact mutes_ite (mutes_pure ()) (mutes_change _ _)

end Muting

/-- The configuration with details. -/
def Config.loud (config : Config) : Config := { config with verbose := true }

section Tasks

variable {config : Config} {site : Site} {find? : FileTree → String → Option Path}
  {children : Children}

/-! ## Tasks -/

variable (hdry : config.dryRun = false) (hquiet : config.verbose = false)
include hdry hquiet

lemma mutes_detail (step content : String) :
    Mutes (Job.detail config.loud step content) (Job.detail config step content) := by
  have told : Job.detail config.loud step content = Job.say .debug step content := if_pos rfl
  have hidden : Job.detail config step content = pure () :=
    if_neg (by simp [Config.showDebug, hdry, hquiet])
  have hdropped : withoutDetails [.said { level := .debug, step, content }] = [] := rfl
  intro w
  rw [told, hidden]
  simp only [Job.say, World.muted, withoutDetails_append, hdropped, List.append_nil]
  rfl

lemma mutes_stage (source rel : Path) :
    Mutes (Volume.stage config.loud site source rel) (Volume.stage config site source rel) := by
  have hloud : config.loud.dryRun = false := hdry
  unfold Volume.stage
  dsimp only
  rw [hdry, hloud]
  refine mutes_bind (mutes_prepare _ _) fun _ => mutes_bind (mutes_ask _) fun present => ?_
  refine mutes_ite (mutes_bind (mutes_detail hdry hquiet _ _) fun _ => ?_) (mutes_throw _)
  exact mutes_bind (mutes_ask _) fun copied => mutes_bind (mutes_change _ _) fun _ => mutes_pure _

lemma mutes_removeAll :
    Mutes (Volume.removeAll config.loud site) (Volume.removeAll config site) := by
  have hloud : config.loud.dryRun = false := hdry
  unfold Volume.removeAll
  dsimp only
  rw [hdry, hloud]
  refine mutes_bind (mutes_ask _) fun present => mutes_ite ?_ (mutes_pure _)
  refine mutes_bind (mutes_detail hdry hquiet _ _) fun _ => ?_
  exact mutes_bind (mutes_change _ _) fun _ => mutes_pure _

/-- A child does the same and writes the same, whether it is announced or not. -/
lemma mutes_run (inv : Invocation) :
    Mutes (Executor.run (.starting config.loud find? children) inv)
      (Executor.run (.starting config find? children) inv) := by
  have hloud : config.loud.dryRun = false := hdry
  have told : config.loud.showDebug = true := rfl
  have hidden : config.showDebug = false := by simp [Config.showDebug, hdry, hquiet]
  let announcement : Event := .said { level := .debug, step := "Executing", content := inv.display }
  have hfailed (cause : SystemError) :
      withoutDetails [announcement, .notStarted inv cause] = [.notStarted inv cause] := rfl
  have hran (run : ChildRun) :
      withoutDetails [announcement, .ran inv run.output run.code] =
        [.ran inv run.output run.code] := rfl
  intro w
  rw [Executor.run_apply, Executor.run_apply]
  simp only [Executor.starting, hdry, hloud, told, hidden, World.muted]
  cases children w.calls inv w.tree with
  | error cause => simp [withoutDetails_append, announcement, hfailed]
  | ok run => simp [withoutDetails_append, announcement, hran]

omit hdry hquiet in
lemma mutes_find (tool : String) :
    Mutes (Executor.find (.starting config.loud find? children) tool)
      (Executor.find (.starting config find? children) tool) := fun _ => rfl

variable (toolchain : Path)

lemma mutes_bootloader :
    Mutes (Build.bootloader config.loud site (.starting config.loud find? children) toolchain)
      (Build.bootloader config site (.starting config find? children) toolchain) := by
  unfold Build.bootloader
  refine mutes_bind (mutes_say (by decide) _ _) fun _ => ?_
  refine mutes_bind (mutes_run hdry hquiet _) fun _ => ?_
  refine mutes_bind (mutes_stage hdry hquiet _ _) fun _ => ?_
  refine mutes_bind (mutes_ask _) fun present => ?_
  refine mutes_ite (mutes_bind (mutes_stage hdry hquiet _ _) fun _ => mutes_pure ()) ?_
  exact mutes_detail hdry hquiet _ _

lemma mutes_kernel :
    Mutes (Build.kernel config.loud site (.starting config.loud find? children) toolchain)
      (Build.kernel config site (.starting config find? children) toolchain) := by
  unfold Build.kernel
  refine mutes_bind (mutes_say (by decide) _ _) fun _ => ?_
  refine mutes_bind (mutes_run hdry hquiet _) fun _ => ?_
  exact mutes_bind (mutes_stage hdry hquiet _ _) fun _ => mutes_pure ()

lemma mutes_appsIn (dirs : List String) :
    Mutes (Build.appsIn config.loud site (.starting config.loud find? children) toolchain dirs)
      (Build.appsIn config site (.starting config find? children) toolchain dirs) := by
  induction dirs with
  | nil => exact mutes_pure ()
  | cons dir dirs ih =>
    refine mutes_bind (mutes_load _ _ _) fun app => mutes_bind ?_ fun _ => ih
    unfold Build.app
    refine mutes_bind (mutes_say (by decide) _ _) fun _ => ?_
    refine mutes_bind (mutes_run hdry hquiet _) fun _ => ?_
    exact mutes_bind (mutes_stage hdry hquiet _ _) fun _ => mutes_pure ()

omit toolchain

lemma mutes_build :
    Mutes (Build.all config.loud site (.starting config.loud find? children))
      (Build.all config site (.starting config find? children)) := by
  refine mutes_bind (mutes_find _) fun toolchain => ?_
  refine mutes_bind (mutes_bootloader hdry hquiet toolchain) fun _ => ?_
  refine mutes_bind (mutes_kernel hdry hquiet toolchain) fun _ => ?_
  exact mutes_bind (mutes_discover site) fun dirs => mutes_appsIn hdry hquiet toolchain dirs

lemma mutes_removeOutput :
    Mutes (Task.removeOutput config.loud site (.starting config.loud find? children))
      (Task.removeOutput config site (.starting config find? children)) := by
  have sweep : Mutes (Task.sweep (.starting config.loud find? children))
      (Task.sweep (.starting config find? children)) := by
    refine mutes_bind (mutes_find _) fun toolchain => ?_
    exact mutes_bind (mutes_say (by decide) _ _) fun _ => mutes_run hdry hquiet _
  rw [Task.removeOutput_eq, Task.removeOutput_eq]
  refine mutes_bind (mutes_removeAll hdry hquiet) fun removed => ?_
  exact mutes_ite (mutes_bind (mutes_say (by decide) _ _) fun _ => sweep) sweep

lemma mutes_lint :
    Mutes (Task.lint site (.starting config.loud find? children))
      (Task.lint site (.starting config find? children)) := by
  have checks (toolchain : Path) (dirs : List String) :
      Mutes (Task.checkApps (.starting config.loud find? children) toolchain dirs)
        (Task.checkApps (.starting config find? children) toolchain dirs) := by
    induction dirs with
    | nil => exact mutes_pure ()
    | cons dir dirs ih =>
      refine mutes_bind (mutes_say (by decide) _ _) fun _ => ?_
      exact mutes_bind (mutes_run hdry hquiet _) fun _ => ih
  unfold Task.lint
  refine mutes_bind (mutes_find _) fun toolchain => ?_
  refine mutes_bind (mutes_say (by decide) _ _) fun _ => ?_
  refine mutes_bind (mutes_run hdry hquiet _) fun _ => ?_
  refine mutes_bind (mutes_say (by decide) _ _) fun _ => ?_
  refine mutes_bind (mutes_run hdry hquiet _) fun _ => ?_
  exact mutes_bind (mutes_discover site) fun dirs => checks toolchain dirs

lemma mutes_hypervisor :
    Mutes (Hypervisor.launch config.loud (.starting config.loud find? children))
      (Hypervisor.launch config (.starting config find? children)) := by
  refine mutes_bind (mutes_find _) fun hypervisor => ?_
  exact mutes_run hdry hquiet _

/-! ## The program -/

omit hdry hquiet in
lemma mutes_within {loud quiet : Job Unit} (h : Mutes loud quiet) (context : String) :
    Mutes (Program.within context loud) (Program.within context quiet) := by
  intro w
  rw [Program.within, Program.within, h w]
  rcases loud w with ⟨failure | _, v⟩ <;> rfl

lemma mutes_program_build :
    Mutes (Program.build config.loud site (.starting config.loud find? children))
      (Program.build config site (.starting config find? children)) := by
  refine mutes_bind (mutes_within (mutes_detail hdry hquiet _ _) _) fun _ => ?_
  refine mutes_bind (mutes_within (mutes_build hdry hquiet) _) fun _ => ?_
  exact mutes_within (mutes_say (by decide) _ _) _

lemma mutes_program_launch :
    Mutes (Program.launch config.loud site (.starting config.loud find? children))
      (Program.launch config site (.starting config find? children)) := by
  have boot : Mutes (Program.boot config.loud (.starting config.loud find? children))
      (Program.boot config (.starting config find? children)) :=
    mutes_bind (mutes_within (mutes_say (by decide) _ _) _) fun _ =>
      mutes_within (mutes_hypervisor hdry hquiet) _
  rw [Program.launch_eq, Program.launch_eq]
  refine mutes_bind (fun _ => rfl) fun present => ?_
  exact mutes_ite (mutes_bind (mutes_within (mutes_say (by decide) _ _) _) fun _ => boot) boot

lemma mutes_whole :
    Mutes (Program.whole config.loud site (.starting config.loud find? children))
      (Program.whole config site (.starting config find? children)) := by
  refine mutes_bind (mutes_within (mutes_detail hdry hquiet _ _) _) fun _ => ?_
  have htask : config.loud.task = config.task := rfl
  unfold Program.task
  rw [htask]
  cases config.task with
  | build => exact mutes_program_build hdry hquiet
  | clean => exact mutes_within (mutes_removeOutput hdry hquiet) _
  | launch => exact mutes_program_launch hdry hquiet
  | run =>
    exact mutes_bind (mutes_program_build hdry hquiet) fun _ => mutes_program_launch hdry hquiet
  | clippy => exact mutes_within (mutes_lint hdry hquiet) _

end Tasks

/-! ## Whole runs -/

/-- Details are no children. -/
lemma children_withoutDetails (events : List Event) :
    (withoutDetails events).filterMap Event.child? = events.filterMap Event.child? := by
  induction events with
  | nil => rfl
  | cons event rest ih =>
    rw [withoutDetails, List.filter_cons]
    split
    · rw [List.filterMap_cons, List.filterMap_cons]
      cases event.child? <;> simp only [← ih, withoutDetails]
    · rename_i hdetail
      have hchild : event.child? = none := by
        cases event <;> simp_all [Event.isDetail, Event.child?]
      rw [List.filterMap_cons_none hchild]
      exact ih

/-- Details are written to the standard stream. -/
lemma stderr_withoutDetails (events : List Event) :
    written .err (withoutDetails events) = written .err events := by
  induction events with
  | nil => rfl
  | cons event rest ih =>
    rw [withoutDetails, List.filter_cons]
    split
    · rw [written_cons, written_cons]
      exact congrArg _ ih
    · rename_i hdetail
      have hnothing : Output.on event.output .err = [] := by
        cases event with
        | said message =>
          have hlevel : message.level = .debug := by simpa [Event.isDetail] using hdetail
          simp [Event.output, Output.on, Message.stream, hlevel]
        | asked | ran | notStarted => simp [Event.isDetail] at hdetail
      rw [written_cons, hnothing]
      exact ih

namespace Program

/-- A run without details beside the same run with details. -/
structure Hushed (quiet loud : Completion) : Prop where
  exit : quiet.exit = loud.exit
  tree : quiet.tree = loud.tree
  events : quiet.events = withoutDetails loud.events
  children : quiet.events.filterMap Event.child? = loud.events.filterMap Event.child?
  stderr : quiet.stderr = loud.stderr
  stdout : quiet.stdout = written .out (withoutDetails loud.events)

lemma hushed_of_events {quiet loud : Completion} (exit : quiet.exit = loud.exit)
    (tree : quiet.tree = loud.tree) (events : quiet.events = withoutDetails loud.events) :
    Hushed quiet loud where
  exit := exit
  tree := tree
  events := events
  children := by rw [events, children_withoutDetails]
  stderr := by rw [Completion.stderr, events, stderr_withoutDetails, Completion.stderr]
  stdout := by rw [Completion.stdout, events]

lemma hushed_complete {config : Config} (hdry : config.dryRun = false)
    (hquiet : config.verbose = false) (site : Site) (find? : FileTree → String → Option Path)
    (children : Children) (tree : FileTree) :
    Hushed (complete config site (.starting config find? children) tree)
      (complete config.loud site (.starting config.loud find? children) tree) := by
  have hmuted : whole config site (.starting config find? children) { tree } =
      ((whole config.loud site (.starting config.loud find? children) { tree }).1,
        (whole config.loud site (.starting config.loud find? children) { tree }).2.muted) :=
    mutes_whole hdry hquiet { tree }
  unfold complete
  rw [hmuted]
  rcases whole config.loud site (.starting config.loud find? children) { tree } with
    ⟨report | _, w⟩
  · let complaint : Event := .said { level := .error, step := "Error", content := report.message }
    exact hushed_of_events rfl rfl (withoutDetails_append w.events [complaint]).symm
  · exact hushed_of_events rfl rfl rfl

/-- On a command line that asks neither for a dry run nor for details, asking for details in front
changes nothing but what is told. What is wrong with the arguments still is. If they ask for a task,
the run with details starts the same children, leaves the same files and ends in the same way; its
error stream is the same, and what it writes to the standard one is the same but for details. -/
theorem verbosity_only_tells (site : Site) (find? : FileTree → String → Option Path)
    (children : Children) {args : List Bytes} (hdry : ¬CommandLine.Asks .dryRun args)
    (hquiet : ¬CommandLine.Asks .verbose args) :
    match CommandLine.read args with
    | .error stop => CommandLine.read (Utf8.encode "--verbose" :: args) = .error stop
    | .ok config =>
      CommandLine.read (Utf8.encode "--verbose" :: args) = .ok config.loud ∧
        ∀ tree, Hushed (complete config site (.starting config find? children) tree)
          (complete config.loud site (.starting config.loud find? children) tree) := by
  have hread := CommandLine.read_switch hquiet
  cases h : CommandLine.read args with
  | error stop => exact hread.trans (by rw [h]; rfl)
  | ok config =>
    refine ⟨hread.trans (by rw [h]; rfl), ?_⟩
    exact hushed_complete (CommandLine.isOn_of_not_asks hdry h)
      (CommandLine.isOn_of_not_asks hquiet h) site find? children

/-- Cleaning without and with details: the child fails, after the volume was removed. -/
theorem verbosity_only_tells_clean :
    let args := ["clean"].map Utf8.encode
    let config : Config := { task := .clean }
    let site : Site := { here := [], root := .ofString "/" }
    let find? : FileTree → String → Option Path := fun _ tool => some (.ofString tool)
    let children : Children := fun _ _ tree =>
      .ok { tree, output := [(.err, Utf8.encode "no manifest\n")], code := some 101 }
    let tree := FileTree.empty.withDir [] (.ofString "/esp/EFI/BOOT")
    let quiet := complete config site (.starting config find? children) tree
    let loud := complete config.loud site (.starting config.loud find? children) tree
    ¬CommandLine.Asks .dryRun args ∧ ¬CommandLine.Asks .verbose args ∧
      CommandLine.read args = .ok config ∧
      CommandLine.read (Utf8.encode "--verbose" :: args) = .ok config.loud ∧ Hushed quiet loud ∧
      (quiet.exit, quiet.stdout) =
        (1, Utf8.encode "[+] Removed: /esp\n[+] Running: cargo clean...\n") ∧
      loud.stdout = Utf8.encode ("[?] Root: /\n[?] Removing: /esp\n[+] Removed: /esp\n" ++
        "[+] Running: cargo clean...\n[?] Executing: cargo clean\n") := by
  intro args config site find? children tree quiet loud
  have unasked (s : CommandLine.Switch) : ¬CommandLine.Asks s args := by
    cases s <;> simp [CommandLine.Asks] <;> decide
  have hread : CommandLine.read args = .ok config := by rfl
  have hushed := verbosity_only_tells site find? children (unasked .dryRun) (unasked .verbose)
  rw [hread] at hushed
  exact ⟨unasked _, unasked _, hread, hushed.1, hushed.2 tree, by decide +kernel, by decide +kernel⟩

/-- Wherever a command line asks for details, by the long name or by the letter: without that
argument it asks for the same run without details. -/
theorem verbosity_anywhere_only_tells (site : Site) (find? : FileTree → String → Option Path)
    (children : Children) {front back : List Bytes} {arg : Bytes} {loud : Config}
    (harg : arg ∈ CommandLine.Switch.verbose.spellings)
    (hplace : CommandLine.takesNext false front = false)
    (hdry : ¬CommandLine.Asks .dryRun (front ++ back))
    (hquiet : ¬CommandLine.Asks .verbose (front ++ back))
    (hread : CommandLine.read (front ++ arg :: back) = .ok loud) :
    ∃ config, CommandLine.read (front ++ back) = .ok config ∧ loud = config.loud ∧
      ∀ tree, Hushed (complete config site (.starting config find? children) tree)
        (complete loud site (.starting loud find? children) tree) := by
  obtain ⟨config, hconfig, rfl⟩ := CommandLine.read_omitting harg hplace hread
  exact ⟨config, hconfig, rfl, hushed_complete (CommandLine.isOn_of_not_asks hdry hconfig)
    (CommandLine.isOn_of_not_asks hquiet hconfig) site find? children⟩

end Program
end BootVolume
