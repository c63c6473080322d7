import BootVolume.Proofs.Task
import BootVolume.Rehearsal

/-!
# Failures of children

A child fails if it cannot be started, ends with another code than zero or is killed by a signal.
Every call that is carried out is recorded with what became of the child (`starting_records`).
Main statement: the first child that fails ends the run, which reports it on the error stream and
exits with one; a run that exits with zero had no child that failed (`child_failure_ends_run`).
-/

namespace BootVolume

namespace Event

/-- How the child that an event tells of failed, if it did. -/
def failure? : Event → Option Failure
  | ran inv _ code => if code = some 0 then none else some (.processFailure inv.commandLine code)
  | notStarted inv cause => some (.spawn inv.commandLine cause)
  | said _ | asked _ _ => none

def isErrorLine : Event → Bool
  | said message => message.level = .error
  | _ => false

/-- Neither a child that failed nor an error line. -/
def Smooth (event : Event) : Prop := event.failure? = none ∧ event.isErrorLine = false

/-- The files are as the child left them that the event tells of. -/
def Leaves (children : Children) : Event → FileTree → Prop
  | ran inv output code, tree =>
    ∃ calls before, children calls inv before = .ok { tree, output, code }
  | notStarted inv cause, tree => ∃ calls, children calls inv tree = .error cause
  | said _, _ | asked _ _, _ => False

/-- What is told of a call, by what became of the child. -/
def ofAnswer (inv : Invocation) : Except SystemError ChildRun → Event
  | .error cause => notStarted inv cause
  | .ok run => ran inv run.output run.code

section Answer

variable (inv : Invocation) (answer : Except SystemError ChildRun)

@[simp] lemma child?_ofAnswer : (ofAnswer inv answer).child? = some inv := by
  cases answer <;> rfl

@[simp] lemma isErrorLine_ofAnswer : (ofAnswer inv answer).isErrorLine = false := by
  cases answer <;> rfl

/-- The record tells of the failure that the call comes to. -/
lemma failure?_ofAnswer : (ofAnswer inv answer).failure? =
    Executor.callFailure? inv
      ((answer.mapError (.spawn inv.commandLine)).map (.exited ·.code)) := by
  cases answer <;> rfl

lemma leaves_ofAnswer (children : Children) (calls : List Invocation) (tree : FileTree) :
    (ofAnswer inv (children calls inv tree)).Leaves children
      (((children calls inv tree).toOption.map (·.tree)).getD tree) := by
  cases h : children calls inv tree with
  | error cause => exact ⟨calls, h⟩
  | ok run => exact ⟨calls, tree, h⟩

end Answer

end Event

/-- What the children wrote to the error stream. -/
def childErrors (events : List Event) : Bytes := written .err (events.filter (·.child?.isSome))

/-- Without an error line the program itself writes nothing there. -/
lemma stderr_eq_childErrors {events : List Event} (h : ∀ e ∈ events, e.isErrorLine = false) :
    written .err events = childErrors events := by
  induction events with
  | nil => rfl
  | cons event rest ih =>
    obtain ⟨hevent, hrest⟩ := List.forall_mem_cons.1 h
    rw [childErrors, written_cons, ih hrest]
    cases event with
    | said message =>
      have hlevel : message.level ≠ .error := of_decide_eq_false hevent
      rw [List.filter_cons_of_neg (by simp [Event.child?])]
      simp [Event.output, Output.on, Message.stream, hlevel, childErrors]
    | asked => rw [List.filter_cons_of_neg (by simp [Event.child?])]; rfl
    | ran | notStarted =>
      rw [List.filter_cons_of_pos (by simp [Event.child?]), written_cons]
      rfl

section Conduct

variable {ε α β : Type}

/-- What happens to children on the way to a result: none fails, or else the last event is that of
the only one that does, and it decides the result and the files. `cause` tells the failure behind an
error. -/
inductive Conduct (children : Children) (cause : ε → Failure) :
    Except ε α → List Event → FileTree → Prop
  | smooth {result : Except ε α} {events : List Event} {tree : FileTree} :
    (∀ event ∈ events, event.Smooth) → Conduct children cause result events tree
  | failed {error : ε} {front : List Event} {last : Event} {tree : FileTree} :
    (∀ event ∈ front, event.Smooth) → last.failure? = some (cause error) →
    last.Leaves children tree → Conduct children cause (.error error) (front ++ [last]) tree

/-- From every world, the job goes on until a child fails. -/
def Honest (children : Children) (cause : ε → Failure) (job : ExceptT ε (StateM World) α) : Prop :=
  ∀ w, ∃ events, (job w).2.events = w.events ++ events ∧
    Conduct children cause (job w).1 events (job w).2.tree

variable {children : Children} {cause : ε → Failure}

lemma Conduct.smooth_of_ok {a : α} {events : List Event} {tree : FileTree}
    (conduct : Conduct children cause (.ok a) events tree) : ∀ event ∈ events, event.Smooth := by
  cases conduct with
  | smooth smooth => exact smooth

lemma honest_of_smooth {job : ExceptT ε (StateM World) α}
    (h : ∀ w, ∃ events, (job w).2.events = w.events ++ events ∧ ∀ event ∈ events, event.Smooth) :
    Honest children cause job := by
  intro w
  obtain ⟨events, hw, smooth⟩ := h w
  exact ⟨events, hw, .smooth smooth⟩

lemma honest_of_silent {job : ExceptT ε (StateM World) α} (h : ∀ w, (job w).2.events = w.events) :
    Honest children cause job :=
  honest_of_smooth fun w => ⟨[], by simp [h w], by simp⟩

lemma honest_bind {first : ExceptT ε (StateM World) α} {second : α → ExceptT ε (StateM World) β}
    (hfirst : Honest children cause first) (hsecond : ∀ a, Honest children cause (second a)) :
    Honest children cause (first >>= second) := by
  intro w
  obtain ⟨events, hw, conduct⟩ := hfirst w
  rw [Job.bind_apply]
  rcases h : first w with ⟨failure | a, v⟩ <;> rw [h] at hw conduct
  · refine ⟨events, hw, ?_⟩
    cases conduct with
    | smooth smooth => exact .smooth smooth
    | failed smooth last left => exact .failed smooth last left
  · -- The first step succeeded, so none of its children failed.
    have smooth := conduct.smooth_of_ok
    obtain ⟨more, hv, conduct⟩ := hsecond a v
    refine ⟨events ++ more, by rw [hv, hw, List.append_assoc], ?_⟩
    have smooth_append {others : List Event} (hothers : ∀ event ∈ others, event.Smooth) :
        ∀ event ∈ events ++ others, event.Smooth :=
      List.forall_mem_append.2 ⟨smooth, hothers⟩
    generalize (second a v).1 = result at conduct ⊢
    generalize (second a v).2.tree = tree at conduct ⊢
    cases conduct with
    | smooth others => exact .smooth (smooth_append others)
    | failed front last left =>
      rw [← List.append_assoc]
      exact .failed (smooth_append front) last left

end Conduct

/-! ## Tasks -/

section Tasks

variable {children : Children}

lemma honest_changeLaw : Job.ChangeLaw fun _ => Honest children id where
  pure _ := honest_of_silent fun _ => rfl
  throw _ := honest_of_silent fun _ => rfl
  bind := honest_bind
  ask _ := honest_of_silent fun _ => rfl
  say step content h := honest_of_smooth fun w =>
    ⟨_, rfl, by simp [Event.Smooth, Event.failure?, Event.isErrorLine, h]⟩
  query request question := honest_of_smooth fun w => by
    rw [Job.query]
    split <;> exact ⟨_, rfl, by simp [Event.Smooth, Event.failure?, Event.isErrorLine]⟩
  change request operation := honest_of_smooth fun w => by
    rw [Job.change]
    split <;> exact ⟨_, rfl, by simp [Event.Smooth, Event.failure?, Event.isErrorLine]⟩

variable {config : Config} {find? : FileTree → String → Option Path}

lemma Executor.starting_announces (inv : Invocation) :
    ∀ event ∈ (if config.showDebug then
      [Event.said { level := .debug, step := "Executing", content := inv.display }] else []),
      event.Smooth ∧ event.child? = none := by
  split <;> simp [Event.Smooth, Event.failure?, Event.isErrorLine, Event.child?]

/-- A call that is carried out is recorded with the answer of the children, whatever that is, and
with the files that it leaves. -/
lemma Executor.starting_records (hdry : config.dryRun = false)
    (find? : FileTree → String → Option Path) (children : Children) (calls : List Invocation)
    (inv : Invocation) (tree : FileTree) :
    let answer := children calls inv tree
    let reply := (Executor.starting config find? children).execute calls inv tree
    (∃ notes, reply.events = notes ++ [.ofAnswer inv answer] ∧
      ∀ note ∈ notes, note.Smooth ∧ note.child? = none) ∧
    reply.result = (answer.mapError (.spawn inv.commandLine)).map (.exited ·.code) ∧
    reply.tree = (answer.toOption.map (·.tree)).getD tree := by
  simp only [Executor.starting, hdry, Bool.false_eq_true, if_false]
  cases children calls inv tree <;> exact ⟨⟨_, rfl, starting_announces inv⟩, rfl, rfl⟩

lemma honest_run (inv : Invocation) :
    Honest children id (Executor.run (.starting config find? children) inv) := by
  intro w
  rw [Executor.run_apply]
  refine ⟨_, rfl, ?_⟩
  cases hdry : config.dryRun with
  | true =>
    simp only [Executor.starting, hdry, if_true]
    exact .smooth fun note hnote => (Executor.starting_announces inv note hnote).1
  | false =>
    obtain ⟨⟨notes, hevents, hnotes⟩, hresult, htree⟩ :=
      Executor.starting_records hdry find? children w.calls inv w.tree
    have smooth : ∀ note ∈ notes, note.Smooth := fun note hnote => (hnotes note hnote).1
    rw [hevents, hresult, htree, ← Event.failure?_ofAnswer]
    cases hfailure : (Event.ofAnswer inv (children w.calls inv w.tree)).failure? with
    | none =>
      refine .smooth (List.forall_mem_append.2 ⟨smooth, List.forall_mem_singleton.2 ?_⟩)
      exact ⟨hfailure, Event.isErrorLine_ofAnswer ..⟩
    | some failure => exact .failed smooth hfailure (Event.leaves_ofAnswer ..)

lemma honest_taskLaw (site : Site) :
    TaskLaw config site (.starting config find? children) fun _ => Honest children id where
  toLaw := honest_changeLaw.toLaw
  find _ := honest_of_silent fun _ => rfl
  run := honest_run
  stage := honest_changeLaw.stage config site
  removeAll := honest_changeLaw.removeAll config site

end Tasks

/-! ## The program -/

lemma honest_programLaw (config : Config) (site : Site) (find? : FileTree → String → Option Path)
    (children : Children) :
    ProgramLaw config site (.starting config find? children) (fun _ => Honest children id)
      fun _ => Honest children Report.failure where
  toTaskLaw := honest_taskLaw site
  within context job h := by
    intro w
    obtain ⟨events, hw, conduct⟩ := h w
    rw [Program.within]
    rcases hjob : job w with ⟨failure | _, v⟩ <;> rw [hjob] at hw conduct <;>
      refine ⟨events, hw, ?_⟩
    · cases conduct with
      | smooth smooth => exact .smooth smooth
      | failed smooth last left => exact .failed smooth last left
    · exact .smooth conduct.smooth_of_ok
  sequence := honest_bind
  look _ := honest_of_silent fun _ => rfl

lemma Failure.chain_processFailure (command : String) (code : Option Int) :
    (processFailure command code).chain =
      "`" ++ command ++ "` failed with " ++ describeExit code := rfl

lemma Failure.chain_spawn (command : String) (cause : SystemError) :
    (spawn command cause).chain =
      "failed to execute `" ++ command ++ "`" ++ ": " ++ cause.message := rfl

lemma Event.chain_names_child {event : Event} {failure : Failure} {inv : Invocation}
    (hfailure : event.failure? = some failure) (hchild : event.child? = some inv) :
    ∃ front back, failure.chain = front ++ inv.commandLine ++ back := by
  cases event with
  | said | asked => cases hchild
  | ran child output code =>
    rw [child?, Option.some.injEq] at hchild
    rw [failure?, Option.ite_none_left_eq_some, Option.some.injEq] at hfailure
    refine ⟨"`", "` failed with " ++ Failure.describeExit code, ?_⟩
    rw [← hfailure.2, Failure.chain_processFailure, hchild, String.append_assoc]
  | notStarted child cause =>
    rw [child?, Option.some.injEq] at hchild
    rw [failure?, Option.some.injEq] at hfailure
    refine ⟨"failed to execute `", "`" ++ ": " ++ cause.message, ?_⟩
    rw [← hfailure, Failure.chain_spawn, hchild, String.append_assoc, String.append_assoc]
    rfl

/-- The only element with a property stands where it stands. -/
lemma eq_of_append_cons_eq {α : Type} {p : α → Prop} {front before rest after : List α} {x y : α}
    (hfront : ∀ a ∈ front, ¬p a) (hrest : ∀ a ∈ rest, ¬p a) (hy : p y)
    (h : front ++ x :: rest = before ++ y :: after) : front = before ∧ x = y ∧ rest = after := by
  induction front generalizing before with
  | nil =>
    cases before with
    | nil => simpa using h
    | cons b before =>
      have : y ∈ rest := by simp [(List.cons.inj h).2]
      exact absurd hy (hrest y this)
  | cons a front ih =>
    cases before with
    | nil => exact absurd hy (hfront y (by simp [(List.cons.inj h).1]))
    | cons b before =>
      obtain ⟨rfl, htail⟩ := List.cons.inj h
      obtain ⟨rfl, same⟩ := ih (fun c hc => hfront c (List.mem_cons_of_mem _ hc)) htail
      exact ⟨rfl, same⟩

/-- When a line closes the run, the child that failed stands right before it and decides the
result. -/
lemma Conduct.last_of_failure {ε α : Type} {children : Children} {cause : ε → Failure} {error : ε}
    {events before after : List Event} {tree : FileTree} {line event : Event} {failure : Failure}
    (conduct : Conduct children cause (.error error : Except ε α) events tree)
    (hline : line.failure? = none) (h : events ++ [line] = before ++ event :: after)
    (hfailure : event.failure? = some failure) :
    cause error = failure ∧ after = [line] ∧ (∀ e ∈ before, e.Smooth) ∧
      event.Leaves children tree := by
  cases conduct with
  | smooth smooth =>
    have hmem : event ∈ events ++ [line] := by simp [h]
    rcases List.mem_append.1 hmem with hmem | hmem
    · simp [(smooth event hmem).1] at hfailure
    · simp [List.mem_singleton.1 hmem, hline] at hfailure
  | @failed _ front last _ smooth hlast left =>
    rw [List.append_assoc, List.singleton_append] at h
    obtain ⟨rfl, rfl, rfl⟩ := eq_of_append_cons_eq (p := fun e : Event => e.failure? ≠ none)
      (fun e he => by simp [(smooth e he).1]) (by simp [hline]) (by simp [hfailure]) h
    exact ⟨Option.some.inj (hlast.symm.trans hfailure), rfl, smooth, left⟩

lemma Event.isErrorLine_of_failure {event : Event} {failure : Failure}
    (h : event.failure? = some failure) : event.isErrorLine = false := by
  cases event with
  | said | asked => cases h
  | ran | notStarted => rfl

/-- A child that fails is the last that is started. The files stay as it left them, nothing is asked
of them any more, and the run exits with one after a single error line, which tells the failure and
names the command line of the child. The line is all that the program writes to the error stream,
behind what the children have written there. If the run exits with zero, no child failed and no
error line was printed. The children may behave in any way. -/
theorem child_failure_ends_run (config : Config) (site : Site)
    (find? : FileTree → String → Option Path) (children : Children) (tree : FileTree) :
    let done := Program.complete config site (.starting config find? children) tree
    (∀ before event after failure, done.events = before ++ event :: after →
      event.failure? = some failure →
        done.exit = 1 ∧ (∀ e ∈ before, e.Smooth) ∧ event.Leaves children done.tree ∧
        ∃ line context, after = [.said line] ∧ line.level = .error ∧
          line.content = context ++ ": " ++ failure.chain ∧
          done.stderr = childErrors (before ++ [event]) ++ Utf8.encode line.plain ∧
          ∀ inv, event.child? = some inv →
            ∃ front back, line.content = front ++ inv.commandLine ++ back) ∧
    (done.exit = 0 →
      (∀ event ∈ done.events, event.Smooth) ∧ done.stderr = childErrors done.events) := by
  intro done
  obtain ⟨events, hevents, conduct⟩ :=
    (honest_programLaw config site find? children).whole { tree }
  have hdone : done = Program.complete config site (.starting config find? children) tree := rfl
  clear_value done
  rw [Program.complete] at hdone
  rcases hrun : Program.whole config site (.starting config find? children) { tree } with
    ⟨report | _, w⟩ <;> rw [hrun] at hdone hevents conduct <;> subst hdone <;>
    change w.events = events at hevents
  · refine ⟨fun before event after failure hsplit hfailure => ?_, nofun⟩
    have hstderr := congrArg (written .err) hsplit
    dsimp only at hsplit hstderr ⊢
    rw [hevents] at hsplit
    obtain ⟨rfl, rfl, smooth, left⟩ := conduct.last_of_failure rfl hsplit hfailure
    have quiet : ∀ e ∈ before ++ [event], e.isErrorLine = false :=
      List.forall_mem_append.2 ⟨fun e he => (smooth e he).2,
        List.forall_mem_singleton.2 (Event.isErrorLine_of_failure hfailure)⟩
    refine ⟨rfl, smooth, left, _, report.context, rfl, rfl, rfl, ?_, fun inv hchild => ?_⟩
    · rw [Program.Completion.stderr, hstderr, ← List.singleton_append, ← List.append_assoc,
        written_append, stderr_eq_childErrors quiet]
      simp [written, Event.output, Output.on, Message.stream]
    · obtain ⟨front, back, hchain⟩ := Event.chain_names_child hfailure hchild
      refine ⟨report.context ++ ": " ++ front, back, ?_⟩
      rw [Report.message, hchain]
      simp only [String.append_assoc]
  · have smooth : ∀ event ∈ w.events, event.Smooth := hevents ▸ conduct.smooth_of_ok
    refine ⟨fun before event after failure hsplit hfailure => ?_, fun _ => ⟨smooth, ?_⟩⟩
    · dsimp only at hsplit
      have hnone := (smooth event (by simp [hsplit])).1
      rw [hfailure] at hnone
      cases hnone
    · exact stderr_eq_childErrors fun e he => (smooth e he).2

/-- The kernel does not compile: its child is killed when the boot loader is on the volume. -/
theorem child_failure_ends_run_kernel :
    let config : Config := {}
    let site : Site := { here := [], root := .ofString "/" }
    let find? : FileTree → String → Option Path := fun _ tool => some (.ofString tool)
    let children : Children := fun calls _ tree =>
      if calls = [] then .ok { tree }
      else .ok { tree, output := [(.err, Utf8.encode "out of memory\n")], code := none }
    let loader := Layout.artifact Layout.bootloaderTarget .release
      (Layout.bootloaderPackage ++ ".efi")
    let tree := FileTree.empty.plant [] (.file loader [0x4D, 0x5A] false)
    let kernel := Invocation.compile (.ofString Layout.toolchain) .release
      (.ofString Layout.kernelSource)
    let done := Program.complete config site (.starting config find? children) tree
    ∃ before event line, done.events = before ++ [event, .said line] ∧
      event.child? = some kernel ∧ event.failure? ≠ none ∧ (∀ e ∈ before, e.Smooth) ∧
      done.exit = 1 ∧ event.Leaves children done.tree ∧
      line.content =
        "build failed: `cargo build --release` failed with no exit code (terminated by signal)" ∧
      done.stderr = Utf8.encode ("out of memory\n[E] Error: build failed: " ++
        "`cargo build --release` failed with no exit code (terminated by signal)\n") := by
  intro config site find? children loader tree kernel done
  let event : Event := .ran kernel [(.err, Utf8.encode "out of memory\n")] none
  let line : Message := ⟨.error, "Error",
    "build failed: `cargo build --release` failed with no exit code (terminated by signal)"⟩
  have hlast : done.events.drop (done.events.length - 2) = [event, .said line] := by
    decide +kernel
  have hsplit : done.events =
      done.events.take (done.events.length - 2) ++ event :: [.said line] := by
    rw [← hlast, List.take_append_drop]
  have hfailure : event.failure? = some (.processFailure kernel.commandLine none) := rfl
  obtain ⟨hexit, smooth, left, -⟩ :=
    (child_failure_ends_run config site find? children tree).1 _ _ _ _ hsplit hfailure
  exact ⟨_, event, line, hsplit, rfl, by simp [hfailure], smooth, hexit, left, rfl,
    by decide +kernel⟩

end BootVolume
