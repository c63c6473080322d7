import BootVolume.Proofs.ChildFailure
import BootVolume.Proofs.Retry

/-!
# Booting what was built

A run that is to build and boot starts the hypervisor once at most, as its last child, when the
build was carried out: everything compiled, and every file staged. The drive that the hypervisor is
told of is the volume that these files were staged on (`hypervisor_boots_what_was_built`).
-/

namespace BootVolume

namespace Event

/-- A child that ended with zero. -/
def Succeeds (event : Event) : Prop := ∃ inv output, event = .ran inv output (some 0)

/-- Nothing is told of a child. -/
def Childless (events : List Event) : Prop := ∀ e ∈ events, e.child? = none

lemma childless_said (messages : List Message) : Childless (messages.map .said) := by
  simp [Childless, child?]

lemma Childless.append {events more : List Event} (h : Childless events) (hmore : Childless more) :
    Childless (events ++ more) :=
  List.forall_mem_append.2 ⟨h, hmore⟩

end Event

open Event (Childless childless_said)

/-- What the trace tells of children. -/
def World.started (w : World) : List Event := w.events.filter (·.child?.isSome)

lemma World.started_of_append {w v : World} {events : List Event}
    (h : v.events = w.events ++ events) :
    v.started = w.started ++ events.filter (·.child?.isSome) := by
  rw [started, h, List.filter_append, started]

lemma World.mem_started {w : World} {event : Event} {inv : Invocation} (hmem : event ∈ w.events)
    (hchild : event.child? = some inv) : event ∈ w.started :=
  List.mem_filter.2 ⟨hmem, by rw [hchild, Option.isSome_some]⟩

lemma Event.Childless.filter_eq {events : List Event} (h : Childless events) :
    events.filter (·.child?.isSome) = [] :=
  List.filter_eq_nil_iff.2 fun e he => by simp [h e he]

/-- The call that boots the volume. -/
def Hypervisor.invocation (config : Config) (hypervisor : Path) : Invocation :=
  (Invocation.new hypervisor.bytes).addArgs (arguments config)

/-- The last drive that a call names is the directory that this path leads to. -/
def Invocation.Drives (inv : Invocation) (volume : Path) : Prop :=
  ∃ front back,
    inv.args = front ++
      Utf8.encode "-drive" :: (Utf8.encode "format=raw,file=fat:" ++ volume.bytes) :: back ∧
    Utf8.encode "-drive" ∉ back

namespace Job

lemma overlooks_started : Overlooks World.started where
  said w message := by simp [World.started, Event.child?]
  asked w request granted := by simp [record, World.started, Event.child?]

lemma keeps_started_law : ChangeLaw fun _ => Keeps World.started where
  toLaw := overlooks_started.law
  change request operation w := by
    rw [change]
    split <;> simp [record, World.started, Event.child?]

end Job

lemma Executor.find?_of_locate {config : Config} {find? : FileTree → String → Option Path}
    {children : Children} {tree : FileTree} {tool : String} {path : Path}
    (h : (Executor.starting config find? children).locate tree tool = .ok path) :
    find? tree tool = some path := by
  unfold Executor.starting at h
  dsimp only at h
  split at h
  · cases h
    assumption
  · cases h

/-- A call starts one child, and nothing is told of another. -/
lemma Executor.exists_started {config : Config} (hdry : config.dryRun = false)
    (find? : FileTree → String → Option Path) (children : Children) (calls : List Invocation)
    (inv : Invocation) (tree : FileTree) :
    let reply := (Executor.starting config find? children).execute calls inv tree
    ∃ notes, reply.events = notes ++ [.ofAnswer inv (children calls inv tree)] ∧ Childless notes ∧
      (callFailure? inv reply.result = none →
        (Event.ofAnswer inv (children calls inv tree)).Succeeds) := by
  obtain ⟨⟨notes, hevents, hnotes⟩, hresult, -⟩ :=
    starting_records hdry find? children calls inv tree
  refine ⟨notes, hevents, fun note hnote => (hnotes note hnote).2, fun hnone => ?_⟩
  rw [hresult, ← Event.failure?_ofAnswer] at hnone
  cases hanswer : children calls inv tree with
  | error cause =>
    rw [hanswer] at hnone
    cases hnone
  | ok run =>
    rw [hanswer] at hnone
    have hcode : run.code = some 0 := by simpa [Event.ofAnswer, Event.failure?] using hnone
    exact ⟨inv, run.output, by rw [Event.ofAnswer, hcode]⟩

namespace Build

open Layout

/-! ## The children of a build -/

section Children

variable {config : Config} {site : Site} {find? : FileTree → String → Option Path}
  {children : Children} {toolchain : Path} {plan : Plan} {w v : World}

lemma Says.trans {u : World} (h : Says w v) (h' : Says v u) : Says w u := by
  obtain ⟨messages, rfl⟩ := h
  obtain ⟨more, rfl⟩ := h'
  exact ⟨messages ++ more, by simp⟩

lemma Says.started_eq (h : Says w v) : v.started = w.started := by
  obtain ⟨messages, rfl⟩ := h
  rw [World.started_of_append rfl, (childless_said messages).filter_eq, List.append_nil]

lemma Plan.Follows.of_saying {executor : Executor} {u : World} {attempts : List Attempt}
    {result : Except Failure Unit}
    (h : plan.Follows config site executor toolchain v attempts result u) (said : Says w v) :
    plan.Follows config site executor toolchain w attempts result u := by
  cases h with
  | done more last => exact .done (said.trans more) last
  | failed more step => exact .failed (said.trans more) step
  | next more step rest => exact .next (said.trans more) step rest

/-- Between two worlds these calls were made, each of a child, and none of these failed if all is
well. -/
def Starts (w v : World) (calls : List Invocation) (well : Prop) : Prop :=
  ∃ events, v.started = w.started ++ events ∧ events.filterMap Event.child? = calls ∧
    (well → ∀ e ∈ events, e.Succeeds)

lemma starts_none {well : Prop} (h : v.started = w.started) : Starts w v [] well :=
  ⟨[], by rw [h, List.append_nil], rfl, by simp⟩

lemma Starts.trans {u : World} {calls more : List Invocation} {well : Prop}
    (h : Starts w v calls well) (h' : Starts v u more well) : Starts w u (calls ++ more) well := by
  obtain ⟨events, hv, hcalls, hwell⟩ := h
  obtain ⟨others, hu, hmore, hothers⟩ := h'
  refine ⟨events ++ others, by rw [hu, hv, List.append_assoc], ?_, fun ok => ?_⟩
  · rw [List.filterMap_append, hcalls, hmore]
  · exact List.forall_mem_append.2 ⟨hwell ok, hothers ok⟩

lemma Starts.of_saying {u : World} {calls : List Invocation} {well well' : Prop}
    (h : Starts v u calls well) (said : Says w v) (hwell : well' → well) :
    Starts w u calls well' := by
  obtain ⟨events, hu, hcalls, hsucceed⟩ := h
  exact ⟨events, by rw [hu, said.started_eq], hcalls, fun h => hsucceed (hwell h)⟩

/-- An element starts the child that it calls for, which does not fail if the element does not. -/
lemma Plan.starts_of_step (hdry : config.dryRun = false) {element : Element}
    {result : Except Failure Plan}
    (h : plan.step config site (.starting config find? children) toolchain w =
      some (element, result, v)) :
    Starts w v (element.call? toolchain).toList (∃ rest, result = .ok rest) := by
  induction plan with
  | done => cases h
  | compile profile source =>
    simp only [step, Option.some.injEq, Prod.mk.injEq] at h
    obtain ⟨rfl, rfl, rfl⟩ := h
    obtain ⟨notes, hevents, hnotes, hsucceeds⟩ := Executor.exists_started hdry find?
      children w.calls (.compile toolchain profile source) w.tree
    have hchild := Event.child?_ofAnswer (.compile toolchain profile source)
      (children w.calls (.compile toolchain profile source) w.tree)
    generalize Event.ofAnswer _ _ = event at hevents hsucceeds hchild
    refine ⟨[event], ?_, by simp [hchild, Element.call?], ?_⟩
    · rw [World.started_of_append rfl, hevents, List.filter_append, hnotes.filter_eq]
      simp [hchild]
    · rintro ⟨rest, hok⟩
      rw [List.forall_mem_singleton]
      apply hsucceeds
      cases hfailure : Executor.callFailure? (.compile toolchain profile source)
        ((Executor.starting config find? children).execute w.calls
          (.compile toolchain profile source) w.tree).result with
      | none => rfl
      | some failure =>
        rw [hfailure] at hok
        cases hok
  | stage source entry =>
    simp only [step, Option.some.injEq, Prod.mk.injEq] at h
    obtain ⟨rfl, -, rfl⟩ := h
    exact starts_none (Job.keeps_started_law.stage config site source entry w)
  | ifPresent source present absent hpresent habsent =>
    rw [step] at h
    split at h
    · exact hpresent h
    · exact habsent h
  | listApps =>
    simp only [step, Option.some.injEq, Prod.mk.injEq] at h
    obtain ⟨rfl, -, rfl⟩ := h
    exact starts_none (Job.keeps_started_law.discover site w)
  | readManifest dir =>
    simp only [step, Option.some.injEq, Prod.mk.injEq] at h
    obtain ⟨rfl, -, rfl⟩ := h
    exact starts_none (Job.keeps_started_law.load site dir config.manifestScan w)

lemma Plan.Follows.starts (hdry : config.dryRun = false) {attempts : List Attempt}
    {result : Except Failure Unit}
    (h : plan.Follows config site (.starting config find? children) toolchain w attempts result v) :
    Starts w v (attempts.filterMap (·.element.call? toolchain)) (result = .ok ()) := by
  induction h with
  | done said => exact starts_none said.started_eq
  | failed said step =>
    rw [List.filterMap_eq_flatMap_toList, List.flatMap_singleton]
    refine (starts_of_step hdry step).of_saying said ?_
    rintro ⟨⟩
  | next said step _ ih =>
    rw [List.filterMap_eq_flatMap_toList, List.flatMap_cons, ← List.filterMap_eq_flatMap_toList]
    exact ((starts_of_step hdry step).of_saying said fun _ => ⟨_, rfl⟩).trans ih

/-! ## Entries of the volume -/

lemma exists_of_map_ok {ε α β : Type} {f : α → β} {result : Except ε α} {b : β}
    (h : result.map f = .ok b) : ∃ a, result = .ok a ∧ f a = b := by
  cases result with
  | error => cases h
  | ok a => exact ⟨a, rfl, Except.ok.inj h⟩

/-- Every element of a plan has a property, if directories have names that are shown. -/
def Plan.Each (P : Element → Prop) : Plan → Prop
  | .done => True
  | .compile profile source rest => P (.compile profile source) ∧ rest.Each P
  | .stage source entry rest => P (.stage source entry) ∧ rest.Each P
  | .ifPresent _ present absent => present.Each P ∧ absent.Each P
  | .listApps rest => P .listApps ∧ ∀ names : List Name,
    (rest (names.map fun name => Utf8.lossy name.bytes)).Each P
  | .readManifest dir rest => P (.readManifest dir) ∧ ∀ package, (rest package).Each P

lemma Plan.each_of_step {executor : Executor} {P : Element → Prop} {element : Element}
    {result : Except Failure Plan} (hplan : plan.Each P)
    (h : plan.step config site executor toolchain w = some (element, result, v)) :
    P element ∧ ∀ rest, result = .ok rest → rest.Each P := by
  induction plan with
  | done => cases h
  | compile profile source rest =>
    simp only [step, Option.some.injEq, Prod.mk.injEq] at h
    obtain ⟨rfl, rfl, -⟩ := h
    refine ⟨hplan.1, fun next hok => ?_⟩
    generalize Executor.callFailure? _ _ = failure? at hok
    cases failure? with
    | none =>
      cases hok
      exact hplan.2
    | some failure => cases hok
  | stage source entry rest =>
    simp only [step, Option.some.injEq, Prod.mk.injEq] at h
    obtain ⟨rfl, rfl, -⟩ := h
    refine ⟨hplan.1, fun next hok => ?_⟩
    obtain ⟨_, -, rfl⟩ := exists_of_map_ok hok
    exact hplan.2
  | ifPresent source present absent hpresent habsent =>
    rw [step] at h
    split at h
    · exact hpresent hplan.1 h
    · exact habsent hplan.2 h
  | listApps rest =>
    simp only [step, Option.some.injEq, Prod.mk.injEq] at h
    obtain ⟨rfl, rfl, -⟩ := h
    refine ⟨hplan.1, fun next hok => ?_⟩
    obtain ⟨dirs, hdirs, rfl⟩ := exists_of_map_ok hok
    obtain ⟨names, rfl, -⟩ := App.discover_spec hdirs
    exact hplan.2 names
  | readManifest dir rest =>
    simp only [step, Option.some.injEq, Prod.mk.injEq] at h
    obtain ⟨rfl, rfl, -⟩ := h
    refine ⟨hplan.1, fun next hok => ?_⟩
    obtain ⟨app, -, rfl⟩ := exists_of_map_ok hok
    exact hplan.2 app.package

lemma Plan.Follows.each {executor : Executor} {P : Element → Prop} {attempts : List Attempt}
    {result : Except Failure Unit}
    (h : plan.Follows config site executor toolchain w attempts result v) (hplan : plan.Each P) :
    ∀ a ∈ attempts, P a.element := by
  induction h with
  | done => simp
  | failed _ step => exact List.forall_mem_singleton.2 (each_of_step hplan step).1
  | next _ step _ ih =>
    obtain ⟨first, rest⟩ := each_of_step hplan step
    exact List.forall_mem_cons.2 ⟨first, ih (rest _ rfl)⟩

/-- What is staged goes to an entry of the volume. -/
def Element.Inward : Element → Prop
  | .stage _ entry => entry.isAbsolute = false
  | .compile _ _ | .listApps | .readManifest _ => True

lemma each_appsIn (config : Config) (names : List Name) :
    (Plan.appsIn config (names.map fun name => Utf8.lossy name.bytes)).Each Element.Inward := by
  induction names with
  | nil => trivial
  | cons name names ih =>
    exact ⟨trivial, fun package => ⟨trivial, (leads_shown name).relative, ih⟩⟩

lemma each_all (config : Config) : (Plan.all config).Each Element.Inward := by
  have kernel : (Plan.component (.kernel config) (.listApps (.appsIn config))).Each
      Element.Inward :=
    ⟨trivial, leads_kernel.relative, trivial, each_appsIn config⟩
  exact ⟨trivial, leads_bootloader.relative, ⟨leads_bootConfig.relative, kernel⟩, kernel⟩

lemma Plan.stage_of_step {executor : Executor} {source entry : Path} {rest : Plan}
    (h : plan.step config site executor toolchain w = some (.stage source entry, .ok rest, v)) :
    Volume.stage config site source entry w = (.ok ((Volume.root config site).join entry), v) := by
  induction plan with
  | done => cases h
  | compile => cases h
  | stage =>
    simp only [step, Option.some.injEq, Prod.mk.injEq, Element.stage.injEq] at h
    obtain ⟨⟨rfl, rfl⟩, hok, rfl⟩ := h
    obtain ⟨staged, hstaged, -⟩ := exists_of_map_ok hok
    obtain rfl := Volume.destination_of_stage (Prod.ext hstaged rfl)
    exact Prod.ext hstaged rfl
  | ifPresent source present absent hpresent habsent =>
    rw [step] at h
    split at h
    · exact hpresent h
    · exact habsent h
  | listApps => cases h
  | readManifest => cases h

lemma Plan.Follows.stage_of_mem {executor : Executor} {attempts : List Attempt}
    {result : Except Failure Unit}
    (h : plan.Follows config site executor toolchain w attempts result v) :
    ∀ a ∈ attempts, a.failure = none → ∀ source entry, a.element = .stage source entry →
      Volume.stage config site source entry a.before =
        (.ok ((Volume.root config site).join entry), a.after) := by
  induction h with
  | done => simp
  | failed => simp
  | next _ step _ ih =>
    refine List.forall_mem_cons.2 ⟨?_, ih⟩
    rintro - source entry rfl
    exact stage_of_step step

/-! ## A whole build -/

/-- A build that was carried out from some files on: it found the toolchain and followed its plan to
the end. All its children compiled a source and ended with zero, as all sources of the plan were
compiled, and every file that it staged went to an entry of the volume. -/
structure CarriedOut (config : Config) (site : Site) (executor : Executor) (tree : FileTree)
    (toolchain : Path) (attempts : List Attempt) (built : World) : Prop where
  located : executor.locate tree Layout.toolchain = .ok toolchain
  follows :
    (Plan.all config).Follows config site executor toolchain { tree } attempts (.ok ()) built
  children : ∀ event ∈ built.events, ∀ inv, event.child? = some inv → event.Succeeds ∧
    ∃ profile source, inv = .compile toolchain profile source
  compiled : ∀ a ∈ attempts, ∀ profile source, a.element = .compile profile source →
    ∃ output, .ran (.compile toolchain profile source) output (some 0) ∈ built.events
  staged : ∀ a ∈ attempts, ∀ source entry, a.element = .stage source entry →
    entry.isAbsolute = false ∧ Volume.stage config site source entry a.before =
      (.ok ((Volume.root config site).join entry), a.after)

lemma all_follows {executor : Executor} {tree : FileTree} (said : Says { tree } w) :
    (∃ failure, all config site executor w = (.error failure, w)) ∨
      ∃ toolchain attempts, executor.locate tree Layout.toolchain = .ok toolchain ∧
        (Plan.all config).Follows config site executor toolchain { tree } attempts
          (all config site executor w).1 (all config site executor w).2 := by
  have htree : w.tree = tree := said.tree_eq
  rw [all]
  cases hfind : executor.locate w.tree Layout.toolchain with
  | error failure => exact .inl ⟨failure, Job.find_bind_of_error hfind _⟩
  | ok toolchain =>
    rw [Job.find_bind_of_ok hfind]
    obtain ⟨attempts, follows⟩ := performs_all config site executor toolchain w
    exact .inr ⟨toolchain, attempts, htree ▸ hfind, follows.of_saying said⟩

section Starting

variable {tree : FileTree} {attempts : List Attempt} {result : Except Failure Unit}
  (hdry : config.dryRun = false)
  (follows : (Plan.all config).Follows config site (.starting config find? children) toolchain
    { tree } attempts result v)
include hdry follows

lemma exists_compile {event : Event} {inv : Invocation} (hmem : event ∈ v.events)
    (hchild : event.child? = some inv) :
    (result = .ok () → event.Succeeds) ∧
      ∃ profile source, inv = .compile toolchain profile source := by
  obtain ⟨events, hstarted, hcalls, hsucceed⟩ := follows.starts hdry
  have hmem : event ∈ events := by
    have := World.mem_started hmem hchild
    rwa [hstarted, World.started, List.filter_nil, List.nil_append] at this
  refine ⟨fun hok => hsucceed hok event hmem, ?_⟩
  have hcall : inv ∈ attempts.filterMap (·.element.call? toolchain) :=
    hcalls ▸ List.mem_filterMap.2 ⟨event, hmem, hchild⟩
  obtain ⟨a, -, ha⟩ := List.mem_filterMap.1 hcall
  cases helement : a.element <;> rw [helement] at ha <;> cases ha
  exact ⟨_, _, rfl⟩

lemma carriedOut (hfind : (Executor.starting config find? children).locate tree Layout.toolchain =
      .ok toolchain) (hok : result = .ok ()) :
    CarriedOut config site (.starting config find? children) tree toolchain attempts v := by
  have hnone := follows.ok_iff.1 hok
  subst hok
  refine ⟨hfind, follows, fun event hmem inv hchild => ?_, fun a ha profile source helement => ?_,
    fun a ha source entry helement => ⟨?_, ?_⟩⟩
  · obtain ⟨succeeds, compiles⟩ := exists_compile hdry follows hmem hchild
    exact ⟨succeeds rfl, compiles⟩
  · obtain ⟨events, hstarted, hcalls, hsucceed⟩ := follows.starts hdry
    have hcall : Invocation.compile toolchain profile source ∈ events.filterMap Event.child? :=
      hcalls ▸ List.mem_filterMap.2 ⟨a, ha, by rw [helement, Element.call?]⟩
    obtain ⟨event, hevent, hchild⟩ := List.mem_filterMap.1 hcall
    obtain ⟨inv, output, rfl⟩ := hsucceed rfl event hevent
    obtain rfl : inv = .compile toolchain profile source := Option.some.inj hchild
    have hmem : .ran (.compile toolchain profile source) output (some 0) ∈ v.started := by
      rw [hstarted]
      exact List.mem_append_right _ hevent
    exact ⟨output, (List.mem_filter.1 hmem).1⟩
  · have inward := follows.each (each_all config) a ha
    rwa [helement] at inward
  · exact follows.stage_of_mem a ha (hnone a ha) source entry helement

end Starting
end Children
end Build

/-! ## From the build to the hypervisor -/

namespace Program

open Build (Says)

variable {config : Config} {executor : Executor}

lemma always_say (level : Level) (step content : String) (w : World) :
    ∃ v, always (Job.say level step content) w = (.ok (), v) ∧ Says w v :=
  ⟨_, rfl, [_], rfl⟩

lemma always_detail (config : Config) (step content : String) (w : World) :
    ∃ v, always (Job.detail config step content) w = (.ok (), v) ∧ Says w v := by
  unfold Job.detail
  split
  · exact always_say _ _ _ w
  · exact ⟨w, rfl, .refl w⟩

/-- What is left when the volume is booted: the hypervisor was found and called, or not found. -/
lemma launch_ends (config : Config) (site : Site) (executor : Executor) (w : World) :
    ∃ v, Says w v ∧ ((launch config site executor w).2 = v ∨
      ∃ hypervisor, executor.locate v.tree Layout.hypervisor = .ok hypervisor ∧
        (launch config site executor w).2 =
          (executor.run (Hypervisor.invocation config hypervisor) v).2) := by
  have boots (w : World) : ∃ v, Says w v ∧ ((boot config executor w).2 = v ∨
      ∃ hypervisor, executor.locate v.tree Layout.hypervisor = .ok hypervisor ∧
        (boot config executor w).2 =
          (executor.run (Hypervisor.invocation config hypervisor) v).2) := by
    obtain ⟨v, hv, said⟩ := always_say .info "Launching" "qemu..." w
    refine ⟨v, said, ?_⟩
    rw [boot, Job.bind_of_ok hv, snd_within, Hypervisor.launch]
    cases hfind : executor.locate v.tree Layout.hypervisor with
    | error failure => exact .inl (by rw [Job.find_bind_of_error hfind])
    | ok hypervisor => exact .inr ⟨hypervisor, rfl, by rw [Job.find_bind_of_ok hfind]; rfl⟩
  rw [launch_eq, Job.bind_apply]
  dsimp only
  split
  · obtain ⟨v, hv, said⟩ := always_say .warning "Launch"
      ((Volume.root config site).display ++ " does not exist, run `ysos build` first") w
    rw [Job.bind_of_ok hv]
    obtain ⟨u, more, ends⟩ := boots v
    exact ⟨u, said.trans more, ends⟩
  · exact boots w

/-- A run that is to build and boot ends with the build, or goes on to boot. -/
lemma whole_ends (htask : config.task = .run) (site : Site) (executor : Executor) (w : World) :
    ∃ v, Says w v ∧
      ((whole config site executor w).2 = (Build.all config site executor v).2 ∨
        (Build.all config site executor v).1 = .ok () ∧
          ∃ u, Says (Build.all config site executor v).2 u ∧
            (whole config site executor w).2 = (launch config site executor u).2) := by
  obtain ⟨v, hv, said⟩ := always_detail config "Root" site.root.display w
  obtain ⟨v', hv', said'⟩ := always_detail config "Profile" config.profile.dir v
  refine ⟨v', said.trans said', ?_⟩
  rw [whole, Job.bind_of_ok hv, task, htask]
  dsimp only
  rw [build, bind_assoc, Job.bind_of_ok hv', bind_assoc]
  rcases hall : Build.all config site executor v' with ⟨failure | _, built⟩
  · have hbuild : within "build failed" (Build.all config site executor) v' =
        (.error ⟨"build failed", failure⟩, built) := by rw [within, hall]
    rw [Job.bind_of_error hbuild]
    exact .inl rfl
  · have hbuild : within "build failed" (Build.all config site executor) v' = (.ok (), built) := by
      rw [within, hall]
    obtain ⟨u, hu, more⟩ := always_say .info "Done"
      ("boot volume ready at " ++ (Volume.root config site).display) built
    rw [Job.bind_of_ok hbuild, Job.bind_of_ok hu]
    exact .inr ⟨rfl, u, more, rfl⟩

/-- The line that reports a failure is all that is left to be written. -/
lemma events_complete (config : Config) (site : Site) (executor : Executor) (tree : FileTree) :
    ∃ notes, (complete config site executor tree).events =
      (whole config site executor { tree }).2.events ++ notes ∧ Childless notes := by
  rw [complete]
  rcases whole config site executor { tree } with ⟨report | _, w⟩
  · exact ⟨_, rfl, by simp [Childless, Event.child?]⟩
  · exact ⟨[], by simp, by simp [Childless]⟩

end Program

/-! ## The hypervisor -/

section Hypervisor

open Build (CarriedOut)

variable {config : Config} {site : Site} {find? : FileTree → String → Option Path}
  {children : Children} {w : World} {tree : FileTree}

lemma compile_ne_invocation (toolchain : Path) (profile : Profile) (source hypervisor : Path) :
    Invocation.compile toolchain profile source ≠ Hypervisor.invocation config hypervisor := by
  intro heq
  have first := congrArg (fun inv : Invocation => inv.args.head?) heq
  have : Utf8.encode "build" = Utf8.encode "-bios" := Option.some.inj first
  exact absurd this (by decide)

lemma invocation_injective (config : Config) : (Hypervisor.invocation config).Injective := by
  rintro ⟨bytes⟩ ⟨bytes'⟩ heq
  exact congrArg Path.mk (congrArg Invocation.program heq)

/-- Behind `-drive` stands the volume's path as it is in the configuration. In the directory that
the hypervisor is started in, it leads to the volume. -/
lemma drive_leads_to_volume (config : Config) (site : Site) (hypervisor : Path) :
    ∃ volume, (Hypervisor.invocation config hypervisor).Drives volume ∧
      (Machine.workdir site (Hypervisor.invocation config hypervisor)).join volume =
        Volume.root config site := by
  refine ⟨config.boot, ⟨[Utf8.encode "-bios", config.bios.bytes] ++
    ["-net", "none"].map Utf8.encode ++ (tokens config.output).map Utf8.encode ++
    ["-m", config.memory].map Utf8.encode,
    Utf8.encode "-snapshot" :: (DebugHook.ofConfig config).args.map Utf8.encode, ?_, ?_⟩, rfl⟩
  · rw [Hypervisor.invocation, Invocation.args_addArgs, Invocation.args_new, List.nil_append,
      Hypervisor.arguments, List.append_assoc]
    rfl
  · rw [List.mem_cons, not_or]
    refine ⟨by decide, fun hmem => ?_⟩
    obtain ⟨arg, harg, heq⟩ := List.mem_map.1 hmem
    obtain rfl : arg = "-drive" := Utf8.encode_injective heq
    cases hook : DebugHook.ofConfig config <;> rw [hook] at harg
    · cases harg
    · simp only [DebugHook.args, List.mem_cons, List.not_mem_nil, or_false] at harg
      rcases harg with h | h | h
      · exact absurd h (by decide)
      · have := congrArg String.toList h
        simp at this
      · exact absurd h (by decide)
    · revert harg
      decide

/-- Whatever comes of a build, its children are those that compile. -/
lemma only_compiles (hdry : config.dryRun = false) (said : Build.Says { tree } w) {event : Event}
    {inv : Invocation}
    (hmem : event ∈ (Build.all config site (.starting config find? children) w).2.events)
    (hchild : event.child? = some inv) :
    ∃ toolchain profile source, find? tree Layout.toolchain = some toolchain ∧
      inv = .compile toolchain profile source := by
  rcases Build.all_follows said with ⟨failure, heq⟩ | ⟨toolchain, attempts, hfind, follows⟩
  · rw [heq] at hmem
    have := World.mem_started hmem hchild
    rw [said.started_eq] at this
    cases this
  · obtain ⟨-, profile, source, hinv⟩ := Build.exists_compile hdry follows hmem hchild
    exact ⟨toolchain, profile, source, Executor.find?_of_locate hfind, hinv⟩

/-- A run that is to build and boot comes to the hypervisor once its build is carried out, or not
at all. -/
lemma run_ends (htask : config.task = .run) (hdry : config.dryRun = false) (site : Site)
    (find? : FileTree → String → Option Path) (children : Children) (tree : FileTree) :
    let executor := Executor.starting config find? children
    let done := Program.complete config site executor tree
    (∀ event ∈ done.events, ∀ inv, event.child? = some inv →
      ∃ toolchain profile source, find? tree Layout.toolchain = some toolchain ∧
        inv = .compile toolchain profile source) ∨
    ∃ toolchain attempts built notes hypervisor rest,
      let inv := Hypervisor.invocation config hypervisor
      done.events = (built.events ++ notes) ++
          .ofAnswer inv (children built.calls inv built.tree) :: rest ∧
        Childless notes ∧ Childless rest ∧
        CarriedOut config site executor tree toolchain attempts built ∧
        find? built.tree Layout.hypervisor = some hypervisor := by
  intro executor done
  obtain ⟨w, said, hwhole⟩ := Program.whole_ends htask site executor { tree }
  obtain ⟨line, hdone, hline⟩ := Program.events_complete config site executor tree
  have silent {notes : List Event} (hnotes : Childless notes)
      (h : done.events = (Build.all config site executor w).2.events ++ notes) :
      ∀ event ∈ done.events, ∀ inv, event.child? = some inv →
        ∃ toolchain profile source, find? tree Layout.toolchain = some toolchain ∧
          inv = .compile toolchain profile source := by
    intro event hmem inv hchild
    rw [h, List.mem_append] at hmem
    rcases hmem with hmem | hmem
    · exact only_compiles hdry said hmem hchild
    · rw [hnotes event hmem] at hchild
      cases hchild
  rcases hwhole with hwhole | ⟨hok, u, more, hwhole⟩
  · exact .inl (silent hline (hwhole ▸ hdone))
  obtain ⟨v, yetMore, hlaunch⟩ := Program.launch_ends config site executor u
  obtain ⟨messages, rfl⟩ := more.trans yetMore
  rw [hwhole] at hdone
  rcases hlaunch with hlaunch | ⟨hypervisor, hfind, hlaunch⟩
  · rw [hlaunch, List.append_assoc] at hdone
    exact .inl (silent ((childless_said messages).append hline) hdone)
  rcases Build.all_follows said with ⟨failure, heq⟩ | ⟨toolchain, attempts, htoolchain, follows⟩
  · rw [heq] at hok
    cases hok
  have carried := Build.carriedOut hdry follows htoolchain hok
  obtain ⟨notes, hevents, hnotes, -⟩ := Executor.exists_started hdry find? children
    (Build.all config site executor w).2.calls (Hypervisor.invocation config hypervisor)
    (Build.all config site executor w).2.tree
  rw [hlaunch, Executor.run_apply] at hdone
  refine .inr ⟨toolchain, attempts, _, messages.map .said ++ notes, hypervisor, line, ?_,
    (childless_said messages).append hnotes, hline, carried, Executor.find?_of_locate hfind⟩
  rw [hdone, hevents]
  simp only [List.append_assoc, List.singleton_append]

/-- If the hypervisor is started, it is once, behind a build that was carried out, and nothing is
started behind it. -/
lemma hypervisor_ends_run (htask : config.task = .run) (hdry : config.dryRun = false)
    {before after : List Event} {event : Event} {hypervisor : Path}
    (hsplit : (Program.complete config site (.starting config find? children) tree).events =
      before ++ event :: after)
    (hchild : event.child? = some (Hypervisor.invocation config hypervisor)) :
    Childless after ∧ ∃ toolchain attempts built notes,
      CarriedOut config site (.starting config find? children) tree toolchain attempts built ∧
        before = built.events ++ notes ∧ Childless notes ∧
        find? built.tree Layout.hypervisor = some hypervisor ∧
        event = .ofAnswer (Hypervisor.invocation config hypervisor)
          (children built.calls (Hypervisor.invocation config hypervisor) built.tree) := by
  rcases run_ends htask hdry site find? children tree with
    compiles | ⟨toolchain, attempts, built, notes, hypervisor', rest, hdone, hnotes, hrest, carried,
      hfind⟩
  · obtain ⟨toolchain, profile, source, -, heq⟩ :=
      compiles event (hsplit ▸ List.mem_append_right _ List.mem_cons_self) _ hchild
    exact absurd heq.symm (compile_ne_invocation toolchain profile source hypervisor)
  have hbuilt : ∀ e ∈ built.events ++ notes,
      ¬e.child? = some (Hypervisor.invocation config hypervisor) := by
    intro e hmem heq
    rcases List.mem_append.1 hmem with hmem | hmem
    · obtain ⟨-, profile, source, hinv⟩ := carried.children e hmem _ heq
      exact compile_ne_invocation toolchain profile source hypervisor hinv.symm
    · rw [hnotes e hmem] at heq
      cases heq
  have hrest' : ∀ e ∈ rest, ¬e.child? = some (Hypervisor.invocation config hypervisor) := by
    intro e hmem heq
    rw [hrest e hmem] at heq
    cases heq
  obtain ⟨rfl, rfl, rfl⟩ := eq_of_append_cons_eq
    (p := fun e : Event => e.child? = some (Hypervisor.invocation config hypervisor))
    hbuilt hrest' hchild (hdone.symm.trans hsplit)
  obtain rfl : hypervisor' = hypervisor :=
    invocation_injective config (Option.some.inj ((Event.child?_ofAnswer ..).symm.trans hchild))
  exact ⟨hrest, toolchain, attempts, built, notes, carried, rfl, hnotes, hfind, rfl⟩

/-- A run that is to build and boot starts children that compile and the hypervisor, and no
others. Nothing is started behind the hypervisor. It is started when the build was carried out from
the files of the run, on the files that the build leaves, and its drive is the volume that the
entries were staged on. The children may behave in any way. -/
theorem hypervisor_boots_what_was_built (htask : config.task = .run) (hdry : config.dryRun = false)
    (site : Site) (find? : FileTree → String → Option Path) (children : Children)
    (tree : FileTree) :
    let executor := Executor.starting config find? children
    let done := Program.complete config site executor tree
    (∀ event ∈ done.events, ∀ inv, event.child? = some inv →
      (∃ toolchain profile source, find? tree Layout.toolchain = some toolchain ∧
        inv = .compile toolchain profile source) ∨
      ∃ hypervisor, inv = Hypervisor.invocation config hypervisor) ∧
    ∀ before event after hypervisor, done.events = before ++ event :: after →
      let inv := Hypervisor.invocation config hypervisor
      event.child? = some inv →
        Childless after ∧
        (∃ toolchain attempts built notes,
          CarriedOut config site executor tree toolchain attempts built ∧
            before = built.events ++ notes ∧ Childless notes ∧
            find? built.tree Layout.hypervisor = some hypervisor ∧
            event ∈ (executor.execute built.calls inv built.tree).events) ∧
        ∃ volume, inv.Drives volume ∧
          (Machine.workdir site inv).join volume = Volume.root config site := by
  intro executor done
  constructor
  · rcases run_ends htask hdry site find? children tree with
      compiles | ⟨toolchain, attempts, built, notes, hypervisor, rest, hdone, hnotes, hrest,
        carried, hfind⟩
    · exact fun event hmem inv hinv => .inl (compiles event hmem inv hinv)
    intro event hmem inv hinv
    rw [hdone, List.mem_append, List.mem_append, List.mem_cons] at hmem
    rcases hmem with (hmem | hmem) | rfl | hmem
    · obtain ⟨-, profile, source, rfl⟩ := carried.children event hmem inv hinv
      exact .inl ⟨toolchain, profile, source, Executor.find?_of_locate carried.located, rfl⟩
    · rw [hnotes event hmem] at hinv
      cases hinv
    · exact .inr ⟨hypervisor, Option.some.inj (hinv.symm.trans (Event.child?_ofAnswer ..))⟩
    · rw [hrest event hmem] at hinv
      cases hinv
  · intro before event after hypervisor hsplit inv hinv
    obtain ⟨hafter, toolchain, attempts, built, notes, carried, hbefore, hnotes, hfind, rfl⟩ :=
      hypervisor_ends_run htask hdry hsplit hinv
    refine ⟨hafter, ⟨toolchain, attempts, built, notes, carried, hbefore, hnotes, hfind, ?_⟩,
      drive_leads_to_volume config site hypervisor⟩
    obtain ⟨_, hevents, -⟩ :=
      Executor.exists_started hdry find? children built.calls inv built.tree
    rw [hevents]
    exact List.mem_append_right _ (List.mem_singleton.2 rfl)

/-- On a machine, the hypervisor is started in a directory from which the drive that it is given
leads to the volume, on the files that the build leaves. -/
theorem machine_boots_what_was_built (m : Machine) (htask : config.task = .run)
    (hdry : config.dryRun = false) (site : Site) (tree : FileTree) :
    let executor := m.executor config site
    let done := Program.complete config site executor tree
    ∀ before event after hypervisor, done.events = before ++ event :: after →
      let inv := Hypervisor.invocation config hypervisor
      event.child? = some inv →
        Childless after ∧
        ∃ toolchain attempts built notes dir volume,
          CarriedOut config site executor tree toolchain attempts built ∧
            before = built.events ++ notes ∧ Childless notes ∧
            event = .ofAnswer inv (m.spawn built.tree site.here inv dir) ∧
            inv.Drives volume ∧ dir.join volume = Volume.root config site := by
  intro executor done before event after hypervisor hsplit inv hinv
  obtain ⟨hafter, toolchain, attempts, built, notes, carried, hbefore, hnotes, -, hevent⟩ :=
    hypervisor_ends_run htask hdry hsplit hinv
  obtain ⟨volume, drives, hroot⟩ := drive_leads_to_volume config site hypervisor
  exact ⟨hafter, toolchain, attempts, built, notes, Machine.workdir site inv, volume, carried,
    hbefore, hnotes, hevent, drives, hroot⟩

end Hypervisor

namespace Build.Twins

/-- The twins are to boot from a volume that lies elsewhere. -/
def booting : Config := { task := .run, boot := .ofString "/mnt" }

/-- A run with children that do nothing. -/
def booted : Program.Completion :=
  Program.complete booting site (.starting booting (fun _ tool => some (.ofString tool))
    fun _ _ tree => .ok { tree }) ready.tree

lemma booted_evaluated :
    booted.events.getLast?.bind Event.child? =
      some (Hypervisor.invocation booting (.ofString Layout.hypervisor)) := by
  decide +kernel

/-- The hypervisor is the last child of the twins. -/
theorem hypervisor_boots_what_was_built_twins :
    let executor := Executor.starting booting (fun _ tool => some (.ofString tool))
      fun _ _ tree => .ok { tree }
    let inv := Hypervisor.invocation booting (.ofString Layout.hypervisor)
    booting.task = .run ∧ booting.dryRun = false ∧
      ∃ before event, booted.events = before ++ [event] ∧ event.child? = some inv ∧
        (∃ toolchain attempts built notes,
          CarriedOut booting site executor ready.tree toolchain attempts built ∧
            before = built.events ++ notes ∧ Childless notes ∧
            event ∈ (executor.execute built.calls inv built.tree).events) ∧
        ∃ volume, inv.Drives volume ∧
          (Machine.workdir site inv).join volume =
            Volume.root booting site := by
  intro executor inv
  obtain ⟨event, hlast, hchild⟩ := Option.bind_eq_some_iff.1 booted_evaluated
  obtain ⟨before, hsplit⟩ := List.getLast?_eq_some_iff.1 hlast
  obtain ⟨-, runs⟩ := @hypervisor_boots_what_was_built booting rfl rfl site
    (fun _ tool => some (.ofString tool)) (fun _ _ tree => .ok { tree }) ready.tree
  obtain ⟨-, ⟨toolchain, attempts, built, notes, carried, hbefore, hnotes, -, hexecute⟩, drive⟩ :=
    runs before event [] (.ofString Layout.hypervisor) hsplit hchild
  exact ⟨rfl, rfl, before, event, hsplit, hchild,
    ⟨toolchain, attempts, built, notes, carried, hbefore, hnotes, hexecute⟩, drive⟩

end Build.Twins
end BootVolume
