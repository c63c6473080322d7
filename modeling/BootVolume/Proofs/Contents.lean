import Mathlib.Data.List.Nodup
import BootVolume.Proofs.Advancing
import BootVolume.Proofs.Plan

/-!
# The contents of the volume

After a build that succeeds, each entry of the volume is a file like the artifact of its component
was right after that was compiled, whatever became of the artifact later
(`volume_holds_artifacts`).
-/

namespace BootVolume.Build

open FileTree Layout

/-- What a build of the volume can rely on: there are no links, the volume is apart from the sources
and from the target directory, calls write nothing but files below that directory, the names of
applications and of their packages are such as paths are made of, and no entry of the volume is a
directory. -/
structure Orderly (config : Config) (site : Site) (executor : Executor) (w : World) (root : Place) :
    Prop where
  earnest : config.dryRun = false
  linkless : w.tree.Linkless
  rooted : site.root.Spells root
  boot : config.boot.Normal
  apart (volume : Place) : (Volume.root config site).Spells volume →
    Apart volume (root ++ sourcesPlace) ∧ Apart volume (root ++ targetPlace)
  confined (calls : List Invocation) (inv : Invocation) (tree : FileTree) :
    let after := (executor.execute calls inv tree).tree
    (∀ r, ¬root ++ targetPlace <+: r → after.get? r = tree.get? r) ∧
      (tree.Linkless → after.Linkless)
  texts (listed : List Name) :
    w.tree.list site.here (site.path (.ofString appsSource)) = .ok listed →
      ∀ name ∈ listed,
        w.tree.isDir site.here ((site.path (.ofString appsSource)).join ⟨name.bytes⟩) = true →
          ∃ text, name.bytes = Utf8.encode text
  packages (dirs : List String) : (App.discover site w).1 = .ok dirs → ∀ dir ∈ dirs, ∀ app,
    (App.load site dir config.manifestScan w).1 = .ok app → (Path.ofString app.package).Normal
  free (entry : String) : entry ∈ [bootloaderEntry, bootConfigEntry, kernelEntry] →
    w.tree.isDir site.here (Volume.destination config site (.ofString entry)) = false
  freeApps (dirs : List String) : (App.discover site w).1 = .ok dirs → ∀ dir ∈ dirs,
    w.tree.isDir site.here (Volume.destination config site (appEntry dir)) = false

/-- The entry of a component is a file like its artifact was right after the component was
compiled. -/
def Delivered (config : Config) (site : Site) (attempts : List Attempt) (final : FileTree)
    (c : Component) : Prop :=
  ∃ called ∈ attempts, called.element = .compile c.profile c.source ∧ ∃ content executable,
    called.after.tree.HasFile site.here (site.path c.artifact) content executable ∧
      final.HasFile site.here (Volume.destination config site c.entry) content executable

/-- The boot configuration of the volume is a file like that of the kernel, if this has one; else
it is what it was. -/
def Configured (config : Config) (site : Site) (before final : FileTree) : Prop :=
  let source := site.path (.ofString bootConfigSource)
  let entry := Volume.destination config site (.ofString bootConfigEntry)
  if before.exists? site.here source then
    ∃ content executable, before.HasFile site.here source content executable ∧
      final.HasFile site.here entry content executable
  else
    ∀ content executable, final.HasFile site.here entry content executable ↔
      before.HasFile site.here entry content executable

/-! ## Artifacts -/

section Artifacts

variable {config : Config} {site : Site}

lemma leads_bootloader_artifact
    (hzero : 0 ∉ (site.path Component.bootloader.artifact).bytes) :
    ∃ way, Component.bootloader.artifact.Leads (targetPlace ++ way) := by
  have htarget : (Path.ofString bootloaderTarget).Leads
      [⟨Utf8.encode bootloaderTarget, by decide⟩] := ⟨by decide, by decide⟩
  have hname : (Path.ofString (bootloaderPackage ++ ".efi")).components =
      [Utf8.encode "ysos_boot.efi"].map .name := by decide
  exact leads_artifact .release htarget (Path.normal_of_components hname) hzero

lemma leads_kernel_artifact
    (hzero : 0 ∉ (site.path (Component.kernel config).artifact).bytes) :
    ∃ way, (Component.kernel config).artifact.Leads (targetPlace ++ way) := by
  have htarget : (Path.ofString kernelTarget).Leads [⟨Utf8.encode kernelTarget, by decide⟩] :=
    ⟨by decide, by decide⟩
  have hname : (Path.ofString kernelPackage).components =
      [Utf8.encode kernelPackage].map .name := by decide
  exact leads_artifact config.profile htarget (Path.normal_of_components hname) hzero

lemma leads_app_artifact {dir package : String} (h : (Path.ofString package).Normal)
    (hzero : 0 ∉ (site.path (Component.app config dir package).artifact).bytes) :
    ∃ way, (Component.app config dir package).artifact.Leads (targetPlace ++ way) := by
  have htarget : (Path.ofString appTarget).Leads [⟨Utf8.encode appTarget, by decide⟩] :=
    ⟨by decide, by decide⟩
  exact leads_artifact config.profile htarget h hzero

end Artifacts

/-! ## Elements of the plan -/

section Elements

variable {config : Config} {site : Site} {executor : Executor} {toolchain : Path} {w₀ w v : World}
  {root volume : Place} {plan : Plan} {attempts : List Attempt}

lemma Delivered.mono {final : FileTree} {c : Component} {more : List Attempt}
    (h : Delivered config site attempts final c) (hmore : attempts ⊆ more) :
    Delivered config site more final c := by
  obtain ⟨called, hcalled, rest⟩ := h
  exact ⟨called, hmore hcalled, rest⟩

lemma Says.tree_eq {u : World} (h : Says w u) : u.tree = w.tree := by
  obtain ⟨messages, rfl⟩ := h
  rfl

lemma Plan.Follows.exists_next {element : Element} {answer : World → Except Failure Plan}
    {after : World → World}
    (follows : plan.Follows config site executor toolchain w attempts (.ok ()) v)
    (hstep : ∀ u, plan.step config site executor toolchain u =
      some (element, answer u, after u)) :
    ∃ before rest tail, before.tree = w.tree ∧ answer before = .ok rest ∧
      attempts = ⟨element, before, after before, none⟩ :: tail ∧
      rest.Follows config site executor toolchain (after before) tail (.ok ()) v := by
  cases follows with
  | done _ last =>
    rw [hstep] at last
    cases last
  | @next _ rest _ before _ _ _ tail _ said step follows =>
    rw [hstep, Option.some.injEq, Prod.mk.injEq, Prod.mk.injEq] at step
    obtain ⟨rfl, hanswer, rfl⟩ := step
    exact ⟨before, rest, tail, said.tree_eq, hanswer, rfl, follows⟩

/-- An element that only looks at the files: the run goes on from files like these. -/
lemma Plan.Follows.exists_answer {α : Type} {element : Element} {question : Job α}
    {next : α → Plan}
    (follows : plan.Follows config site executor toolchain w attempts (.ok ()) v)
    (hstep : ∀ u, plan.step config site executor toolchain u =
      some (element, (question u).1.map next, (question u).2))
    (hcall : element.call? toolchain = none) (hkeeps : Job.Keeps World.tree question)
    (hsame : ∀ u : World, u.tree = w.tree → (question w).1 = (question u).1) :
    ∃ a rest u, (question w).1 = .ok a ∧ u.tree = w.tree ∧ rest ⊆ attempts ∧
      attempts.filterMap (·.element.call? toolchain) =
        rest.filterMap (·.element.call? toolchain) ∧
      (next a).Follows config site executor toolchain u rest (.ok ()) v := by
  obtain ⟨before, rest, tail, hbefore, hanswer, rfl, further⟩ := follows.exists_next hstep
  cases hasked : (question before).1 with
  | error failure =>
    rw [hasked] at hanswer
    cases hanswer
  | ok a =>
    rw [hasked] at hanswer
    obtain rfl : next a = rest := Except.ok.inj hanswer
    exact ⟨a, tail, _, (hsame before hbefore).trans hasked, (hkeeps before).trans hbefore,
      List.subset_cons_self _ _, List.filterMap_cons_none hcall, further⟩

lemma listApps_follows {next : List String → Plan}
    (follows : (Plan.listApps next).Follows config site executor toolchain w attempts (.ok ()) v) :
    ∃ dirs rest u, (App.discover site w).1 = .ok dirs ∧ u.tree = w.tree ∧ rest ⊆ attempts ∧
      attempts.filterMap (·.element.call? toolchain) =
        rest.filterMap (·.element.call? toolchain) ∧
      (next dirs).Follows config site executor toolchain u rest (.ok ()) v := by
  refine follows.exists_answer (fun _ => rfl) rfl (Job.overlooks_tree.law.discover site) ?_
  intro u hu
  rw [App.discover_apply, App.discover_apply, hu]

lemma readManifest_follows {dir : String} {next : String → Plan}
    (follows : (Plan.readManifest dir next).Follows config site executor toolchain w attempts
      (.ok ()) v) :
    ∃ app rest u, (App.load site dir config.manifestScan w).1 = .ok app ∧ u.tree = w.tree ∧
      rest ⊆ attempts ∧ attempts.filterMap (·.element.call? toolchain) =
        rest.filterMap (·.element.call? toolchain) ∧
      (next app.package).Follows config site executor toolchain u rest (.ok ()) v := by
  refine follows.exists_answer (fun _ => rfl) rfl (Job.overlooks_tree.law.load site dir _) ?_
  intro u hu
  rw [App.load_apply, App.load_apply, hu]

variable (orderly : Orderly config site executor w₀ root)
include orderly

lemma compile_follows (volume : Place) {profile : Profile} {source : Path} (hw : w.tree.Linkless)
    (follows : (Plan.compile profile source plan).Follows config site executor toolchain w attempts
      (.ok ()) v) :
    ∃ called rest, attempts = called :: rest ∧ called.element = .compile profile source ∧
      plan.Follows config site executor toolchain called.after rest (.ok ()) v ∧
      Advances root volume [] w.tree called.after.tree := by
  obtain ⟨before, rest, tail, hbefore, hanswer, rfl, further⟩ := follows.exists_next fun _ => rfl
  rw [← hbefore] at hw ⊢
  obtain ⟨houtside, hlinkless⟩ :=
    orderly.confined before.calls (.compile toolchain profile source) before.tree
  obtain rfl : plan = rest := by
    cases hfailure : Executor.callFailure? (.compile toolchain profile source)
      (executor.execute before.calls (.compile toolchain profile source) before.tree).result <;>
      rw [hfailure] at hanswer <;> cases hanswer
    rfl
  refine ⟨_, tail, rfl, rfl, further, by simp, fun r hloose _ => ?_, fun _ => hlinkless hw⟩
  exact .inl (houtside r hloose)

/-- The volume lies somewhere once a component is delivered. -/
lemma exists_ground {c : Component} (hw : w.tree.Linkless) (hentry : c.entry.isAbsolute = false)
    (follows : (Plan.component c plan).Follows config site executor toolchain w attempts (.ok ())
      v) :
    ∃ volume, Ground config site root volume := by
  obtain ⟨called, rest, -, -, follows, -⟩ := compile_follows orderly [] hw follows
  obtain ⟨before, rest, tail, -, hanswer, -, -⟩ := follows.exists_next fun _ => rfl
  rcases hstage : Volume.stage config site c.artifact c.entry before with ⟨failure | staged, u⟩
  · rw [hstage] at hanswer
    cases hanswer
  have hzero := (Volume.zero_not_mem_of_stage orderly.earnest hstage).2
  have hzero := (Path.zero_not_mem_of_join hentry hzero).1
  have hzero := (Path.zero_not_mem_of_join orderly.boot.relative hzero).2
  obtain ⟨way, hway⟩ := orderly.boot.exists_leads hzero
  have mounted : (Volume.root config site).Spells (root ++ way) := orderly.rooted.join hway
  obtain ⟨sources, target⟩ := orderly.apart _ mounted
  exact ⟨root ++ way, orderly.rooted, mounted, sources, target⟩

variable (ground : Ground config site root volume)
include ground

lemma stage_follows {source entry : Path} {p : Place} (hentry : IsEntry p) (hleads : entry.Leads p)
    (hw : w.tree.Linkless)
    (hsource : 0 ∉ (site.path source).bytes →
      ∃ origin, (site.path source).Spells origin ∧ ¬volume <+: origin)
    (hfree : w.tree.isDir site.here (Volume.destination config site entry) = false)
    (follows : (Plan.stage source entry plan).Follows config site executor toolchain w attempts
      (.ok ()) v) :
    ∃ staged rest u, attempts = staged :: rest ∧ staged.element = .stage source entry ∧
      plan.Follows config site executor toolchain u rest (.ok ()) v ∧
      Advances root volume [p] w.tree u.tree ∧ ∃ content executable,
        w.tree.HasFile site.here (site.path source) content executable ∧
        u.tree.get? (volume ++ p) = some (.file content executable) ∧
        ∀ final : FileTree, final.Linkless →
          final.get? (volume ++ p) = some (.file content executable) →
            final.HasFile site.here (Volume.destination config site entry) content executable := by
  obtain ⟨before, rest, tail, hbefore, hanswer, rfl, further⟩ := follows.exists_next fun _ => rfl
  rw [← hbefore] at hw hfree ⊢
  rcases hstage : Volume.stage config site source entry before with ⟨failure | staged, u⟩
  · rw [hstage] at hanswer
    cases hanswer
  rw [hstage] at hanswer further
  obtain rfl : plan = rest := Except.ok.inj hanswer
  obtain ⟨origin, hspells, houtside⟩ :=
    hsource (Volume.zero_not_mem_of_stage orderly.earnest hstage).1
  have hne : origin ≠ volume ++ p := fun heq => houtside (heq ▸ List.prefix_append _ _)
  obtain ⟨hu, frame, content, executable, hfound, hcopied, reached⟩ := Volume.stage_spec
    orderly.earnest hw hspells (ground.spells hleads) hne hfree hstage (root ++ targetPlace)
  refine ⟨_, tail, u, rfl, rfl, further, advances_of_frame hentry frame hu, content, executable,
    ⟨origin, hfound⟩, hcopied, fun final hfinal => reached final hfinal content executable⟩

/-- A component: its call is the first attempt, and its entry then stays as the artifact was after
that call, as long as nothing else is staged there. -/
lemma component_follows (c : Component) {p : Place} (hentry : IsEntry p) (hleads : c.entry.Leads p)
    (hw : w.tree.Linkless)
    (hartifact : 0 ∉ (site.path c.artifact).bytes →
      ∃ way, c.artifact.Leads (targetPlace ++ way))
    (hfree : w.tree.isDir site.here (Volume.destination config site c.entry) = false)
    (follows : (Plan.component c plan).Follows config site executor toolchain w attempts (.ok ())
      v) :
    ∃ rest u, rest ⊆ attempts ∧
      attempts.filterMap (·.element.call? toolchain) =
        .compile toolchain c.profile c.source :: rest.filterMap (·.element.call? toolchain) ∧
      plan.Follows config site executor toolchain u rest (.ok ()) v ∧
      Advances root volume [p] w.tree u.tree ∧ w.tree.get? root = some .dir ∧
      u.tree.get? (volume ++ p) ≠ none ∧
      ∀ final : FileTree, final.Linkless → final.get? (volume ++ p) = u.tree.get? (volume ++ p) →
        Delivered config site attempts final c := by
  obtain ⟨called, attempts, rfl, hcalled, follows, advances⟩ :=
    compile_follows orderly volume hw follows
  have hsource (hzero : 0 ∉ (site.path c.artifact).bytes) :
      ∃ way, (site.path c.artifact).Spells (root ++ (targetPlace ++ way)) := by
    obtain ⟨way, hway⟩ := hartifact hzero
    exact ⟨way, orderly.rooted.join hway⟩
  have htarget (way : Place) : root ++ targetPlace <+: root ++ (targetPlace ++ way) := by
    rw [← List.append_assoc]
    exact List.prefix_append _ _
  obtain ⟨staged, rest, u, rfl, hstaged, follows, advances', content, executable, hfile, hcopied,
    reached⟩ := stage_follows orderly ground hentry hleads (advances.linkless hw)
      (fun hzero =>
        have ⟨way, hway⟩ := hsource hzero
        ⟨_, hway, fun h => ground.target.not_both h (htarget way)⟩)
      (advances.isDir_eq_false ground hw hentry (by simp) hleads hfree) follows
  have hroot : w.tree.get? root = some .dir := by
    obtain ⟨place, hfind⟩ := hfile
    obtain ⟨way, hway⟩ := hsource (zero_not_mem_of_find hfind)
    have horigin := (get?_of_find (advances.linkless hw) hway hfind).2
    have hafter : called.after.tree.get? root = some .dir :=
      get?_eq_dir_of_above (List.prefix_append root (targetPlace ++ way)) (by simp [targetPlace])
        (by simp [horigin])
    have houtside : ¬root ++ targetPlace <+: root :=
      fun h => absurd h.length_le (by simp [targetPlace])
    rcases advances.frame root houtside (by simp) with heq | ⟨-, -, place, hplace, -⟩
    · exact heq ▸ hafter
    · cases hplace
  refine ⟨rest, u, ?_, ?_, follows, advances.trans advances', hroot, by simp [hcopied], ?_⟩
  · exact fun a ha => List.mem_cons_of_mem _ (List.mem_cons_of_mem _ ha)
  · simp [hcalled, hstaged, Element.call?]
  · intro final hfinal hsame
    exact ⟨called, List.mem_cons_self, hcalled, content, executable, hfile,
      reached final hfinal (hsame.trans hcopied)⟩

/-- The applications: each entry is as the artifact of the package was after its own call. -/
lemma appsIn_follows {names : List Name} (hnodup : names.Nodup)
    (htexts : ∀ name ∈ names, ∃ text, name.bytes = Utf8.encode text)
    (hpackages : ∀ name ∈ names, ∀ app,
      (App.load site (Utf8.lossy name.bytes) config.manifestScan w₀).1 = .ok app →
        (Path.ofString app.package).Normal)
    (hw : w.tree.Linkless) (hroot : w.tree.get? root = some .dir)
    (hsame : SameAt (root ++ sourcesPlace) w₀.tree w.tree)
    (hfree : ∀ name ∈ names, w.tree.isDir site.here
      (Volume.destination config site (appEntry (Utf8.lossy name.bytes))) = false)
    (follows : (Plan.appsIn config (names.map fun name => Utf8.lossy name.bytes)).Follows config
      site executor toolchain w attempts (.ok ()) v) :
    Advances root volume (names.map appPlace) w.tree v.tree ∧
      attempts.filterMap (·.element.call? toolchain) = names.map (fun name =>
        .compile toolchain config.profile (appSource (Utf8.lossy name.bytes))) ∧
      ∀ name ∈ names, ∃ app,
        (App.load site (Utf8.lossy name.bytes) config.manifestScan w₀).1 = .ok app ∧
          Delivered config site attempts v.tree
            (.app config (Utf8.lossy name.bytes) app.package) := by
  -- The sources are at every step what they were first, and later steps keep what one has staged.
  induction names generalizing w attempts with
  | nil =>
    cases follows with
    | done said _ =>
      rw [said.tree_eq]
      exact ⟨advances_refl _ _ _, rfl, by simp⟩
    | next _ step => cases step
  | cons name names ih =>
    have htext := htexts name List.mem_cons_self
    rw [List.map_cons, Plan.appsIn] at follows
    obtain ⟨app, tail, loaded, hloaded, htree, htail, hquiet, follows⟩ :=
      readManifest_follows follows
    obtain ⟨way, hmanifest⟩ := leads_appManifest htext
    have hload := (App.load_congr orderly.linkless hw hsame (ground.rooted.join hmanifest)
      (by simp [sourcesPlace, appsPlace]) config.manifestScan).trans hloaded
    rw [← htree] at hw hroot hsame hfree ⊢
    have hpackage := hpackages name List.mem_cons_self app hload
    obtain ⟨rest, u, hrest, hcalls, follows, advances, -, hthere, delivered⟩ :=
      component_follows orderly ground (.app config (Utf8.lossy name.bytes) app.package)
        (.app name) (leads_appEntry htext) hw (leads_app_artifact hpackage)
        (hfree name List.mem_cons_self) follows
    have hu := advances.linkless hw
    have husame := advances.sameAt ground hroot
    obtain ⟨hname, hnodup⟩ := List.nodup_cons.1 hnodup
    have hstaged {other : Name} (hother : other ∈ names) : appPlace other ∉ [appPlace name] := by
      rintro hmem
      obtain rfl : other = name := by simpa [appPlace] using hmem
      exact hname hother
    obtain ⟨later, hlater, rest_delivered⟩ := ih hnodup
      (fun other hother => htexts other (List.mem_cons_of_mem _ hother))
      (fun other hother => hpackages other (List.mem_cons_of_mem _ hother)) hu
      (husame root (.inl (List.prefix_append _ _)) ▸ hroot) (hsame.trans husame)
      (fun other hother => advances.isDir_eq_false ground hw (.app other) (hstaged hother)
        (leads_appEntry (htexts other (List.mem_cons_of_mem _ hother)))
        (hfree other (List.mem_cons_of_mem _ hother))) follows
    have hkept : appPlace name ∉ names.map appPlace := by
      simpa [appPlace] using hname
    refine ⟨advances.trans later, ?_, ?_⟩
    · rw [hquiet, hcalls, hlater]
      rfl
    · refine List.forall_mem_cons.2 ⟨⟨app, hload, ?_⟩, fun other hother => ?_⟩
      · exact (delivered _ (later.linkless hu) (later.get?_eq ground hkept hthere)).mono htail
      · obtain ⟨found, hfound, hdelivered⟩ := rest_delivered other hother
        exact ⟨found, hfound, hdelivered.mono (List.Subset.trans hrest htail)⟩

omit orderly ground in
/-- Where nothing is staged, what is a file is one before and after. -/
lemma Advances.hasFile_iff {staged : List Place} {t u : FileTree} {p : Place} {entry : Path}
    (ground : Ground config site root volume) (h : Advances root volume staged t u)
    (ht : t.Linkless) (hp : p ∉ staged) (hleads : entry.Leads p) (content : Bytes)
    (executable : Bool) :
    u.HasFile site.here (Volume.destination config site entry) content executable ↔
      t.HasFile site.here (Volume.destination config site entry) content executable := by
  have hspells := ground.spells hleads
  have hu := h.linkless ht
  have hnew := h.frame _ (ground.target.not_append p) (not_mem_staged hp)
  constructor
  · rintro ⟨q, hfile⟩
    have hthere := (get?_of_find hu hspells hfile).2
    rcases hnew with heq | ⟨-, hdir, -⟩
    · exact ⟨_, find_of_find hu ht hspells hfile (heq ▸ hthere) id⟩
    · rw [hdir] at hthere
      cases hthere
  · rintro ⟨q, hfile⟩
    have hthere := (get?_of_find ht hspells hfile).2
    rcases hnew with heq | ⟨hnone, -⟩
    · exact ⟨_, find_of_find ht hu hspells hfile (heq.trans hthere) id⟩
    · rw [hnone] at hthere
      cases hthere

/-- The boot configuration, if there is one, is staged like the kernel's. -/
lemma bootConfig_follows (hw : w.tree.Linkless)
    (hsame : SameAt (root ++ sourcesPlace) w₀.tree w.tree)
    (hfree : w.tree.isDir site.here
      (Volume.destination config site (.ofString bootConfigEntry)) = false)
    (follows : (Plan.ifPresent (.ofString bootConfigSource)
      (.stage (.ofString bootConfigSource) (.ofString bootConfigEntry) plan) plan).Follows config
        site executor toolchain w attempts (.ok ()) v) :
    ∃ staged rest u, staged ⊆ [bootConfigPlace] ∧ rest ⊆ attempts ∧
      attempts.filterMap (·.element.call? toolchain) =
        rest.filterMap (·.element.call? toolchain) ∧
      plan.Follows config site executor toolchain u rest (.ok ()) v ∧
      Advances root volume staged w.tree u.tree ∧
      ∀ {before after : List Place} {final : FileTree}, bootConfigPlace ∉ before →
        bootConfigPlace ∉ after → Advances root volume before w₀.tree w.tree →
          Advances root volume after u.tree final → Configured config site w₀.tree final := by
  have hsource : (site.path (.ofString bootConfigSource)).Spells (root ++ bootConfigSourcePlace) :=
    ground.rooted.join leads_bootConfigSource
  have hbelow : root ++ sourcesPlace <+: root ++ bootConfigSourcePlace := by
    simp [sourcesPlace, bootConfigSourcePlace]
  have hfind := hsame.find site.here orderly.linkless hw hsource hbelow
  have hpresent : w₀.tree.exists? site.here (site.path (.ofString bootConfigSource)) =
      w.tree.exists? site.here (site.path (.ofString bootConfigSource)) := by
    unfold exists?
    rw [hfind]
  rw [Plan.follows_ifPresent] at follows
  by_cases present : w.tree.exists? site.here (site.path (.ofString bootConfigSource)) = true
  · rw [if_pos present] at follows
    obtain ⟨staged, rest, u, rfl, hstaged, follows, advances, content, executable, ⟨q, hfile⟩,
      hcopied, reached⟩ := stage_follows orderly ground .bootConfig leads_bootConfig hw
        (fun _ => ⟨_, hsource, fun h => ground.sources.not_both h hbelow⟩) hfree follows
    refine ⟨[bootConfigPlace], rest, u, List.Subset.refl _, List.subset_cons_self _ _, ?_, follows,
      advances, fun _ hafter _ later => ?_⟩
    · rw [List.filterMap_cons_none (by rw [hstaged]; rfl)]
    · rw [Configured, hpresent, if_pos present]
      have hkept := later.get?_eq ground hafter (by simp [hcopied])
      exact ⟨content, executable, ⟨q, hfind.trans hfile⟩,
        reached _ (later.linkless (advances.linkless hw)) (hkept.trans hcopied)⟩
  · rw [if_neg present] at follows
    refine ⟨[], attempts, w, by simp, List.Subset.refl _, rfl, follows, advances_refl _ _ _,
      fun hbefore hafter first later => ?_⟩
    rw [Configured, hpresent, if_neg present]
    exact (first.trans later).hasFile_iff ground orderly.linkless (by simp [hbefore, hafter])
      leads_bootConfig

end Elements

/-! ## The whole build -/

section Whole

variable {config : Config} {site : Site} {executor : Executor} {w : World}

lemma follows_of_ok (hok : (all config site executor w).1 = .ok ()) :
    ∃ toolchain attempts, executor.locate w.tree Layout.toolchain = .ok toolchain ∧
      (Plan.all config).Follows config site executor toolchain w attempts (.ok ())
        (all config site executor w).2 := by
  unfold all at hok ⊢
  cases hlocate : executor.locate w.tree Layout.toolchain with
  | error failure =>
    rw [Job.find_bind_of_error hlocate] at hok
    cases hok
  | ok toolchain =>
    rw [Job.find_bind_of_ok hlocate] at hok ⊢
    obtain ⟨attempts, follows⟩ := performs_all config site executor toolchain w
    rw [hok] at follows
    exact ⟨toolchain, attempts, rfl, follows⟩

lemma nodup_calls (toolchain : Path) (profile : Profile) {names : List Name} (hnodup : names.Nodup)
    (htexts : ∀ name ∈ names, ∃ text, name.bytes = Utf8.encode text) :
    (Invocation.compile toolchain .release (.ofString bootloaderSource) ::
      .compile toolchain profile (.ofString kernelSource) ::
        names.map fun name =>
          .compile toolchain profile (appSource (Utf8.lossy name.bytes))).Nodup := by
  have happ {name : Name} (hname : name ∈ names) :
      (appSource (Utf8.lossy name.bytes)).names = (appsPlace ++ [name]).map (·.bytes) :=
    (leads_apps.join (leads_text (htexts name hname))).names
  let dir (inv : Invocation) := inv.workdir.map Path.names
  have hdirs : (names.map (dir ∘ fun name => .compile toolchain profile
      (appSource (Utf8.lossy name.bytes)))) =
        names.map fun name => some ((appsPlace ++ [name]).map (·.bytes)) :=
    List.map_congr_left fun name hname => congrArg some (happ hname)
  have hboot : dir (.compile toolchain .release (.ofString bootloaderSource)) =
      some (["pkg", "boot"].map Utf8.encode) := congrArg some (by decide)
  have hkernel : dir (.compile toolchain profile (.ofString kernelSource)) =
      some (["pkg", "kernel"].map Utf8.encode) := congrArg some (by decide)
  refine List.Nodup.of_map dir ?_
  rw [List.map_cons, List.map_cons, List.map_map, hboot, hkernel, hdirs, List.nodup_cons,
    List.nodup_cons]
  refine ⟨?_, ?_, hnodup.map fun first second h => ?_⟩
  · have hne : ["pkg", "boot"].map Utf8.encode ≠ ["pkg", "kernel"].map Utf8.encode := by decide
    rw [List.mem_cons, not_or]
    exact ⟨fun h => hne (Option.some.inj h), by simp [appsPlace]⟩
  · simp [appsPlace]
  · cases first
    cases second
    simpa [appsPlace] using h

/-- After a build that succeeds, every entry of the volume is a file with the bytes and the execute
bit that the artifact of its component had right after the component's own call, the only one in
its directory; the artifact of an application is named by its package and its entry by its
directory. The kernel's boot configuration is on the volume if there is one. -/
theorem volume_holds_artifacts {root : Place} (orderly : Orderly config site executor w root)
    (hok : (all config site executor w).1 = .ok ()) :
    ∃ toolchain attempts dirs,
      let final := (all config site executor w).2
      executor.locate w.tree Layout.toolchain = .ok toolchain ∧
      (Plan.all config).Follows config site executor toolchain w attempts (.ok ()) final ∧
      (attempts.filterMap (·.element.call? toolchain)).Nodup ∧
      Delivered config site attempts final.tree .bootloader ∧
      Delivered config site attempts final.tree (.kernel config) ∧
      (App.discover site w).1 = .ok dirs ∧
      (∀ dir ∈ dirs, ∃ app, (App.load site dir config.manifestScan w).1 = .ok app ∧
        Delivered config site attempts final.tree (.app config dir app.package)) ∧
      Configured config site w.tree final.tree := by
  obtain ⟨toolchain, attempts, hlocate, follows⟩ := follows_of_ok hok
  generalize (all config site executor w).2 = v at follows ⊢
  have whole := follows
  rw [Plan.all, Plan.bootloader] at follows
  obtain ⟨volume, ground⟩ :=
    exists_ground orderly orderly.linkless leads_bootloader.relative follows
  obtain ⟨rest₁, u₁, hrest₁, hcalls₁, follows, advances₁, hroot, hthere₁, delivered₁⟩ :=
    component_follows orderly ground .bootloader .bootloader leads_bootloader orderly.linkless
      leads_bootloader_artifact (orderly.free _ (by simp)) follows
  have hu₁ := advances₁.linkless orderly.linkless
  have hfree₁ := advances₁.isDir_eq_false ground orderly.linkless .bootConfig (by decide)
    leads_bootConfig (orderly.free _ (by simp))
  obtain ⟨staged, rest₂, u₂, hstaged, hrest₂, hcalls₂, follows, advances₂, configured⟩ :=
    bootConfig_follows orderly ground hu₁ (advances₁.sameAt ground hroot) hfree₁ follows
  have hu₂ := advances₂.linkless hu₁
  have hkernel : kernelPlace ∉ [bootloaderPlace] ++ staged := by
    rw [List.mem_append, not_or]
    exact ⟨by decide, fun h => absurd (hstaged h) (by decide)⟩
  have hfree₂ := (advances₁.trans advances₂).isDir_eq_false ground orderly.linkless .kernel hkernel
    leads_kernel (orderly.free _ (by simp))
  obtain ⟨rest₃, u₃, hrest₃, hcalls₃, follows, advances₃, -, hthere₃, delivered₃⟩ :=
    component_follows orderly ground (.kernel config) .kernel leads_kernel hu₂ leads_kernel_artifact
      hfree₂ follows
  have hu₃ := advances₃.linkless hu₂
  have advanced := (advances₁.trans advances₂).trans advances₃
  have hsame := advanced.sameAt ground hroot
  obtain ⟨dirs, rest₄, u₄, hdirs, htree, hrest₄, hcalls₄, follows⟩ := listApps_follows follows
  rw [← htree] at hu₃ hthere₃ delivered₃ advances₃ advanced hsame
  have hfound : (App.discover site w).1 = .ok dirs := by
    rw [← hdirs]
    exact App.discover_congr orderly.linkless (htree ▸ hu₃) (htree ▸ hsame)
      (ground.rooted.join leads_apps) (by simp [sourcesPlace, appsPlace])
  obtain ⟨names, rfl, hnodup, hlisted⟩ := App.discover_spec hfound
  have htexts (name : Name) (hname : name ∈ names) : ∃ text, name.bytes = Utf8.encode text := by
    obtain ⟨listed, hlist, hmem, hdir⟩ := hlisted name hname
    exact orderly.texts listed hlist name hmem hdir
  have hmem {name : Name} (hname : name ∈ names) :
      Utf8.lossy name.bytes ∈ names.map fun name => Utf8.lossy name.bytes :=
    List.mem_map_of_mem hname
  have happ (name : Name) : appPlace name ∉ [bootloaderPlace] ++ staged ++ [kernelPlace] := by
    have hfixed : [bootloaderPlace] ++ staged ++ [kernelPlace] ⊆
        [bootloaderPlace, bootConfigPlace, kernelPlace] := by
      simpa using List.Subset.trans hstaged (by simp)
    exact fun h => appPlace_not_mem name (hfixed h)
  obtain ⟨advances₄, hcalls₅, delivered₄⟩ := appsIn_follows orderly ground hnodup htexts
    (fun name hname => orderly.packages _ hfound _ (hmem hname)) hu₃
    (hsame root (.inl (List.prefix_append _ _)) ▸ hroot) hsame
    (fun name hname => advanced.isDir_eq_false ground orderly.linkless (.app name) (happ name)
      (leads_appEntry (htexts name hname)) (orderly.freeApps _ hfound _ (hmem hname))) follows
  have happs {p : Place} (hp : p ∈ [bootloaderPlace, bootConfigPlace, kernelPlace]) :
      p ∉ names.map appPlace := by
    intro hmem
    obtain ⟨name, -, rfl⟩ := List.mem_map.1 hmem
    exact appPlace_not_mem name hp
  have hkept : bootloaderPlace ∉ staged ++ [kernelPlace] ++ names.map appPlace := by
    simp only [List.mem_append, not_or]
    exact ⟨⟨fun h => absurd (hstaged h) (by decide), by decide⟩, happs (by simp)⟩
  have later := (advances₂.trans advances₃).trans advances₄
  have hv := later.linkless hu₁
  have hthird := List.Subset.trans hrest₂ hrest₁
  refine ⟨toolchain, attempts, _, hlocate, whole, ?_, ?_, ?_, hfound, ?_, ?_⟩
  · rw [hcalls₁, hcalls₂, hcalls₃, hcalls₄, hcalls₅]
    exact nodup_calls toolchain config.profile hnodup htexts
  · exact delivered₁ _ hv (later.get?_eq ground hkept hthere₁)
  · exact (delivered₃ _ hv (advances₄.get?_eq ground (happs (by simp)) hthere₃)).mono
      hthird
  · intro dir hdir
    obtain ⟨name, hname, rfl⟩ := List.mem_map.1 hdir
    obtain ⟨app, hload, hdelivered⟩ := delivered₄ name hname
    exact ⟨app, hload, hdelivered.mono (List.Subset.trans (List.Subset.trans hrest₄ hrest₃) hthird)⟩
  · refine configured (by decide) ?_ advances₁ (advances₃.trans advances₄)
    rw [List.mem_append, not_or]
    exact ⟨by decide, happs (by simp)⟩

end Whole

/-! ## Twins -/

namespace Twins

def place (path : String) : Place := (Path.ofString path).names.filterMap Name.ofBytes?

/-- What the packages of both applications are compiled to. -/
def binary : Place := place "target/x86_64-unknown-ysos/release/tool"

def site : Site := { here := [], root := .ofString "/" }

/-- Every call writes the artifact of both applications, each time another one. -/
def executor : Executor where
  locate _ tool := .ok (.ofString tool)
  execute calls _ tree :=
    { result := .ok (.exited (some 0)), tree := tree.put binary (.file [.ofNat calls.length] true) }

def dirs : List (Place × Entry) :=
  ["target", "target/x86_64-unknown-uefi", "target/x86_64-unknown-uefi/release",
    "target/x86_64-unknown-none", "target/x86_64-unknown-none/release",
    "target/x86_64-unknown-ysos", "target/x86_64-unknown-ysos/release",
    "pkg", "pkg/app", "pkg/app/a", "pkg/app/b"].map fun path => (place path, .dir)

def files : List (Place × Entry) :=
  [("target/x86_64-unknown-uefi/release/ysos_boot.efi", "loader"),
    ("target/x86_64-unknown-none/release/ysos_kernel", "kernel"),
    ("pkg/app/a/Cargo.toml", "name = \"tool\""),
    ("pkg/app/b/Cargo.toml", "name = \"tool\"")].map fun file =>
      (place file.1, .file (Utf8.encode file.2) false)

/-- Two applications whose packages have the same name. -/
@[irreducible]
def tree : FileTree := (dirs ++ files).foldl (fun t entry => t.put entry.1 entry.2) .empty

lemma linkless_foldl {entries : List (Place × Entry)} {t : FileTree} (ht : t.Linkless)
    (h : ∀ entry ∈ entries, ∀ target, entry.2 ≠ .link target) :
    (entries.foldl (fun t entry => t.put entry.1 entry.2) t).Linkless := by
  induction entries generalizing t with
  | nil => exact ht
  | cons entry rest ih =>
    exact ih (ht.put (h entry List.mem_cons_self))
      fun entry hentry => h entry (List.mem_cons_of_mem _ hentry)

lemma linkless_tree : tree.Linkless := by
  unfold tree
  refine linkless_foldl (fun q target hq => ?_) fun entry hentry => ?_
  · cases q <;> cases hq
  · rw [List.mem_append, dirs, files, List.mem_map, List.mem_map] at hentry
    obtain ⟨path, -, rfl⟩ | ⟨file, -, rfl⟩ := hentry
    · exact nofun
    · exact nofun

lemma eq_ok_of_toOption {ε α : Type} {result : Except ε α} {a : α}
    (h : result.toOption = some a) : result = .ok a := by
  cases result with
  | error cause => cases h
  | ok b => exact congrArg _ (Option.some.inj h)

lemma evaluated :
    (App.discover site { tree }).1.toOption = some ["a", "b"] ∧
    (∀ dir ∈ ["a", "b"], (App.load site dir .literal { tree }).1.toOption =
      some { dir, package := "tool" }) ∧
    (tree.list [] (site.path (.ofString appsSource))).toOption =
      some [⟨Utf8.encode "a", by decide⟩, ⟨Utf8.encode "b", by decide⟩] ∧
    (∀ entry ∈ [bootloaderEntry, bootConfigEntry, kernelEntry],
      tree.isDir [] (Volume.destination {} site (.ofString entry)) = false) ∧
    (∀ dir ∈ ["a", "b"], tree.isDir [] (Volume.destination {} site (appEntry dir)) = false) ∧
    (all {} site executor { tree }).1.toOption = some () := by
  decide +kernel

lemma discover_eq : (App.discover site { tree }).1 = .ok ["a", "b"] :=
  eq_ok_of_toOption evaluated.1

lemma load_eq {dir : String} (hdir : dir ∈ ["a", "b"]) :
    (App.load site dir .literal { tree }).1 = .ok { dir, package := "tool" } :=
  eq_ok_of_toOption (evaluated.2.1 dir hdir)

lemma normal_of_name {text : String}
    (h : (Path.ofString text).components = [.name (Utf8.encode text)]) :
    (Path.ofString text).Normal :=
  @Path.normal_of_components _ [Utf8.encode text] h

lemma confined {inv : Invocation} {calls : List Invocation} {t : FileTree} {r : Place}
    (h : ¬targetPlace <+: r) : (executor.execute calls inv t).tree.get? r = t.get? r := by
  refine get?_put_of_ne ?_
  rintro rfl
  exact h (by decide +kernel)

lemma apart {volume : Place} (h : (Volume.root {} site).Spells volume) :
    Apart volume sourcesPlace ∧ Apart volume targetPlace := by
  have hspells : (Volume.root {} site).Spells [⟨Utf8.encode Default.boot, by decide⟩] :=
    ⟨by decide, by decide⟩
  rw [h.unique hspells]
  exact ⟨⟨by decide, by decide⟩, ⟨by decide, by decide⟩⟩

lemma texts {listed : List Name}
    (h : tree.list [] (site.path (.ofString appsSource)) = .ok listed) :
    ∀ name ∈ listed, ∃ text, name.bytes = Utf8.encode text := by
  have hlisted := eq_ok_of_toOption evaluated.2.2.1
  intro name hname
  rw [← Except.ok.inj (hlisted.symm.trans h), List.mem_cons, List.mem_singleton] at hname
  rcases hname with rfl | rfl
  · exact ⟨"a", rfl⟩
  · exact ⟨"b", rfl⟩

lemma packages {dirs : List String} (hdirs : (App.discover site { tree }).1 = .ok dirs)
    {dir : String} (hdir : dir ∈ dirs) {app : App}
    (happ : (App.load site dir .literal { tree }).1 = .ok app) :
    (Path.ofString app.package).Normal := by
  rw [← Except.ok.inj (discover_eq.symm.trans hdirs)] at hdir
  rw [← Except.ok.inj ((load_eq hdir).symm.trans happ)]
  exact @normal_of_name "tool" (by decide)

lemma freeApps {dirs : List String} (hdirs : (App.discover site { tree }).1 = .ok dirs)
    {dir : String} (hdir : dir ∈ dirs) :
    tree.isDir [] (Volume.destination {} site (appEntry dir)) = false := by
  rw [← Except.ok.inj (discover_eq.symm.trans hdirs)] at hdir
  exact evaluated.2.2.2.2.1 dir hdir

lemma orderly : Orderly {} site executor { tree } [] where
  earnest := rfl
  linkless := linkless_tree
  rooted := ⟨by decide, by decide⟩
  boot := @normal_of_name Default.boot (by decide)
  apart volume hvolume := apart hvolume
  confined calls inv tree := ⟨fun r hr => confined hr, fun ht => ht.put nofun⟩
  texts listed hlist name hname _ := texts hlist name hname
  packages dirs hdirs dir hdir app happ := packages hdirs hdir happ
  free := evaluated.2.2.2.1
  freeApps dirs hdirs dir hdir := freeApps hdirs hdir

end Twins

/-- Each twin is on the volume as it was after its own call, although the two have one artifact. -/
theorem volume_holds_twins :
    Orderly {} Twins.site Twins.executor { tree := Twins.tree } [] ∧
      (all {} Twins.site Twins.executor { tree := Twins.tree }).1 = .ok () ∧
      ∃ attempts, ∀ dir ∈ ["a", "b"], Delivered {} Twins.site attempts
        (all {} Twins.site Twins.executor { tree := Twins.tree }).2.tree (.app {} dir "tool") := by
  have hok := Twins.eq_ok_of_toOption Twins.evaluated.2.2.2.2.2
  obtain ⟨toolchain, attempts, dirs, -, -, -, -, -, hdirs, delivered, -⟩ :=
    volume_holds_artifacts Twins.orderly hok
  refine ⟨Twins.orderly, hok, attempts, fun dir hdir => ?_⟩
  rw [← Except.ok.inj (Twins.discover_eq.symm.trans hdirs)] at delivered
  obtain ⟨app, happ, hdelivered⟩ := delivered dir hdir
  rw [← Except.ok.inj ((Twins.load_eq hdir).symm.trans happ)] at hdelivered
  exact hdelivered

end BootVolume.Build
