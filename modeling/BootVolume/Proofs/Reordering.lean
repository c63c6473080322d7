import BootVolume.Proofs.Anchoring
import BootVolume.Proofs.Retry

/-!
# Applications in any order

The applications of a project can be built in any order: all orders succeed or none, and they leave
the same files (`appsIn_reordered`). Two applications neither read what the other one brings to the
volume nor stand in its way, so their turns can be exchanged (`installs_swap`).
-/

namespace BootVolume

/-! ## Steps that commute -/

section Sequences

variable {α β : Type} {step : β → α → α → Prop} {xs ys : List β} {a c : α}

/-- One step for each element of a list, one after the other. -/
def Sequence (step : β → α → α → Prop) : List β → α → α → Prop
  | [], a, c => a = c
  | x :: xs, a, c => ∃ b, step x a b ∧ Sequence step xs b c

/-- Steps can be taken in another order if any two in a row can be exchanged. -/
lemma Sequence.perm {good : α → Prop} (keeps : ∀ x a b, good a → step x a b → good b)
    (swaps : ∀ x y a b c, x ≠ y → good a → step x a b → step y b c →
      ∃ b', step y a b' ∧ step x b' c)
    (hperm : xs.Perm ys) (hnodup : xs.Nodup) (ha : good a) (h : Sequence step xs a c) :
    Sequence step ys a c := by
  induction hperm generalizing a with
  | nil => exact h
  | cons x _ ih =>
    obtain ⟨b, hstep, hrest⟩ := h
    exact ⟨b, hstep, ih (List.nodup_cons.1 hnodup).2 (keeps x a b ha hstep) hrest⟩
  | swap y x _ =>
    obtain ⟨b, hfirst, d, hsecond, hrest⟩ := h
    have hne : x ≠ y := by
      rintro rfl
      simp at hnodup
    obtain ⟨b', hfirst', hsecond'⟩ := swaps x y a b d hne ha hfirst hsecond
    exact ⟨b', hfirst', d, hsecond', hrest⟩
  | trans hxy _ ih ih' => exact ih' (hxy.nodup_iff.1 hnodup) ha (ih hnodup ha h)

end Sequences

namespace Build

open FileTree Layout

/-! ## What an application brings -/

/-- A directory name that is a single component of a path. -/
def IsComponent (dir : String) : Prop :=
  (Path.ofString dir).components = [.name (Utf8.encode dir)]

instance (dir : String) : Decidable (IsComponent dir) := inferInstanceAs (Decidable (_ = _))

/-- What makes the applications independent of each other: they are staged in earnest, on a volume
that is reached without going up and lies apart from the sources and from the target directory. -/
structure Independent (config : Config) (site : Site) (root : Place) : Prop where
  earnest : config.dryRun = false
  rooted : site.root.Spells root
  straight : Path.dotDot ∉ (Volume.root config site).names
  apart (volume : Place) : (Volume.root config site).Spells volume →
    ∀ base ∈ [sourcesPlace, targetPlace], Apart volume (root ++ base)

/-- The application in a directory brings this file to the volume, as the files are. -/
structure Brings (config : Config) (site : Site) (t : FileTree) (dir : String) (δ : Delivery)
    (content : Bytes) (executable : Bool) : Prop where
  loaded : ∃ app, (App.load site dir config.manifestScan { tree := t }).1 = .ok app ∧
    (Path.ofString app.package).Normal ∧
    δ.source = site.path (Component.app config dir app.package).artifact
  placed : ∃ volume name, (Volume.root config site).Spells volume ∧
    name.bytes = Utf8.encode dir ∧ δ.place = volume ++ appPlace name
  found : ∃ origin, t.find site.here δ.source = .ok (origin, .file content executable)
  possible : Volume.Deliverable t site.here (Volume.destination config site (appEntry dir)) δ

/-- The second tree is the first one with a file delivered. -/
def Gains (δ : Delivery) (content : Bytes) (executable : Bool) (t u : FileTree) : Prop :=
  ∀ r, u.get? r = if r = t.outlet δ then some (.file content executable)
    else if r <+: δ.place.dropLast then some .dir else t.get? r

/-- The application in a directory can be built, and that makes the second tree of the first. -/
def Installs (config : Config) (site : Site) (dir : String) (t u : FileTree) : Prop :=
  ∃ δ content executable, Brings config site t dir δ content executable ∧
    Gains δ content executable t u

section Bringing

variable {config : Config} {site : Site} {root : Place} {dir dir' : String} {δ δ' : Delivery}
  {content content' : Bytes} {executable executable' : Bool} {t u v : FileTree} {w : World}

lemma Brings.entry (h : Brings config site t dir δ content executable) :
    EntryAmong config site IsEntry δ := by
  obtain ⟨volume, name, hvolume, -, hplace⟩ := h.placed
  exact ⟨volume, appPlace name, hvolume, .app name, hplace⟩

/-- Where the file comes from and where it goes. -/
structure Lies (config : Config) (site : Site) (root : Place) (dir : String) (δ : Delivery)
    (origin : Place) : Prop where
  target : (Volume.destination config site (appEntry dir)).Spells δ.place
  pointed : (Volume.destination config site (appEntry dir)).Pointed
  ne_nil : δ.place ≠ []
  source : δ.source.Spells origin
  outside : ¬δ.place <+: origin
  below : root ++ targetPlace <+: origin

lemma pointed_appEntry {name : Name} (hname : name.bytes = Utf8.encode dir) :
    (appEntry dir).Pointed := by
  have hdir : Path.ofString dir = ⟨name.bytes⟩ := by rw [Path.ofString, hname]
  rw [appEntry, hdir]
  exact (Path.pointed_name name).join _ (Path.leads_name name).relative

lemma leads_appEntry_of_name {name : Name} (hname : name.bytes = Utf8.encode dir) :
    (appEntry dir).Leads (appPlace name) := by
  have hdir : Path.ofString dir = ⟨name.bytes⟩ := by rw [Path.ofString, hname]
  have hentry : (Path.ofString appsEntry).Leads [appsName] := ⟨by decide, by decide⟩
  rw [appEntry, hdir]
  exact hentry.join (Path.leads_name name)

lemma Independent.lies (h : Independent config site root) {volume : Place} {name : Name}
    {package : String} (hvolume : (Volume.root config site).Spells volume)
    (hname : name.bytes = Utf8.encode dir) (hpackage : (Path.ofString package).Normal)
    (hzero : 0 ∉ (site.path (Component.app config dir package).artifact).bytes) :
    ∃ origin, Lies config site root dir
      ⟨site.path (Component.app config dir package).artifact, volume ++ appPlace name⟩ origin := by
  obtain ⟨way, hway⟩ := leads_app_artifact hpackage hzero
  have hbelow : root ++ targetPlace <+: root ++ (targetPlace ++ way) := by simp
  have hleads := leads_appEntry_of_name hname
  refine ⟨root ++ (targetPlace ++ way), hvolume.join hleads,
    (pointed_appEntry hname).join _ hleads.relative, by simp [appPlace], h.rooted.join hway, ?_,
    hbelow⟩
  exact fun hinto => ((h.apart volume hvolume _ (by simp)).append _).not_both hinto hbelow

lemma Brings.exists_lies (h : Brings config site t dir δ content executable)
    (free : Independent config site root) : ∃ origin, Lies config site root dir δ origin := by
  obtain ⟨app, -, hpackage, hsource⟩ := h.loaded
  obtain ⟨volume, name, hvolume, hname, hplace⟩ := h.placed
  obtain ⟨origin, hfound⟩ := h.found
  rw [hsource] at hfound
  obtain ⟨origin, lies⟩ := free.lies hvolume hname hpackage (zero_not_mem_of_find hfound)
  rw [← hsource, ← hplace] at lies
  exact ⟨origin, lies⟩

/-! ## Bringing one file after the other -/

lemma Gains.receives (h : Gains δ content executable t u)
    (hfree : t.get? (t.outlet δ) ≠ some .dir)
    (hclear : ∀ r, r <+: δ.place.dropLast → t.get? r = none ∨ t.get? r = some .dir) :
    Receives (· = δ) t u := by
  intro r
  have hr := h r
  split_ifs at hr with houtlet hway
  · exact .written rfl (houtlet ▸ hfree) hr houtlet
  · rcases hclear r hway with hnone | hdir
    · exact .made rfl hnone hr hway
    · exact .same (hr.trans hdir.symm)
  · exact .same hr

lemma Installs.receives (h : Installs config site dir t u) :
    Receives (EntryAmong config site IsEntry) t u := by
  obtain ⟨δ, content, executable, brings, gains⟩ := h
  refine (gains.receives brings.possible.free brings.possible.clear).mono ?_
  rintro _ rfl
  exact brings.entry

lemma Independent.sameBelow (free : Independent config site root)
    (h : Receives (EntryAmong config site IsEntry) t u) {base : Place}
    (hbase : base ∈ [sourcesPlace, targetPlace]) : SameBelow (root ++ base) t u := by
  refine h.sameBelow ?_
  rintro δ ⟨volume, p, hvolume, -, hplace⟩
  rw [hplace]
  exact (free.apart volume hvolume base hbase).append p

lemma Brings.transfer (h : Brings config site t dir δ content executable)
    (free : Independent config site root) (ht : t.Linkless) (hu : u.Linkless)
    (hsources : SameBelow (root ++ sourcesPlace) t u)
    (htarget : SameBelow (root ++ targetPlace) t u)
    (hpossible : Volume.Deliverable u site.here (Volume.destination config site (appEntry dir)) δ) :
    Brings config site u dir δ content executable := by
  obtain ⟨origin, lies⟩ := h.exists_lies free
  obtain ⟨app, hload, hpackage, hsource⟩ := h.loaded
  obtain ⟨volume, name, hvolume, hname, hplace⟩ := h.placed
  obtain ⟨origin', hfound⟩ := h.found
  refine ⟨⟨app, ?_, hpackage, hsource⟩, h.placed, ⟨origin', ?_⟩, hpossible⟩
  · exact load_ok (w := { tree := t }) hsources ht hu free.rooted hname hload
  · exact htarget.find_ok ht hu lies.source lies.below hfound

/-- What an application brings does not depend on the entries of the volume. -/
lemma Brings.of_receives (free : Independent config site root) (ht : t.Linkless)
    (h : Receives (EntryAmong config site IsEntry) t u) :
    Brings config site u dir δ content executable ↔
      Brings config site t dir δ content executable := by
  have hu := h.linkless ht
  have hsources : SameBelow (root ++ sourcesPlace) t u := free.sameBelow h (by simp)
  have htarget : SameBelow (root ++ targetPlace) t u := free.sameBelow h (by simp)
  have hunnested : Unnested (EntryAmong config site IsEntry) := unnested_entries fun _ => id
  constructor
  · intro brings
    obtain ⟨origin, lies⟩ := brings.exists_lies free
    refine brings.transfer free hu ht hsources.symm htarget.symm ?_
    exact (Volume.Deliverable.of_receives h ht hunnested brings.entry lies.target).1 brings.possible
  · intro brings
    obtain ⟨origin, lies⟩ := brings.exists_lies free
    refine brings.transfer free ht hu hsources htarget ?_
    exact (Volume.Deliverable.of_receives h ht hunnested brings.entry lies.target).2 brings.possible

lemma Brings.stages {package : String} (free : Independent config site root)
    (hw : w.tree.Linkless) (h : Brings config site w.tree dir δ content executable)
    (hsource : δ.source = site.path (Component.app config dir package).artifact) :
    ∃ v, Volume.stage config site (Component.app config dir package).artifact (appEntry dir) w =
        (.ok (Volume.destination config site (appEntry dir)), v) ∧
      Gains δ content executable w.tree v.tree := by
  obtain ⟨origin, lies⟩ := h.exists_lies free
  obtain ⟨origin', hfound⟩ := h.found
  have hpossible := h.possible
  obtain ⟨source, place⟩ := δ
  subst hsource
  obtain ⟨rfl, -⟩ := get?_of_find hw lies.source hfound
  obtain ⟨v, hv⟩ := Volume.stage_of_deliverable free.earnest hw lies.target lies.ne_nil lies.pointed
    lies.source hfound hpossible
  obtain ⟨-, content', executable', hfound', hexact⟩ := Volume.stage_exact free.earnest hw
    lies.target lies.ne_nil lies.source lies.outside hv
  cases hfound.symm.trans hfound'
  exact ⟨v, hv, hexact⟩

lemma Brings.exists_gains (free : Independent config site root) (ht : t.Linkless)
    (h : Brings config site t dir δ content executable) :
    ∃ u, Gains δ content executable t u := by
  obtain ⟨app, -, -, hsource⟩ := h.loaded
  obtain ⟨v, -, gains⟩ := h.stages (w := { tree := t }) free ht hsource
  exact ⟨v.tree, gains⟩

lemma Brings.place_ne (h : Brings config site t dir δ content executable)
    (h' : Brings config site u dir' δ' content' executable') (hne : dir ≠ dir') {r : Place}
    (hr : δ.place <+: r) : ¬δ'.place <+: r := by
  intro hr'
  obtain ⟨volume, name, hvolume, hname, hplace⟩ := h.placed
  obtain ⟨volume', name', hvolume', hname', hplace'⟩ := h'.placed
  obtain rfl := hvolume.unique hvolume'
  have hlength : δ.place.length = δ'.place.length := by simp [hplace, hplace', appPlace]
  have hsame : δ.place = δ'.place :=
    (List.prefix_of_prefix_length_le hr hr' hlength.le).eq_of_length hlength
  rw [hplace, hplace', List.append_cancel_left_eq] at hsame
  obtain rfl : name = name' := by simpa [appPlace] using hsame
  exact hne (Utf8.encode_injective (hname.symm.trans hname'))

/-- Two applications that are installed in a row can be installed the other way round. -/
lemma installs_swap (free : Independent config site root) (ht : t.Linkless) (hne : dir ≠ dir')
    (h : Installs config site dir t u) (h' : Installs config site dir' u v) :
    ∃ u', Installs config site dir' t u' ∧ Installs config site dir u' v := by
  have hreceives := h.receives
  obtain ⟨δ, content, executable, brings, gains⟩ := h
  obtain ⟨δ', content', executable', brings', gains'⟩ := h'
  have brings' := (Brings.of_receives free ht hreceives).1 brings'
  obtain ⟨u', early⟩ := brings'.exists_gains free ht
  have installs : Installs config site dir' t u' := ⟨δ', content', executable', brings', early⟩
  have brings := (Brings.of_receives free ht installs.receives).2 brings
  refine ⟨u', installs, δ, content, executable, brings, fun r => ?_⟩
  have hunnested : Unnested (EntryAmong config site IsEntry) := unnested_entries fun _ => id
  rw [gains', gains, early, hreceives.outlet_eq hunnested brings'.entry,
    installs.receives.outlet_eq hunnested brings.entry]
  by_cases houtlet : r = t.outlet δ
  · have hbelow : δ.place <+: r := houtlet ▸ prefix_outlet t δ
    have houtlet' : r ≠ t.outlet δ' := fun heq =>
      brings.place_ne brings' hne hbelow (heq ▸ prefix_outlet t δ')
    have hway' : ¬r <+: δ'.place.dropLast := fun hway =>
      hunnested δ δ' brings.entry brings'.entry (hbelow.trans hway)
    rw [if_neg houtlet', if_neg hway', if_pos houtlet, if_pos houtlet]
  by_cases houtlet' : r = t.outlet δ'
  · have hbelow' : δ'.place <+: r := houtlet' ▸ prefix_outlet t δ'
    have hway : ¬r <+: δ.place.dropLast := fun hway =>
      hunnested δ' δ brings'.entry brings.entry (hbelow'.trans hway)
    rw [if_pos houtlet', if_neg houtlet, if_neg hway, if_pos houtlet']
  -- Elsewhere both orders make the directories above the two places.
  rw [if_neg houtlet, if_neg houtlet, if_neg houtlet', if_neg houtlet']
  split_ifs <;> rfl

end Bringing

/-! ## Building one application after the other -/

/-- Loads and builds the application in a directory. -/
def install (config : Config) (site : Site) (executor : Executor) (toolchain : Path)
    (dir : String) : Job Unit := do
  let loaded ← App.load site dir config.manifestScan
  app config site executor toolchain loaded

/-- A single component names the directory, and the package has normal components, if the
application can be loaded. -/
structure Plain (config : Config) (site : Site) (t : FileTree) (dir : String) : Prop where
  component : IsComponent dir
  package : ∀ app, (App.load site dir config.manifestScan { tree := t }).1 = .ok app →
    (Path.ofString app.package).Normal

section Installing

variable {config : Config} {site : Site} {executor : Executor} {toolchain : Path} {root : Place}
  {dir dir' : String} {dirs dirs' : List String} {t u : FileTree} {w v : World}

lemma IsComponent.relative (h : IsComponent dir) : (Path.ofString dir).isAbsolute = false :=
  Path.Normal.relative (@Path.normal_of_components _ [Utf8.encode dir] h)

lemma load_of_tree (w : World) :
    (App.load site dir config.manifestScan { tree := w.tree }).1 =
      (App.load site dir config.manifestScan w).1 := by
  rw [App.load_apply, App.load_apply]

lemma IsComponent.exists_name (h : IsComponent dir) {app : App}
    (happ : (App.load site dir config.manifestScan w).1 = .ok app) :
    ∃ name : Name, name.bytes = Utf8.encode dir := by
  have hsource : (appSource dir).isAbsolute = false := Path.relative_join (by decide) h.relative
  have hmanifest : (App.manifest dir).isAbsolute = false :=
    Path.relative_join hsource (by decide)
  have hzero : 0 ∉ (site.path (App.manifest dir)).bytes := by
    rw [App.load_apply] at happ
    dsimp only at happ
    cases hfind : w.tree.find site.here (site.path (App.manifest dir)) with
    | error cause =>
      rw [readText, hfind] at happ
      cases happ
    | ok found => exact zero_not_mem_of_find hfind
  have hzero := (Path.zero_not_mem_of_join hmanifest hzero).2
  have hzero := (Path.zero_not_mem_of_join (by decide) hzero).1
  have hzero := (Path.zero_not_mem_of_join h.relative hzero).2
  have hname : (Path.ofString dir).fileName? = some (Utf8.encode dir) := by
    rw [Path.fileName?, h]
    rfl
  exact ⟨⟨_, Path.isName_of_fileName? hname hzero⟩, rfl⟩

lemma Plain.of_installs (plain : Plain config site t dir) (free : Independent config site root)
    (ht : t.Linkless) (h : Installs config site dir' t u) : Plain config site u dir := by
  refine ⟨plain.component, fun app happ => plain.package app ?_⟩
  obtain ⟨name, hname⟩ := plain.component.exists_name happ
  have hsources : SameBelow (root ++ sourcesPlace) t u := free.sameBelow h.receives (by simp)
  exact load_ok (w := { tree := u }) hsources.symm (h.receives.linkless ht) ht free.rooted hname
    happ

variable (free : Independent config site root)
  (inert : ∀ calls inv tree, (executor.execute calls inv tree).tree = tree)
  (succeeds : ∀ calls inv tree,
    Executor.callFailure? inv (executor.execute calls inv tree).result = none)

include inert succeeds in
/-- Once it is loaded, an application only has to be staged. -/
lemma app_apply (config : Config) (site : Site) (toolchain : Path) (loaded : App) (w : World) :
    ∃ v, v.tree = w.tree ∧ app config site executor toolchain loaded w =
      (Volume.stage config site (Component.app config loaded.dir loaded.package).artifact
        (appEntry loaded.dir) >>= fun _ => pure ()) v := by
  let said : World := { w with
    events := w.events ++ [.said ⟨.info, "Building", "app " ++ loaded.dir ++ "..."⟩] }
  let call := Invocation.compile toolchain config.profile loaded.source
  have hrun : executor.run call said = (.ok (), (executor.run call said).2) := by
    rw [Executor.run_apply, succeeds]
    rfl
  refine ⟨(executor.run call said).2, ?_, ?_⟩
  · rw [Executor.run_apply]
    exact inert _ _ _
  · rw [app, Job.say_bind, Job.bind_of_ok hrun]
    rfl

include free inert succeeds in
/-- An application that was built is one that could be installed. -/
lemma installs_of_install (hw : w.tree.Linkless) (plain : Plain config site w.tree dir)
    (h : install config site executor toolchain dir w = (.ok (), v)) :
    Installs config site dir w.tree v.tree := by
  obtain ⟨loaded, u, hload, happ⟩ := Job.exists_of_bind_ok h
  have htree : u.tree = w.tree := by
    simpa [hload] using Job.overlooks_tree.law.load site dir config.manifestScan w
  obtain ⟨u', htree', heq⟩ := app_apply inert succeeds config site toolchain loaded u
  rw [heq] at happ
  obtain ⟨staged, _, hstage, hdone⟩ := Job.exists_of_bind_ok happ
  cases hdone
  obtain rfl := load_dir hload
  have hloaded : (App.load site loaded.dir config.manifestScan { tree := w.tree }).1 = .ok loaded :=
    (load_of_tree w).trans (congrArg Prod.fst hload)
  obtain ⟨name, hname⟩ := plain.component.exists_name hloaded
  have hpackage := plain.package loaded hloaded
  obtain ⟨hsource, hdestination⟩ := Volume.zero_not_mem_of_stage free.earnest hstage
  have hroot := (Path.zero_not_mem_of_join (leads_appEntry_of_name hname).relative hdestination).1
  obtain ⟨volume, hnames⟩ := Path.exists_names free.straight hroot
  have hvolume : (Volume.root config site).Spells volume :=
    ⟨Path.absolute_join free.rooted.absolute _, hnames⟩
  obtain ⟨origin, lies⟩ := free.lies hvolume hname hpackage hsource
  obtain ⟨possible, content, executable, hfound, gains⟩ := Volume.stage_exact free.earnest
    (htree'.trans htree ▸ hw) lies.target lies.ne_nil lies.source lies.outside hstage
  rw [htree'.trans htree] at possible hfound gains
  exact ⟨_, content, executable, ⟨⟨loaded, hloaded, hpackage, rfl⟩,
    ⟨volume, name, hvolume, hname, rfl⟩, ⟨origin, hfound⟩, possible⟩, gains⟩

include free inert succeeds in
/-- An application that can be installed is built, and that leaves the same files. -/
lemma install_of_installs (toolchain : Path) (hw : w.tree.Linkless)
    (h : Installs config site dir w.tree u) :
    ∃ v, install config site executor toolchain dir w = (.ok (), v) ∧ v.tree = u := by
  obtain ⟨δ, content, executable, brings, gains⟩ := h
  obtain ⟨loaded, hload, -, hsource⟩ := brings.loaded
  have hload : (App.load site dir config.manifestScan w).1 = .ok loaded :=
    (load_of_tree w).symm.trans hload
  obtain rfl : loaded.dir = dir := load_dir (Job.eq_of_ok hload)
  have htree := Job.overlooks_tree.law.load site loaded.dir config.manifestScan w
  obtain ⟨u', htree', heq⟩ := app_apply inert succeeds config site toolchain loaded
    (App.load site loaded.dir config.manifestScan w).2
  have htree := htree'.trans htree
  obtain ⟨v, hstage, gains'⟩ := Brings.stages free (htree ▸ hw) (htree ▸ brings) hsource
  refine ⟨v, ?_, ?_⟩
  · rw [install, Job.bind_of_ok (Job.eq_of_ok hload), heq, Job.bind_of_ok hstage]
    rfl
  · rw [htree] at gains'
    exact ext_get? fun r => (gains' r).trans (gains r).symm

lemma appsIn_cons (toolchain : Path) (dir : String) (rest : List String) :
    appsIn config site executor toolchain (dir :: rest) =
      install config site executor toolchain dir >>= fun _ =>
        appsIn config site executor toolchain rest := by
  rw [appsIn, install, bind_assoc]

include free inert succeeds in
/-- If all applications are built, they could be installed one after the other. -/
lemma sequence_of_appsIn (hw : w.tree.Linkless) (plain : ∀ dir ∈ dirs, Plain config site w.tree dir)
    (h : appsIn config site executor toolchain dirs w = (.ok (), v)) :
    Sequence (Installs config site) dirs w.tree v.tree := by
  induction dirs generalizing w with
  | nil =>
    cases h
    rfl
  | cons dir rest ih =>
    rw [appsIn_cons] at h
    obtain ⟨_, u, hfirst, hrest⟩ := Job.exists_of_bind_ok h
    obtain ⟨hdir, hothers⟩ := List.forall_mem_cons.1 plain
    have installs := installs_of_install free inert succeeds hw hdir hfirst
    refine ⟨u.tree, installs, ih (installs.receives.linkless hw) (fun dir' hdir' => ?_) hrest⟩
    exact (hothers dir' hdir').of_installs free hw installs

include free inert succeeds in
/-- If the applications can be installed one after the other, all of them are built. -/
lemma appsIn_of_sequence (toolchain : Path) (hw : w.tree.Linkless)
    (h : Sequence (Installs config site) dirs w.tree u) :
    ∃ v, appsIn config site executor toolchain dirs w = (.ok (), v) ∧ v.tree = u := by
  induction dirs generalizing w with
  | nil => exact ⟨w, rfl, h⟩
  | cons dir rest ih =>
    obtain ⟨middle, installs, hrest⟩ := h
    obtain ⟨v, hfirst, rfl⟩ := install_of_installs free inert succeeds toolchain hw installs
    rw [appsIn_cons, Job.bind_of_ok hfirst]
    exact ih (installs.receives.linkless hw) hrest

include free inert succeeds in
/-- If all applications are built in one order, they are built in any other one, with the same
files in the end. -/
lemma appsIn_of_perm (hperm : dirs.Perm dirs') (hnodup : dirs.Nodup) (hw : w.tree.Linkless)
    (plain : ∀ dir ∈ dirs, Plain config site w.tree dir)
    (h : appsIn config site executor toolchain dirs w = (.ok (), v)) :
    ∃ v', appsIn config site executor toolchain dirs' w = (.ok (), v') ∧ v'.tree = v.tree := by
  refine appsIn_of_sequence free inert succeeds toolchain hw ?_
  have keeps (dir : String) (t u : FileTree) (ht : t.Linkless) (h : Installs config site dir t u) :
      u.Linkless := h.receives.linkless ht
  refine Sequence.perm keeps (fun dir dir' t u v hne ht installs installs' => ?_) hperm hnodup hw
    (sequence_of_appsIn free inert succeeds hw plain h)
  exact installs_swap free ht hne installs installs'

end Installing

/-- The applications of a list can be built in any order: if one order succeeds, so does every other
one, and all of them leave the same files. -/
theorem appsIn_reordered {config : Config} {site : Site} {executor : Executor} {root : Place}
    {w : World} (toolchain : Path) {dirs dirs' : List String}
    (free : Independent config site root) (linkless : w.tree.Linkless)
    (inert : ∀ calls inv tree, (executor.execute calls inv tree).tree = tree)
    (succeeds : ∀ calls inv tree,
      Executor.callFailure? inv (executor.execute calls inv tree).result = none)
    (plain : ∀ dir ∈ dirs, Plain config site w.tree dir) (nodup : dirs.Nodup)
    (perm : dirs.Perm dirs') :
    let one := appsIn config site executor toolchain dirs w
    let other := appsIn config site executor toolchain dirs' w
    (one.1 = .ok () ↔ other.1 = .ok ()) ∧ (one.1 = .ok () → one.2.tree = other.2.tree) := by
  intro one other
  have forth (hok : one.1 = .ok ()) : other.1 = .ok () ∧ other.2.tree = one.2.tree := by
    obtain ⟨v, h, htree⟩ :=
      appsIn_of_perm free inert succeeds perm nodup linkless plain (Prod.ext hok rfl)
    have hother : other = (.ok (), v) := h
    exact ⟨congrArg Prod.fst hother, hother ▸ htree⟩
  refine ⟨⟨fun hok => (forth hok).1, fun hok => ?_⟩, fun hok => (forth hok).2.symm⟩
  have plain' : ∀ dir ∈ dirs', Plain config site w.tree dir := fun dir hdir =>
    plain dir (perm.mem_iff.2 hdir)
  obtain ⟨v, h, -⟩ := appsIn_of_perm free inert succeeds perm.symm (perm.nodup_iff.1 nodup) linkless
    plain' (Prod.ext hok rfl)
  exact congrArg Prod.fst h

namespace Twins

lemma independent : Independent {} site [] where
  earnest := rfl
  rooted := orderly.rooted
  straight := by decide
  apart volume hvolume := by
    simpa using apart hvolume

lemma plain : ∀ dir ∈ ["a", "b"], Plain {} site ready.tree dir := by
  intro dir hdir
  refine ⟨?_, fun app happ => ?_⟩
  · simp only [List.mem_cons, List.not_mem_nil, or_false] at hdir
    rcases hdir with rfl | rfl <;> decide
  · have hload := eq_ok_of_toOption (ready_evaluated.2.1 dir hdir)
    rw [← Except.ok.inj (hload.symm.trans happ)]
    exact @normal_of_name "tool" (by decide)

lemma apps_evaluated :
    (appsIn {} site idle (.ofString "cargo") ["a", "b"] ready).1.toOption = some () := by
  decide +kernel

end Twins

/-- The twins can be built the other way round. -/
theorem appsIn_reordered_twins :
    (Independent {} Twins.site [] ∧ Twins.ready.tree.Linkless ∧
      (∀ calls inv tree, (Twins.idle.execute calls inv tree).tree = tree) ∧
      (∀ calls inv tree,
        Executor.callFailure? inv (Twins.idle.execute calls inv tree).result = none) ∧
      (∀ dir ∈ ["a", "b"], Plain {} Twins.site Twins.ready.tree dir) ∧
      ["a", "b"].Nodup ∧ ["a", "b"].Perm ["b", "a"]) ∧
    let one := appsIn {} Twins.site Twins.idle (.ofString "cargo") ["a", "b"] Twins.ready
    let other := appsIn {} Twins.site Twins.idle (.ofString "cargo") ["b", "a"] Twins.ready
    one.1 = .ok () ∧ other.1 = .ok () ∧ one.2.tree = other.2.tree := by
  have inert := Twins.inert Twins.idle (by simp)
  have nodup : ["a", "b"].Nodup := by decide
  have perm : ["a", "b"].Perm ["b", "a"] := List.Perm.swap "b" "a" []
  have hok := Twins.eq_ok_of_toOption Twins.apps_evaluated
  obtain ⟨hiff, hsame⟩ := appsIn_reordered (.ofString "cargo") Twins.independent
    Twins.steady.linkless inert Twins.succeeds Twins.plain nodup perm
  refine ⟨⟨Twins.independent, Twins.steady.linkless, inert, Twins.succeeds, Twins.plain, nodup,
    perm⟩, hok, hiff.1 hok, hsame hok⟩

end Build
end BootVolume
