import BootVolume.Proofs.Reordering
import BootVolume.Proofs.Shelving
import BootVolume.Proofs.Visiting

/-!
# Stocking the volume

Where everything is there that a build needs and no volume was before, it succeeds, compiles each
application in its own directory, and stages what was compiled under the name of that directory;
but all this holds just if these names are texts (`stocks_iff_texts`). The name of a directory that
is no text is looked up as it is shown, and that is another name.
-/

namespace BootVolume

open FileTree Layout Job

namespace Job

variable {α β : Type} {before : FileTree → Prop} {between : α → FileTree → Prop}
  {after : β → FileTree → Prop}

/-- From all files of one kind the job succeeds, and leads to files of another kind. -/
def Attains (before : FileTree → Prop) (job : Job α) (after : α → FileTree → Prop) : Prop :=
  ∀ w, before w.tree → ∃ a v, job w = (.ok a, v) ∧ after a v.tree

lemma attains_bind {first : Job α} {second : α → Job β} (hfirst : Attains before first between)
    (hsecond : ∀ a, Attains (between a) (second a) after) :
    Attains before (first >>= second) after := by
  intro w hw
  obtain ⟨a, u, hu, hbetween⟩ := hfirst w hw
  obtain ⟨b, v, hv, hafter⟩ := hsecond a u hbetween
  exact ⟨b, v, (bind_of_ok hu second).trans hv, hafter⟩

/-- A step that changes no files and comes to the same value from all of them. -/
lemma attains_after {first : Job α} {second : α → Job β} {a : α} (hkeeps : Keeps World.tree first)
    (hok : ∀ w, before w.tree → (first w).1 = .ok a) (hsecond : Attains before (second a) after) :
    Attains before (first >>= second) after := by
  intro w hw
  obtain ⟨b, v, hv, hafter⟩ := hsecond (first w).2 (by rwa [hkeeps w])
  exact ⟨b, v, (bind_of_ok (eq_of_ok (hok w hw)) second).trans hv, hafter⟩

lemma attains_mono {job : Job β} {after' : β → FileTree → Prop} (h : Attains before job after)
    (hafter : ∀ b t, after b t → after' b t) : Attains before job after' := by
  intro w hw
  obtain ⟨b, v, hv, hb⟩ := h w hw
  exact ⟨b, v, hv, hafter b _ hb⟩

lemma attains_pure {after : FileTree → Prop} (a : α) : Attains after (pure a) fun _ => after :=
  fun w hw => ⟨a, w, rfl, hw⟩

end Job

lemma compile_injective (toolchain : Path) (profile : Profile) :
    Function.Injective (Invocation.compile toolchain profile) := by
  intro dir dir' heq
  have := congrArg Invocation.workdir heq
  rwa [Invocation.workdir_compile, Invocation.workdir_compile, Option.some.injEq] at this

lemma Path.join_right_injective {p q q' : Path} (hq : q.isAbsolute = false)
    (hq' : q'.isAbsolute = false) (h : p.join q = p.join q') : q = q' := by
  have relative {r : Path} (hr : r.isAbsolute = false) : p.join r =
      if p.bytes.getLast?.all (· = slash) then ⟨p.bytes ++ r.bytes⟩
      else ⟨p.bytes ++ slash :: r.bytes⟩ := by
    rw [join, if_neg (by simp [hr])]
  rw [relative hq, relative hq'] at h
  cases q
  cases q'
  split at h
  · simpa using h
  · simpa using h

namespace Layout

/-- The name of the volume, unless another one is chosen. -/
def volumeName : Name := ⟨Utf8.encode Default.boot, by decide⟩

/-- The sources of an application, by the exact name of its directory. -/
def exactSource (name : Name) : Path := (Path.ofString appsSource).join ⟨name.bytes⟩

def exactManifest (name : Name) : Path := (exactSource name).join (.ofString manifest)

lemma exactSource_injective : Function.Injective exactSource := by
  intro name other h
  have hbytes := Path.join_right_injective (Path.leads_name name).relative
    (Path.leads_name other).relative h
  cases name
  cases other
  simpa using hbytes

lemma exactSource_ne (name : Name) {source : Path} (hsource : source.names.length = 2) :
    exactSource name ≠ source := by
  rintro rfl
  have hleads : (exactSource name).Leads (appsPlace ++ [name]) :=
    leads_apps.join (Path.leads_name name)
  rw [hleads.names] at hsource
  simp [appsPlace] at hsource

lemma nodup_sources {names : List Name} (hnames : names.Nodup) :
    (Path.ofString bootloaderSource :: Path.ofString kernelSource ::
      names.map exactSource).Nodup := by
  have hfixed : Path.ofString bootloaderSource ≠ Path.ofString kernelSource := by decide
  rw [List.nodup_cons, List.nodup_cons, List.mem_cons, List.mem_map, List.mem_map]
  refine ⟨?_, ?_, hnames.map exactSource_injective⟩
  · rintro (heq | ⟨name, -, heq⟩)
    · exact hfixed heq
    · exact exactSource_ne name (by decide) heq
  · rintro ⟨name, -, heq⟩
    exact exactSource_ne name (by decide) heq

end Layout

/-- The directories of the applications by their exact names, without the reserved ones. -/
def App.directories (site : Site) (t : FileTree) : List Name :=
  let apps := site.path (.ofString appsSource)
  match t.list site.here apps with
  | .ok names =>
    (names.filter fun name => t.isDir site.here (apps.join ⟨name.bytes⟩)).filter fun name =>
      !(reserved.map Utf8.encode).contains name.bytes
  | .error _ => []

lemma App.nodup_directories (site : Site) (t : FileTree) : (App.directories site t).Nodup := by
  unfold directories
  dsimp only
  split
  · rename_i names hnames
    refine ((?_ : names.Nodup).filter _).filter _
    unfold list at hnames
    split at hnames
    · cases hnames
    · cases hnames
      exact nodup_children _ _
    · cases hnames
  · exact List.nodup_nil

namespace Build

/-- The manifest in a directory names a package, and this is what was compiled of it. -/
structure Compiled (config : Config) (site : Site) (t : FileTree) (name : Name) (package : String)
    (content : Bytes) (executable : Bool) : Prop where
  named : ∃ text, t.readText site.here (site.path (exactManifest name)) = .ok text ∧
    Manifest.readName config.manifestScan text = .ok (some package)
  artifact : t.HasFile site.here (site.path (artifact appTarget config.profile package)) content
    executable

/-- All that a build needs is there: the artifacts, and manifests for all applications. There is no
volume yet, and all calls succeed. Left out are a boot configuration that is no file and an
`appsSource` that is no directory, at which a build fails as it should. -/
structure Supplied (config : Config) (site : Site) (executor : Executor) (w : World)
    (root : Place) : Prop where
  earnest : config.dryRun = false
  boot : config.boot = .ofString Default.boot
  rooted : site.root.Spells root
  ground : w.tree.get? root = some .dir
  vacant : w.tree.get? (root ++ [volumeName]) = none
  bootloader : w.tree.isFile site.here (site.path Component.bootloader.artifact) = true
  kernel : w.tree.isFile site.here (site.path (Component.kernel config).artifact) = true
  bootConfig : w.tree.exists? site.here (site.path (.ofString bootConfigSource)) = true →
    w.tree.isFile site.here (site.path (.ofString bootConfigSource)) = true
  apps : w.tree.exists? site.here (site.path (.ofString appsSource)) = true →
    w.tree.isDir site.here (site.path (.ofString appsSource)) = true
  compiled : ∀ name ∈ App.directories site w.tree, ∃ package content executable,
    Compiled config site w.tree name package content executable
  located : ∃ toolchain, executor.locate w.tree Layout.toolchain = .ok toolchain
  inert (calls : List Invocation) (inv : Invocation) (tree : FileTree) :
    (executor.execute calls inv tree).tree = tree
  succeeds (calls : List Invocation) (inv : Invocation) (tree : FileTree) :
    Executor.callFailure? inv (executor.execute calls inv tree).result = none

/-- What lies in the volume does not matter to what a build finds: no link leads there from the
applications or the boot configuration. Where there are no links this holds
(`detached_of_linkless`). -/
structure Detached (site : Site) (w : World) (volume : Place) : Prop where
  apps (v : World) : Beyond volume w.tree v.tree → (App.discover site v).1 = (App.discover site w).1
  bootConfig (v : World) : Beyond volume w.tree v.tree →
    v.tree.exists? site.here (site.path (.ofString bootConfigSource)) =
      w.tree.exists? site.here (site.path (.ofString bootConfigSource))

lemma detached_of_linkless {site : Site} {w : World} {root volume : Place} (hw : w.tree.Linkless)
    (hroot : site.root.Spells root) (hapart : Apart volume (root ++ sourcesPlace)) :
    Detached site w volume := by
  have same {v : World} (h : Beyond volume w.tree v.tree) :
      v.tree.Linkless ∧ SameAt (root ++ sourcesPlace) v.tree w.tree := by
    refine ⟨fun r target hr => ?_, fun r hr => h.outside fun hin => ?_⟩
    · by_cases hin : volume <+: r
      · exact h.unlinked target hin hr
      · exact hw r target (h.outside hin ▸ hr)
    · rcases hr with hr | hr
      · exact hapart.1 (hin.trans hr)
      · exact hapart.not_both hin hr
  refine ⟨fun v h => ?_, fun v h => ?_⟩
  · obtain ⟨hv, hsame⟩ := same h
    exact App.discover_congr hv hw hsame (hroot.join leads_apps) (by simp [sourcesPlace, appsPlace])
  · obtain ⟨hv, hsame⟩ := same h
    have hspells :
        (site.path (.ofString bootConfigSource)).Spells (root ++ bootConfigSourcePlace) :=
      hroot.join leads_bootConfigSource
    unfold exists?
    rw [hsame.find site.here hv hw hspells (by simp [sourcesPlace, bootConfigSourcePlace])]

/-- Each application is built once, in its own directory, and staged as itself. -/
structure Stocks (config : Config) (site : Site) (executor : Executor) (w : World)
    (root : Place) : Prop where
  ok : (all config site executor w).1 = .ok ()
  calls : ∃ toolchain, executor.locate w.tree Layout.toolchain = .ok toolchain ∧
    (all config site executor w).2.calls =
      w.calls ++ Invocation.compile toolchain .release (.ofString bootloaderSource) ::
        (Path.ofString kernelSource :: (App.directories site w.tree).map exactSource).map
          (Invocation.compile toolchain config.profile)
  once : (Path.ofString bootloaderSource :: Path.ofString kernelSource ::
    (App.directories site w.tree).map exactSource).Nodup
  staged {name : Name} : name ∈ App.directories site w.tree → ∃ package content executable,
    Compiled config site w.tree name package content executable ∧
    (all config site executor w).2.tree.get? (root ++ [volumeName] ++ appPlace name) =
      some (.file content executable)
  nothingElse {name : Name} : name ∉ App.directories site w.tree →
    (all config site executor w).2.tree.get? (root ++ [volumeName] ++ appPlace name) = none

section Shown

variable {name : Name} (h : ∃ text, name.bytes = Utf8.encode text)
include h

lemma bytes_eq_of_text : name.bytes = Utf8.encode (Utf8.lossy name.bytes) := by
  obtain ⟨text, htext⟩ := h
  rw [htext, Utf8.lossy_encode]

lemma appSource_shown : appSource (Utf8.lossy name.bytes) = exactSource name := by
  have hdir : Path.ofString (Utf8.lossy name.bytes) = ⟨name.bytes⟩ := by
    rw [Path.ofString, ← bytes_eq_of_text h]
  rw [appSource, exactSource, hdir]

lemma manifest_shown : App.manifest (Utf8.lossy name.bytes) = exactManifest name := by
  rw [App.manifest, exactManifest, appSource_shown h]

end Shown

/-- Names that are texts are reserved just if they are shown as reserved ones. -/
lemma filter_shown {names : List Name}
    (htexts : ∀ name ∈ names.filter fun name => !(reserved.map Utf8.encode).contains name.bytes,
      ∃ text, name.bytes = Utf8.encode text) :
    (names.map fun name => Utf8.lossy name.bytes).filter (!reserved.contains ·) =
      (names.filter fun name => !(reserved.map Utf8.encode).contains name.bytes).map
        fun name => Utf8.lossy name.bytes := by
  rw [List.filter_map]
  congr 1
  refine List.filter_congr fun name hname => ?_
  rw [Function.comp_apply, Bool.not_inj_iff, Bool.eq_iff_iff, List.contains_iff_mem,
    List.contains_iff_mem, List.mem_map]
  constructor
  · intro hshown
    by_contra hfree
    refine hfree ⟨_, hshown, (bytes_eq_of_text (htexts name ?_)).symm⟩
    rw [List.mem_filter, Bool.not_eq_true', List.contains_eq_mem, decide_eq_false_iff_not,
      List.mem_map]
    exact ⟨hname, hfree⟩
  · rintro ⟨dir, hdir, heq⟩
    rwa [← heq, Utf8.lossy_encode]

section Supplied

variable {config : Config} {site : Site} {executor : Executor} {w : World} {root : Place}
  (h : Supplied config site executor w root)
include h

/-- The way to an entry of the volume is no longer than the way to its source. -/
lemma Supplied.passes {source entry : Path} {way p : Place} {found : Place × Entry}
    (hsource : source.Leads way) (hfound : w.tree.find site.here (site.path source) = .ok found)
    (hentry : entry.Leads p) (hshort : ∀ name ∈ p, name.bytes.length ≤ nameLimit)
    (hlength : entry.bytes.length + 5 ≤ source.bytes.length) :
    (Volume.destination config site entry).Passes (root ++ [volumeName] ++ p) := by
  have hpasses := passes_of_find (h.rooted.join hsource) hfound
  have hvolume : (Path.ofString Default.boot).Leads [volumeName] := ⟨by decide, by decide⟩
  have hspells := (h.rooted.join hvolume).join hentry
  rw [Volume.destination, Volume.root, Site.path, h.boot]
  refine ⟨hspells, ⟨Path.bytes_ne_nil hspells.absolute, ?_, ?_⟩, fun name hname => ?_⟩
  · have hroot := (Path.zero_not_mem_of_join hsource.relative hpasses.fits.zero).1
    exact Path.zero_not_mem_join (Path.zero_not_mem_join hroot hvolume.zero_not_mem)
      hentry.zero_not_mem
  · have hlong := Path.le_length_join site.root hsource.relative
    have hshort := Path.length_join_le (site.root.join (.ofString Default.boot)) entry
    have hboot := Path.length_join_le site.root (.ofString Default.boot)
    have hthree : (Path.ofString Default.boot).bytes.length = 3 := by decide
    have hfits : (site.root.join source).bytes.length ≤ pathLimit := hpasses.fits.length
    omega
  · rw [List.append_assoc, List.mem_append, List.mem_append, List.mem_singleton] at hname
    rcases hname with hname | rfl | hname
    · exact hpasses.short name (List.mem_append_left _ hname)
    · decide
    · exact hshort name hname

/-- Where all names are texts, the applications are found by them. -/
lemma Supplied.discover
    (htexts : ∀ name ∈ App.directories site w.tree, ∃ text, name.bytes = Utf8.encode text) :
    (App.discover site w).1 =
      .ok ((App.directories site w.tree).map fun name => Utf8.lossy name.bytes) := by
  rw [App.discover_apply]
  unfold App.directories at htexts ⊢
  dsimp only at htexts ⊢
  split
  · rename_i hthere
    obtain ⟨place, hfind⟩ := isDir_eq_true_iff.1 (h.apps hthere)
    have hlist : w.tree.list site.here (site.path (.ofString appsSource)) =
        .ok (w.tree.children place) := by rw [list, hfind]
    rw [hlist] at htexts ⊢
    exact congrArg Except.ok (filter_shown htexts)
  · rename_i hthere
    have hlist (names : List Name) :
        w.tree.list site.here (site.path (.ofString appsSource)) ≠ .ok names := by
      intro hlist
      rw [exists?] at hthere
      unfold list at hlist
      cases hfind : w.tree.find site.here (site.path (.ofString appsSource)) with
      | error cause =>
        rw [hfind] at hlist
        cases hlist
      | ok found =>
        rw [hfind] at hthere
        exact hthere rfl
    split
    · exact absurd ‹_› (hlist _)
    · rfl

end Supplied

/-! ## The fixed components -/

/-- The volume has come to be, and holds nothing but these entries. -/
def Begun (t : FileTree) (volume : Place) (taken : List Place) (u : FileTree) : Prop :=
  ∃ shelf, Shelved t volume shelf u ∧ ∀ p ∉ taken, shelf p = none

section Attaining

variable {config : Config} {site : Site} {executor : Executor} {w : World} {root p : Place}
  {source entry toolchain : Path} {taken : List Place} {shelf : Place → Option Entry}
  {names : List Name}

variable (h : Supplied config site executor w root)
include h

lemma Supplied.run_ok (inv : Invocation) (v : World) : (executor.run inv v).1 = .ok () := by
  rw [Executor.run_apply, h.succeeds]
  rfl

lemma Supplied.attains_compiled {α : Type} {before : FileTree → Prop} {rest : Unit → Job α}
    {after : α → FileTree → Prop} (inv : Invocation) (content : String)
    (hrest : Attains before (rest ()) after) :
    Attains before
      (Job.say .info "Building" content >>= fun _ => executor.run inv >>= rest) after := by
  refine attains_after (overlooks_tree.law.say _ _ (by decide)) (fun _ _ => rfl) ?_
  exact attains_after (keeps_tree_run h.inert inv) (fun v _ => h.run_ok inv v) hrest

lemma Supplied.attains_stage (hp : IsEntry p) (htaken : p ∉ taken)
    (hpasses : (Volume.destination config site entry).Passes (root ++ [volumeName] ++ p))
    (hpointed : entry.Pointed) (hrelative : entry.isAbsolute = false)
    (hfile : w.tree.isFile site.here (site.path source) = true) :
    Attains (Begun w.tree (root ++ [volumeName]) taken) (Volume.stage config site source entry)
      fun _ => Begun w.tree (root ++ [volumeName]) (p :: taken) := by
  obtain ⟨origin, content, executable, hfind⟩ := isFile_eq_true_iff.1 hfile
  rintro v ⟨shelf, shelved, hfree⟩
  obtain ⟨u, hstaged, hu⟩ :=
    shelved.stage h.earnest hp hpasses (hpointed.join _ hrelative) (hfree p htaken) hfind
  refine ⟨_, u, hstaged, _, hu, fun q hq => ?_⟩
  rw [List.mem_cons, not_or] at hq
  rw [Function.update_of_ne hq.1, hfree q hq.2]

variable (detached : Detached site w (root ++ [volumeName]))
include detached

lemma Supplied.attains_bootloader :
    Attains (Begun w.tree (root ++ [volumeName]) [])
      (Build.bootloader config site executor toolchain)
      fun _ => Begun w.tree (root ++ [volumeName]) [bootConfigPlace, bootloaderPlace] := by
  obtain ⟨origin, content, executable, hloader⟩ := isFile_eq_true_iff.1 h.bootloader
  obtain ⟨way, hway⟩ := leads_bootloader_artifact (zero_not_mem_of_find hloader)
  refine h.attains_compiled _ _ (attains_bind (h.attains_stage .bootloader (by simp)
    (h.passes hway hloader leads_bootloader (by decide) (by decide)) (pointed_of_fixed (by simp))
    leads_bootloader.relative h.bootloader) fun _ v begun => ?_)
  have hpresent : v.tree.exists? site.here (site.path (.ofString bootConfigSource)) =
      w.tree.exists? site.here (site.path (.ofString bootConfigSource)) := by
    obtain ⟨shelf, shelved, -⟩ := begun
    exact detached.bootConfig v shelved.toBeyond
  rw [Job.ask_bind, hpresent]
  split
  · rename_i hthere
    obtain ⟨origin, content, executable, hconf⟩ := isFile_eq_true_iff.1 (h.bootConfig hthere)
    exact attains_bind (h.attains_stage .bootConfig (by decide)
      (h.passes leads_bootConfigSource hconf leads_bootConfig (by decide) (by decide))
      (pointed_of_fixed (by simp)) leads_bootConfig.relative (h.bootConfig hthere))
      (fun _ => attains_pure ()) v begun
  · obtain ⟨u, hu, htree⟩ := Job.detail_apply config "Skipping" "no kernel boot.conf" v
    obtain ⟨shelf, shelved, hfree⟩ := begun
    exact ⟨(), u, hu, shelf, htree ▸ shelved, fun p hp => hfree p fun hmem => hp (by simp_all)⟩

omit detached in
lemma Supplied.attains_kernel :
    Attains (Begun w.tree (root ++ [volumeName]) [bootConfigPlace, bootloaderPlace])
      (Build.kernel config site executor toolchain)
      fun _ => Begun w.tree (root ++ [volumeName])
        [kernelPlace, bootConfigPlace, bootloaderPlace] := by
  obtain ⟨origin, content, executable, hkernel⟩ := isFile_eq_true_iff.1 h.kernel
  obtain ⟨way, hway⟩ := leads_kernel_artifact (zero_not_mem_of_find hkernel)
  have hlength (profile : Profile) : (Path.ofString kernelEntry).bytes.length + 5 ≤
      (artifact kernelTarget profile kernelPackage).bytes.length := by
    cases profile <;> decide
  exact h.attains_compiled _ _ (attains_bind (h.attains_stage .kernel (by decide)
    (h.passes hway hkernel leads_kernel (by decide) (hlength config.profile))
    (pointed_of_fixed (by simp)) leads_kernel.relative h.kernel) fun _ => attains_pure ())

/-- The fixed components are built, and the applications are found by their names. -/
lemma Supplied.attains_found
    (htexts : ∀ name ∈ App.directories site w.tree, ∃ text, name.bytes = Utf8.encode text) :
    Attains (Begun w.tree (root ++ [volumeName]) []) (found config site executor toolchain)
      fun dirs u => dirs = (App.directories site w.tree).map (fun name => Utf8.lossy name.bytes) ∧
        Begun w.tree (root ++ [volumeName]) [kernelPlace, bootConfigPlace, bootloaderPlace] u := by
  refine attains_bind (h.attains_bootloader detached) fun _ =>
    attains_bind h.attains_kernel fun _ v begun => ?_
  have hdirs : (App.discover site v).1 = (App.discover site w).1 := by
    obtain ⟨shelf, shelved, -⟩ := begun
    exact detached.apps v shelved.toBeyond
  refine ⟨_, (App.discover site v).2, eq_of_ok (hdirs.trans (h.discover htexts)), rfl, ?_⟩
  rwa [overlooks_tree.law.discover site v]

end Attaining

/-! ## The applications -/

lemma find_of_readText {t : FileTree} {here : Place} {p : Path} {text : String}
    (h : t.readText here p = .ok text) :
    ∃ place content executable, t.find here p = .ok (place, .file content executable) := by
  unfold readText at h
  split at h
  · cases h
  · exact ⟨_, _, _, ‹_›⟩
  · cases h

lemma Shelved.readText {t u : FileTree} {here volume : Place} {shelf : Place → Option Entry}
    {p : Path} {text : String} (h : Shelved t volume shelf u)
    (htext : t.readText here p = .ok text) : u.readText here p = .ok text := by
  obtain ⟨place, content, executable, hfind⟩ := find_of_readText htext
  rw [FileTree.readText, hfind] at htext
  rw [FileTree.readText, h.find hfind]
  exact htext

section Applications

variable {config : Config} {site : Site} {executor : Executor} {w : World} {root : Place}
  {toolchain : Path} {shelf : Place → Option Entry} {names : List Name} {name : Name}
  {package : String} {content : Bytes} {executable : Bool}

lemma Shelved.load_ok {v : World} {volume : Place}
    (shelved : Shelved w.tree volume shelf v.tree) (htext : ∃ text, name.bytes = Utf8.encode text)
    (hcompiled : Compiled config site w.tree name package content executable) :
    (App.load site (Utf8.lossy name.bytes) config.manifestScan v).1 =
      .ok { dir := Utf8.lossy name.bytes, package } := by
  obtain ⟨text, hread, hpackage⟩ := hcompiled.named
  rw [App.load_apply]
  dsimp only
  rw [manifest_shown htext, shelved.readText hread]
  dsimp only
  rw [hpackage]

variable (h : Supplied config site executor w root)
include h

lemma Supplied.passes_app (htext : ∃ text, name.bytes = Utf8.encode text)
    (hcompiled : Compiled config site w.tree name package content executable) :
    (Volume.destination config site (appEntry (Utf8.lossy name.bytes))).Passes
      (root ++ [volumeName] ++ appPlace name) := by
  obtain ⟨text, hread, -⟩ := hcompiled.named
  obtain ⟨_, _, _, hfind⟩ := find_of_readText hread
  have hmanifest : (Path.ofString manifest).Leads [⟨Utf8.encode manifest, by decide⟩] :=
    ⟨by decide, by decide⟩
  have hsource : (exactSource name).Leads (appsPlace ++ [name]) :=
    leads_apps.join (Path.leads_name name)
  have hleads := hsource.join hmanifest
  have hname : name.bytes.length ≤ nameLimit :=
    (passes_of_find (h.rooted.join hleads) hfind).short name (by simp)
  have hlength : (appEntry (Utf8.lossy name.bytes)).bytes.length + 5 ≤
      (exactManifest name).bytes.length := by
    have hentry := Path.length_join_le (.ofString appsEntry) (.ofString (Utf8.lossy name.bytes))
    have hthree : (Path.ofString appsEntry).bytes.length = 3 := by decide
    have hshown : (Path.ofString (Utf8.lossy name.bytes)).bytes.length =
        (⟨name.bytes⟩ : Path).bytes.length := by rw [Path.ofString, ← bytes_eq_of_text htext]
    have hdir := Path.le_length_join (.ofString appsSource) (Path.leads_name name).relative
    have hseven : (Path.ofString appsSource).bytes.length = 7 := by decide
    have hfile := Path.le_length_join (exactSource name) hmanifest.relative
    have hten : (Path.ofString manifest).bytes.length = 10 := by decide
    rw [appEntry, exactManifest]
    rw [exactSource] at hfile ⊢
    omega
  refine h.passes hleads hfind (leads_appEntry htext) (fun other hother => ?_) hlength
  rw [appPlace, List.mem_cons, List.mem_singleton] at hother
  rcases hother with rfl | rfl
  · decide
  · exact hname

lemma Supplied.attains_app (htext : ∃ text, name.bytes = Utf8.encode text)
    (hcompiled : Compiled config site w.tree name package content executable)
    (hfree : shelf (appPlace name) = none) :
    Attains (Shelved w.tree (root ++ [volumeName]) shelf)
      (Build.app config site executor toolchain { dir := Utf8.lossy name.bytes, package })
      fun _ => Shelved w.tree (root ++ [volumeName])
        (Function.update shelf (appPlace name) (some (.file content executable))) := by
  obtain ⟨origin, hfind⟩ := hcompiled.artifact
  have hpointed : (appEntry (Utf8.lossy name.bytes)).Pointed :=
    pointed_appEntry (bytes_eq_of_text htext)
  have hrelative := (leads_appEntry htext).relative
  refine h.attains_compiled _ _ (attains_bind (fun v shelved => ?_) fun _ => attains_pure ())
  obtain ⟨u, hstaged, hu⟩ := shelved.stage h.earnest (.app name) (h.passes_app htext hcompiled)
    (hpointed.join _ hrelative) hfree hfind
  exact ⟨_, u, hstaged, hu⟩

/-- Applications in different directories are all built, and no other entry is written. -/
lemma Supplied.attains_appsIn (toolchain : Path) (hnodup : names.Nodup)
    (hnames : ∀ name ∈ names, name ∈ App.directories site w.tree)
    (htexts : ∀ name ∈ names, ∃ text, name.bytes = Utf8.encode text)
    (hfree : ∀ name ∈ names, shelf (appPlace name) = none) :
    Attains (Shelved w.tree (root ++ [volumeName]) shelf)
      (appsIn config site executor toolchain (names.map fun name => Utf8.lossy name.bytes))
      fun _ u => ∃ stocked, Shelved w.tree (root ++ [volumeName]) stocked u ∧
        (∀ name ∈ names, ∃ package content executable,
          Compiled config site w.tree name package content executable ∧
          stocked (appPlace name) = some (.file content executable)) ∧
        ∀ p, (∀ name ∈ names, p ≠ appPlace name) → stocked p = shelf p := by
  induction names generalizing shelf with
  | nil => exact fun v shelved => ⟨(), v, rfl, shelf, shelved, by simp, fun _ _ => rfl⟩
  | cons name names ih =>
    obtain ⟨hname, hrest⟩ := List.forall_mem_cons.1 hnames
    obtain ⟨htext, htexts⟩ := List.forall_mem_cons.1 htexts
    obtain ⟨hvacant, hfree⟩ := List.forall_mem_cons.1 hfree
    obtain ⟨hnew, hnodup⟩ := List.nodup_cons.1 hnodup
    obtain ⟨package, content, executable, hcompiled⟩ := h.compiled name hname
    have hother (other : Name) (hmem : other ∈ names) : appPlace name ≠ appPlace other := by
      intro heq
      obtain rfl : name = other := by simpa [appPlace] using heq
      exact hnew hmem
    refine attains_after (overlooks_tree.law.load site _ _)
      (fun v shelved => shelved.load_ok htext hcompiled) ?_
    refine attains_bind (h.attains_app htext hcompiled hvacant) fun _ => ?_
    refine attains_mono (ih hnodup hrest htexts fun other hmem => ?_) ?_
    · rw [Function.update_of_ne (hother other hmem).symm, hfree other hmem]
    · rintro _ u ⟨stocked, shelved, hstocked, hsame⟩
      refine ⟨stocked, shelved, List.forall_mem_cons.2 ⟨?_, hstocked⟩, fun p hp => ?_⟩
      · refine ⟨package, content, executable, hcompiled, ?_⟩
        rw [hsame _ hother, Function.update_self]
      · obtain ⟨hne, hp⟩ := List.forall_mem_cons.1 hp
        rw [hsame p hp, Function.update_of_ne hne]

end Applications

section Stocked

variable {config : Config} {site : Site} {executor : Executor} {w : World} {root : Place}

/-- The build and what it leaves, where all names are texts. -/
lemma Supplied.attains_all (h : Supplied config site executor w root)
    (detached : Detached site w (root ++ [volumeName]))
    (htexts : ∀ name ∈ App.directories site w.tree, ∃ text, name.bytes = Utf8.encode text)
    (toolchain : Path) :
    Attains (Begun w.tree (root ++ [volumeName]) [])
      (found config site executor toolchain >>= appsIn config site executor toolchain)
      fun _ u => ∃ stocked, Shelved w.tree (root ++ [volumeName]) stocked u ∧
        (∀ name ∈ App.directories site w.tree, ∃ package content executable,
          Compiled config site w.tree name package content executable ∧
          stocked (appPlace name) = some (.file content executable)) ∧
        ∀ name ∉ App.directories site w.tree, stocked (appPlace name) = none := by
  refine attains_bind (h.attains_found detached htexts) fun dirs => ?_
  rintro v ⟨rfl, shelf, shelved, hfree⟩
  have hvacant (name : Name) : shelf (appPlace name) = none :=
    hfree _ (by simp [appPlace, kernelPlace, bootConfigPlace, bootloaderPlace])
  obtain ⟨a, u, hu, stocked, shelved, hstocked, hsame⟩ :=
    h.attains_appsIn toolchain (App.nodup_directories site w.tree) (fun _ => id)
      htexts (fun name _ => hvacant name) v shelved
  refine ⟨a, u, hu, stocked, shelved, hstocked, fun name hname => ?_⟩
  rw [hsame _ fun other hother heq => hname ?_, hvacant]
  obtain rfl : name = other := by simpa [appPlace] using heq
  exact hother

lemma Supplied.stocks (h : Supplied config site executor w root)
    (detached : Detached site w (root ++ [volumeName]))
    (htexts : ∀ name ∈ App.directories site w.tree, ∃ text, name.bytes = Utf8.encode text) :
    Stocks config site executor w root := by
  obtain ⟨toolchain, hlocate⟩ := h.located
  have start : Begun w.tree (root ++ [volumeName]) [] w.tree :=
    ⟨_, shelved_start (by simpa using h.ground) h.vacant, fun _ _ => rfl⟩
  obtain ⟨_, v, hrun, stocked, shelved, hstocked, hnone⟩ :=
    h.attains_all detached htexts toolchain w start
  have hall : all config site executor w = (.ok (), v) := by
    rw [all_eq, Job.find_bind_of_ok hlocate, hrun]
  obtain ⟨toolchain', dirs, u, hlocate', hfound, hcalls⟩ := calls_of_found hall
  obtain rfl : toolchain = toolchain' := Except.ok.inj (hlocate.symm.trans hlocate')
  obtain ⟨_, _, hfound', hdirs, -⟩ := h.attains_found detached htexts w start
  obtain rfl := Except.ok.inj (congrArg Prod.fst (hfound.symm.trans hfound'))
  have hsources : dirs.map appSource = (App.directories site w.tree).map exactSource := by
    rw [hdirs, List.map_map]
    exact List.map_congr_left fun name hname => appSource_shown (htexts name hname)
  refine ⟨congrArg Prod.fst hall, ⟨toolchain, hlocate, ?_⟩, ?_, fun {name} hname => ?_,
    fun {name} hname => ?_⟩
  · rw [hall, ← hsources]
    exact hcalls
  · exact nodup_sources (App.nodup_directories site w.tree)
  · obtain ⟨package, content, executable, hcompiled, hentry⟩ := hstocked name hname
    refine ⟨package, content, executable, hcompiled, ?_⟩
    rw [hall, shelved.entries (.app name), hentry]
  · rw [hall, shelved.entries (.app name), hnone name hname]

/-- A build that runs in each directory by its exact name has found it by that name. -/
lemma Stocks.texts (h : Stocks config site executor w root) {name : Name}
    (hname : name ∈ App.directories site w.tree) : ∃ text, name.bytes = Utf8.encode text := by
  obtain ⟨toolchain, hlocate, hcalls⟩ := h.calls
  obtain ⟨toolchain', dirs, u, hlocate', hfound, hcalls'⟩ :=
    calls_of_found (eq_of_ok h.ok)
  obtain rfl : toolchain = toolchain' := Except.ok.inj (hlocate.symm.trans hlocate')
  -- The calls are read twice: by the exact names, and by the names that were found.
  rw [hcalls, List.append_cancel_left_eq, List.cons.injEq] at hcalls'
  have hsources := List.map_injective_iff.2 (compile_injective toolchain config.profile) hcalls'.2
  have hmem : exactSource name ∈ dirs.map appSource := by
    rw [← (List.cons.inj hsources).2]
    exact List.mem_map_of_mem hname
  obtain ⟨dir, hdir, hsame⟩ := List.mem_map.1 hmem
  obtain ⟨shown, rfl⟩ := shown_of_found hfound dir hdir
  have hrelative : (Path.ofString (Utf8.lossy shown.bytes)).isAbsolute = false :=
    (Path.leads_name ⟨_, Utf8.isName_lossy shown.isName⟩).relative
  have hbytes := Path.join_right_injective hrelative (Path.leads_name name).relative hsame
  exact ⟨_, (congrArg Path.bytes hbytes).symm⟩

end Stocked

/-- Where everything is supplied and nothing leads into the volume, each application is built and
staged as itself, just if the names of all their directories are texts. -/
theorem stocks_iff_texts {config : Config} {site : Site} {executor : Executor} {w : World}
    {root : Place} (supplied : Supplied config site executor w root)
    (detached : Detached site w (root ++ [volumeName])) :
    Stocks config site executor w root ↔
      ∀ name ∈ App.directories site w.tree, ∃ text, name.bytes = Utf8.encode text :=
  ⟨fun stocks _ => stocks.texts, supplied.stocks detached⟩

namespace Twins

/-- A name that is no text. -/
def unshown : Name := ⟨Utf8.encode "a" ++ [0xFF], by decide⟩

/-- A third twin has this name. -/
def odd : World where
  tree := (ready.tree.put (appsPlace ++ [unshown]) .dir).put
    (appsPlace ++ [unshown, ⟨Utf8.encode manifest, by decide⟩])
    (.file (Utf8.encode "name = \"tool\"") false)

lemma supplied_evaluated :
    (App.directories site ready.tree).map (·.bytes) = ["a", "b"].map Utf8.encode ∧
    unshown ∈ App.directories site odd.tree ∧
    ∀ w ∈ [ready, odd], w.tree.get? [volumeName] = none ∧
    (∀ artifact ∈ [Component.bootloader.artifact, (Component.kernel {}).artifact],
      w.tree.isFile [] (site.path artifact) = true) ∧
    w.tree.exists? [] (site.path (.ofString bootConfigSource)) = false ∧
    w.tree.isDir [] (site.path (.ofString appsSource)) = true ∧
    (∀ name ∈ App.directories site w.tree,
      (w.tree.readText [] (site.path (exactManifest name))).toOption = some "name = \"tool\"") ∧
    (w.tree.find [] (site.path (artifact appTarget .release "tool"))).toOption =
      some (binary, .file (Utf8.encode "tool") true) := by
  decide +kernel

lemma readName_evaluated :
    (Manifest.readName .literal "name = \"tool\"").toOption = some (some "tool") := by
  decide +kernel

lemma supplied {w : World} (hw : w ∈ [ready, odd]) : Supplied {} site idle w [] := by
  obtain ⟨vacant, artifacts, unconfigured, apps, manifests, artifact⟩ := supplied_evaluated.2.2 w hw
  exact {
    earnest := rfl
    boot := rfl
    rooted := orderly.rooted
    ground := get?_root _
    vacant := vacant
    bootloader := artifacts _ (by simp)
    kernel := artifacts _ (by simp)
    bootConfig := fun hthere => by simp_all [site]
    apps := fun _ => apps
    compiled := fun name hname => ⟨"tool", Utf8.encode "tool", true,
      ⟨_, eq_ok_of_toOption (manifests name hname), eq_ok_of_toOption readName_evaluated⟩,
      _, eq_ok_of_toOption artifact⟩
    located := ⟨_, rfl⟩
    inert := idle_inert
    succeeds := succeeds }

lemma detached {w : World} (hw : w ∈ [ready, odd]) : Detached site w [volumeName] := by
  have hready : ready.tree.Linkless := orderly.linkless.put nofun
  have hlinkless : w.tree.Linkless := by
    simp only [List.mem_cons, List.not_mem_nil, or_false] at hw
    rcases hw with rfl | rfl
    · exact hready
    · refine (hready.put ?_).put ?_
      · exact nofun
      · exact nofun
  exact detached_of_linkless hlinkless orderly.rooted ⟨by decide, by decide⟩

end Twins

/-- The twins are both stocked. -/
theorem stocks_twins :
    Supplied {} Twins.site Twins.idle Twins.ready [] ∧
      Detached Twins.site Twins.ready [volumeName] ∧
      (App.directories Twins.site Twins.ready.tree).map (·.bytes) = ["a", "b"].map Utf8.encode ∧
      Stocks {} Twins.site Twins.idle Twins.ready [] := by
  have hsupplied := Twins.supplied (w := Twins.ready) (by simp)
  have hdetached := Twins.detached (w := Twins.ready) (by simp)
  have hnames := Twins.supplied_evaluated.1
  refine ⟨hsupplied, hdetached, hnames, (stocks_iff_texts hsupplied hdetached).2 ?_⟩
  intro name hname
  have hbytes : name.bytes ∈ ["a", "b"].map Utf8.encode := hnames ▸ List.mem_map_of_mem hname
  obtain ⟨text, -, htext⟩ := List.mem_map.1 hbytes
  exact ⟨text, htext.symm⟩

/-- With the third twin the build fails, although everything is supplied for it as well. -/
theorem stocks_misses_odd :
    Supplied {} Twins.site Twins.idle Twins.odd [] ∧ Detached Twins.site Twins.odd [volumeName] ∧
      Twins.unshown ∈ App.directories Twins.site Twins.odd.tree ∧
      (all {} Twins.site Twins.idle Twins.odd).1.toOption = none ∧
      ¬Stocks {} Twins.site Twins.idle Twins.odd [] := by
  have hfails : (all {} Twins.site Twins.idle Twins.odd).1.toOption = none := by decide +kernel
  refine ⟨Twins.supplied (by simp), Twins.detached (by simp), Twins.supplied_evaluated.2.1, hfails,
    fun stocks => ?_⟩
  rw [stocks.ok] at hfails
  cases hfails

end Build
end BootVolume
