import BootVolume.Proofs.Ordinary
import BootVolume.Proofs.Footprint

/-!
# Where the binary of an application is looked for

The artifact of an application is found by joining the name of its package to the directory of
compiled output. It lies directly in that directory if and only if the name is one normal component
(`appArtifact_isChild_iff`), and no way of reading manifests sees to that: an absolute name or one
that goes up has any other file staged (`build_stages_secret`).
-/

namespace BootVolume

namespace Path

variable {p q : Path}

/-- A path has one component more than another, and that is a normal one. -/
def IsChild (p q : Path) : Prop := ∃ bytes, q.components = p.components ++ [.name bytes]

/-- A relative path says nothing but one name. -/
def IsSingle (p : Path) : Prop := p.isAbsolute = false ∧ ∃ bytes, p.names = [bytes] ∧ bytes ≠ dotDot

lemma segments_join (hp : p.bytes ≠ []) (hlast : p.bytes.getLast? ≠ some slash)
    (hq : q.isAbsolute = false) : (p.join q).segments = p.segments ++ q.segments := by
  obtain ⟨front, last, hbytes⟩ := List.eq_nil_or_concat p.bytes |>.resolve_left hp
  have hslash : last ≠ slash := by
    rintro rfl
    exact hlast (by simp [hbytes])
  rw [join, if_neg (by simp [hq]), if_neg (by simp [hbytes, hslash])]
  exact pieces_append_slash p.bytes q.bytes

/-- Joining appends the components that are not idle. -/
lemma components_join (hp : p.bytes ≠ []) (hlast : p.bytes.getLast? ≠ some slash)
    (hq : q.isAbsolute = false) :
    (p.join q).components = p.components ++ q.names.map Component.ofSegment := by
  obtain ⟨first, rest, hsegs⟩ := List.exists_cons_of_ne_nil (pieces_ne_nil (· = slash) p.bytes)
  change p.segments = first :: rest at hsegs
  have hjoined : (p.join q).segments = first :: (rest ++ q.segments) := by
    rw [segments_join hp hlast hq, hsegs, List.cons_append]
  have habsolute : (p.join q).isAbsolute = p.isAbsolute := by
    obtain ⟨head, tail, hbytes⟩ := List.exists_cons_of_ne_nil hp
    rw [join, if_neg (by simp [hq])]
    split <;> simp [isAbsolute, hbytes]
  rw [components, components, hsegs, hjoined, habsolute, names]
  simp

lemma root_mem_components (hp : p.isAbsolute = true) : .root ∈ p.components := by
  obtain ⟨first, rest, hsegs⟩ := List.exists_cons_of_ne_nil (pieces_ne_nil (· = slash) p.bytes)
  change p.segments = first :: rest at hsegs
  rw [components, hsegs]
  simp [hp]

lemma Normal.root_not_mem (h : p.Normal) : .root ∉ p.components := by
  intro hroot
  obtain ⟨bytes, hbytes⟩ := h .root hroot
  cases hbytes

/-- What is joined to a directory is its child just if it is one name. -/
lemma isChild_join_iff (hnormal : p.Normal) (hp : p.bytes ≠ [])
    (hlast : p.bytes.getLast? ≠ some slash) : p.IsChild (p.join q) ↔ q.IsSingle := by
  cases hq : q.isAbsolute with
  | true =>
    have hjoin : p.join q = q := by rw [join, if_pos hq]
    constructor
    · rintro ⟨bytes, hchild⟩
      have hroot := root_mem_components hq
      rw [hjoin] at hchild
      rw [hchild, List.mem_append, List.mem_singleton] at hroot
      rcases hroot with hroot | hroot
      · exact absurd hroot hnormal.root_not_mem
      · cases hroot
    · rintro ⟨hrelative, -⟩
      rw [hq] at hrelative
      cases hrelative
  | false =>
    rw [IsChild, components_join hp hlast hq]
    simp only [List.append_cancel_left_eq, List.map_eq_singleton_iff]
    constructor
    · rintro ⟨bytes, seg, hnames, hseg⟩
      refine ⟨hq, seg, hnames, ?_⟩
      rintro rfl
      cases hseg
    · rintro ⟨-, seg, hnames, hseg⟩
      exact ⟨seg, seg, hnames, if_neg hseg⟩

end Path

namespace Layout

/-- Where the binaries of applications appear. -/
def appOutput (profile : Profile) : Path :=
  ((Path.ofString targetDir).join (.ofString appTarget)).join (.ofString profile.dir)

lemma isChild_artifact_iff (profile : Profile) (name : String) :
    (appOutput profile).IsChild (artifact appTarget profile name) ↔
      (Path.ofString name).IsSingle := by
  have hcomponents : (appOutput profile).components =
      [targetDir, appTarget, profile.dir].map fun name => .name (Utf8.encode name) := by
    cases profile <;> decide +kernel
  have hnormal : (appOutput profile).Normal := by
    intro c hc
    rw [hcomponents] at hc
    obtain ⟨name, -, rfl⟩ := List.mem_map.1 hc
    exact ⟨_, rfl⟩
  have hbytes : (appOutput profile).bytes ≠ [] ∧
      (appOutput profile).bytes.getLast? ≠ some Path.slash := by
    cases profile <;> decide +kernel
  exact Path.isChild_join_iff hnormal hbytes.1 hbytes.2

end Layout

namespace Build

open Layout Toml FileTree

section Loaded

variable {config : Config} {site : Site} {executor : Executor} {toolchain : Path} {app : App}
  {w v : World}

/-- What the build of an application has staged is a copy from its artifact. -/
lemma copy_of_app (hdry : config.dryRun = false)
    (h : Build.app config site executor toolchain app w = (.ok (), v)) :
    ∃ paved : FileTree,
      let source := site.path (artifact appTarget config.profile app.package)
      let entry := Volume.destination config site (appEntry app.dir)
      paved.copy site.here source (paved.copyTarget site.here source entry) = .ok v.tree := by
  rw [Build.app, Job.say_bind] at h
  obtain ⟨_, compiled, -, h⟩ := Job.exists_of_bind_ok h
  obtain ⟨staged, u, hstage, h⟩ := Job.exists_of_bind_ok h
  cases h
  obtain ⟨paved, -, hcopy⟩ := Volume.copy_of_stage hdry hstage
  exact ⟨paved, hcopy⟩

/-- Whatever text a package may be given as its name, there is a manifest that gives it, however it
is read. -/
lemma exists_manifest {name : String} (h : ∀ c ∈ name.toList, IsVerbatim c) :
    ∃ text, ∀ scan, Manifest.readName scan text = .ok (some name) := by
  have hkeys : (([] ++ TextPair.naming name h :: []).map TextPair.key).Nodup :=
    List.nodup_singleton _
  exact ⟨packageText ([] ++ TextPair.naming name h :: []) true,
    Manifest.readName_packageText rfl hkeys (fun _ hother => absurd hother List.not_mem_nil) true⟩

/-- The package of an application is what its manifest says, and any text that can be written there
as it is may be said. The path that the build stages it from leads to a child of the directory of
binaries if and only if this text is one name. -/
theorem appArtifact_isChild_iff {dir : String} {scan : ManifestScan}
    (hload : (App.load site dir scan w).1 = .ok app) :
    let source := artifact appTarget config.profile app.package
    ((appOutput config.profile).IsChild source ↔ (Path.ofString app.package).IsSingle) ∧
    (∃ text, w.tree.readText site.here (site.path (App.manifest dir)) = .ok text ∧
      Manifest.readName scan text = .ok (some app.package)) ∧
    (∀ name : String, (∀ c ∈ name.toList, IsVerbatim c) →
      ∃ text, ∀ scan, Manifest.readName scan text = .ok (some name)) ∧
    (config.dryRun = false → ∀ u v, Build.app config site executor toolchain app u = (.ok (), v) →
      ∃ paved : FileTree,
        let entry := Volume.destination config site (appEntry dir)
        paved.copy site.here (site.path source)
          (paved.copyTarget site.here (site.path source) entry) = .ok v.tree) := by
  intro source
  have hnamed : ∃ text, w.tree.readText site.here (site.path (App.manifest dir)) = .ok text ∧
      Manifest.readName scan text = .ok (some app.package) := by
    rw [App.load_apply] at hload
    dsimp only at hload
    split at hload
    · cases hload
    · rename_i text hread
      refine ⟨text, hread, ?_⟩
      split at hload
      · cases hload
      · cases hload
      · cases hload
        assumption
  refine ⟨isChild_artifact_iff _ _, hnamed, fun name => exists_manifest, fun hdry u v h => ?_⟩
  obtain rfl := load_dir (Job.eq_of_ok hload)
  exact copy_of_app hdry h

end Loaded

namespace Twins

/-- An application with a package of some name, and a file that is no binary of it. -/
def guarded (name : String) : World where
  tree := filled [("secret", .file (Utf8.encode "secret") false), ("pkg", .dir), ("pkg/app", .dir),
    ("pkg/app/tool", .dir), ("pkg/app/tool/Cargo.toml",
      .file (Utf8.encode ("[package]\nname = \"" ++ name ++ "\"\n")) false),
    ("target", .dir), ("target/x86_64-unknown-ysos", .dir),
    ("target/x86_64-unknown-ysos/release", .dir),
    ("target/x86_64-unknown-ysos/release/shell", .file (Utf8.encode "shell") true)]

/-- The build of the application, with its outcome and what is there then. -/
def built (name : String) : Except Failure Unit × World :=
  Build.app {} site idle (.ofString "cargo") { dir := "tool", package := name } (guarded name)

lemma guarded_evaluated :
    ∀ name ∈ ["shell", "/secret", "../../../secret"],
      (∀ scan ∈ [ManifestScan.literal, .strict],
        (App.load site "tool" scan (guarded name)).1.toOption =
          some { dir := "tool", package := name }) ∧
      (built name).1.toOption = some () ∧
      (built name).2.tree.get? (place "esp/APP/tool") =
        some (if name = "shell" then .file (Utf8.encode "shell") true
          else .file (Utf8.encode "secret") false) := by
  decide +kernel

variable {name : String}

lemma load_guarded (hname : name ∈ ["shell", "/secret", "../../../secret"]) (scan : ManifestScan) :
    (App.load site "tool" scan (guarded name)).1 = .ok { dir := "tool", package := name } := by
  apply eq_ok_of_toOption
  cases scan with
  | literal => exact (guarded_evaluated name hname).1 _ (by decide)
  | strict => exact (guarded_evaluated name hname).1 _ (by decide)

lemma guarded_built (hname : name ∈ ["shell", "/secret", "../../../secret"]) :
    (built name).1 = .ok () :=
  eq_ok_of_toOption (guarded_evaluated name hname).2.1

end Twins

/-- The binary of an application whose package has a plain name is taken from the directory. -/
theorem appArtifact_isChild_iff_shell :
    let source := artifact appTarget .release "shell"
    (App.load Twins.site "tool" .strict (Twins.guarded "shell")).1 =
        .ok { dir := "tool", package := "shell" } ∧
      (∀ c ∈ "shell".toList, IsVerbatim c) ∧
      (∃ text, ∀ scan, Manifest.readName scan text = .ok (some "shell")) ∧
      (appOutput .release).IsChild source ∧ (Twins.built "shell").1 = .ok () ∧
      ∃ paved : FileTree,
        let entry := Volume.destination {} Twins.site (appEntry "tool")
        paved.copy [] (Twins.site.path source)
          (paved.copyTarget [] (Twins.site.path source) entry) =
            .ok (Twins.built "shell").2.tree := by
  intro source
  have hload := Twins.load_guarded List.mem_cons_self .strict
  have hbuilt := @Twins.guarded_built "shell" List.mem_cons_self
  have hverbatim : ∀ c ∈ "shell".toList, IsVerbatim c :=
    List.forall_iff_forall_mem.1 (by decide +kernel)
  have hsingle : (Path.ofString "shell").IsSingle :=
    ⟨by decide +kernel, Utf8.encode "shell", by decide +kernel, by decide +kernel⟩
  obtain ⟨hchild, -, hmanifest, hcopy⟩ :=
    @appArtifact_isChild_iff {} Twins.site Twins.idle (.ofString "cargo") _ _ _ _ hload
  exact ⟨hload, hverbatim, hmanifest _ hverbatim, hchild.2 hsingle, hbuilt,
    hcopy rfl _ _ (Job.eq_of_ok hbuilt)⟩

namespace Twins

/-- The application is loaded and built, and what is staged is no binary of it. -/
structure Astray (name : String) : Prop where
  load : ∀ scan, (App.load site "tool" scan (guarded name)).1 =
    .ok { dir := "tool", package := name }
  not_isChild : ¬(appOutput .release).IsChild (artifact appTarget .release name)
  ends_well : (built name).1 = .ok ()
  staged : (built name).2.tree.get? (place "esp/APP/tool") =
    some (.file (Utf8.encode "secret") false)

lemma astray (hname : name ∈ ["/secret", "../../../secret"]) : Astray name := by
  have hlisted := List.mem_cons_of_mem "shell" hname
  have hother : name ≠ "shell" := by
    rintro rfl
    revert hname
    decide
  have hmany : (Path.ofString name).isAbsolute = true ∨ (Path.ofString name).names.length ≠ 1 := by
    revert name
    decide +kernel
  refine ⟨load_guarded hlisted, ?_, guarded_built hlisted, ?_⟩
  · rw [isChild_artifact_iff]
    rintro ⟨hrelative, bytes, hnames, -⟩
    rcases hmany with habsolute | hlength
    · rw [hrelative] at habsolute
      cases habsolute
    · exact hlength (congrArg List.length hnames)
  · rw [(guarded_evaluated name hlisted).2.2, if_neg hother]

end Twins

/-- A manifest that names a path has the build stage what is there, whichever way it is read. -/
theorem build_stages_secret : Twins.Astray "/secret" ∧ Twins.Astray "../../../secret" :=
  ⟨Twins.astray List.mem_cons_self, Twins.astray (List.mem_cons_of_mem _ List.mem_cons_self)⟩

end Build
end BootVolume
