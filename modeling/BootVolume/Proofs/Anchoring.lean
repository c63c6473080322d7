import BootVolume.Program
import BootVolume.Proofs.Job
import BootVolume.Proofs.Spelling

/-!
# Absolute paths

An absolute path leads to the same place from every current directory, and so do all paths of a
project whose root is absolute. Nothing that is done at such a site depends on the current
directory, as long as the executor does not (`Build.all_anywhere`, `Task.lint_anywhere`).
-/

namespace BootVolume

namespace Path

variable {p : Path} {route : Route}

/-- Whatever is joined to an absolute path, the result is absolute. -/
lemma absolute_join (hp : p.isAbsolute = true) (q : Path) : (p.join q).isAbsolute = true := by
  cases hq : q.isAbsolute with
  | false => exact isAbsolute_join hp hq
  | true => rwa [join, if_pos hq]

lemma absolute_of_route? (h : p.route? = .ok route) : route.absolute = p.isAbsolute := by
  rw [route?] at h
  split_ifs at h
  split at h
  · cases h
    rfl
  · cases h

lemma start_anywhere (hp : p.isAbsolute = true) (h : p.route? = .ok route) (here here' : Place) :
    route.start here = route.start here' := by
  rw [Route.start, Route.start, absolute_of_route? h, if_pos hp, if_pos hp]

end Path

/-! ## Files -/

namespace FileTree

section Absolute

variable {p : Path} (hp : p.isAbsolute = true) (here here' : Place) (t : FileTree)
include hp

lemma locate_anywhere (follow : Bool) : t.locate here follow p = t.locate here' follow p := by
  unfold locate
  cases hroute : p.route? with
  | error cause => rfl
  | ok route =>
    dsimp only
    rw [Path.start_anywhere hp hroute here here']

lemma find_anywhere : t.find here p = t.find here' p := by
  rw [find, find, locate_anywhere hp here here']

lemma exists_anywhere : t.exists? here p = t.exists? here' p := by
  rw [exists?, exists?, find_anywhere hp here here']

lemma isFile_anywhere : t.isFile here p = t.isFile here' p := by
  rw [isFile, isFile, find_anywhere hp here here']

lemma isDir_anywhere : t.isDir here p = t.isDir here' p := by
  rw [isDir, isDir, find_anywhere hp here here']

lemma isExecutable_anywhere : t.isExecutable here p = t.isExecutable here' p := by
  rw [isExecutable, isExecutable, find_anywhere hp here here']

lemma readText_anywhere : t.readText here p = t.readText here' p := by
  rw [readText, readText, find_anywhere hp here here']

lemma list_anywhere : t.list here p = t.list here' p := by
  rw [list, list, find_anywhere hp here here']

lemma parentOf_anywhere {route : Route} (hroute : p.route? = .ok route) :
    t.parentOf here route = t.parentOf here' route := by
  rw [parentOf, parentOf, Path.start_anywhere hp hroute here here']

lemma makeDir_anywhere : t.makeDir here p = t.makeDir here' p := by
  unfold makeDir
  cases hroute : p.route? with
  | error cause => rfl
  | ok route =>
    dsimp only
    rw [parentOf_anywhere hp here here' t hroute]

lemma openPlace_anywhere : t.openPlace here p = t.openPlace here' p := by
  unfold openPlace
  cases hroute : p.route? with
  | error cause => rfl
  | ok route =>
    dsimp only
    rw [Path.start_anywhere hp hroute here here']

lemma removeDir_anywhere : t.removeDir here p = t.removeDir here' p := by
  unfold removeDir
  cases hroute : p.route? with
  | error cause => rfl
  | ok route =>
    dsimp only
    rw [parentOf_anywhere hp here here' t hroute]

lemma remove_anywhere : t.remove here p = t.remove here' p := by
  unfold remove removeDirAll
  rw [find_anywhere hp here here', locate_anywhere hp here here']
  simp only [removeDir_anywhere hp here here']

end Absolute

lemma makeChain_anywhere {ps : List Path} (hps : ∀ p ∈ ps, p.isAbsolute = true)
    (here here' : Place) (t : FileTree) : t.makeChain here ps = t.makeChain here' ps := by
  induction ps generalizing t with
  | nil => rfl
  | cons p above ih =>
    obtain ⟨hp, habove⟩ := List.forall_mem_cons.1 hps
    unfold makeChain
    simp only [makeDir_anywhere hp here here', isDir_anywhere hp here here', ih habove]

lemma makeDirs_anywhere {p : Path} (hp : p.isAbsolute = true) (here here' : Place) (t : FileTree) :
    t.makeDirs here p = t.makeDirs here' p :=
  makeChain_anywhere (fun _ hq => (Path.names_of_mem_ancestors hp hq).1) here here' t

lemma copyTarget_anywhere {target : Path} (htarget : target.isAbsolute = true)
    (here here' : Place) (t : FileTree) (source : Path) :
    t.copyTarget here source target = t.copyTarget here' source target := by
  rw [copyTarget, copyTarget, isDir_anywhere htarget here here']

lemma absolute_copyTarget {target : Path} (htarget : target.isAbsolute = true) (here : Place)
    (t : FileTree) (source : Path) : (t.copyTarget here source target).isAbsolute = true := by
  rw [copyTarget]
  split
  · cases source.fileName? with
    | none => exact htarget
    | some name => exact Path.absolute_join htarget _
  · exact htarget

lemma copy_anywhere {source target : Path} (hsource : source.isAbsolute = true)
    (htarget : target.isAbsolute = true) (here here' : Place) (t : FileTree) :
    t.copy here source target = t.copy here' source target := by
  rw [copy, copy, find_anywhere hsource here here', openPlace_anywhere htarget here here']

end FileTree

/-! ## Jobs -/

section Jobs

variable {config : Config} {root : Path}

namespace Volume

variable (here here' : Place)

lemma prepare_anywhere {target : Path} (htarget : target.isAbsolute = true) :
    prepare ⟨here, root⟩ target = prepare ⟨here', root⟩ target := by
  unfold prepare
  cases hparent : target.parent? with
  | none => rfl
  | some parent =>
    have hparent := (Path.names_of_parent? htarget hparent).1
    simp only [FileTree.exists_anywhere hparent here here',
      FileTree.makeDirs_anywhere hparent here here']

/-- A copy goes to an absolute path, even into a directory. -/
lemma copies_anywhere {source target : Path} (hsource : source.isAbsolute = true)
    (htarget : target.isAbsolute = true) :
    (do
      let copied ← Job.ask (·.copyTarget here source target)
      Job.update (.copy source copied) (·.copy here source copied)
      return target) =
    (do
      let copied ← Job.ask (·.copyTarget here' source target)
      Job.update (.copy source copied) (·.copy here' source copied)
      return target : Job Path) := by
  funext w
  have hcopied := FileTree.absolute_copyTarget htarget here w.tree source
  rw [Job.ask_bind, Job.ask_bind, ← FileTree.copyTarget_anywhere htarget here here']
  simp only [FileTree.copy_anywhere hsource hcopied here here']

variable (hroot : root.isAbsolute = true)
include hroot

lemma stage_anywhere : stage config ⟨here, root⟩ = stage config ⟨here', root⟩ := by
  funext source entry
  have hsource : (root.join source).isAbsolute = true := Path.absolute_join hroot source
  have htarget : ((root.join config.boot).join entry).isAbsolute = true :=
    Path.absolute_join (Path.absolute_join hroot _) entry
  unfold stage destination Volume.root Site.path
  dsimp only
  rw [prepare_anywhere here here' htarget, copies_anywhere here here' hsource htarget]
  simp only [FileTree.isFile_anywhere hsource here here']

lemma removeAll_anywhere : removeAll config ⟨here, root⟩ = removeAll config ⟨here', root⟩ := by
  have hvolume : (root.join config.boot).isAbsolute = true := Path.absolute_join hroot _
  unfold removeAll Volume.root Site.path
  simp only [FileTree.exists_anywhere hvolume here here',
    FileTree.remove_anywhere hvolume here here']

end Volume

namespace App

variable (here here' : Place) (hroot : root.isAbsolute = true)
include hroot

lemma load_anywhere : load ⟨here, root⟩ = load ⟨here', root⟩ := by
  funext dir scan
  unfold load Site.path
  simp only [FileTree.readText_anywhere (Path.absolute_join hroot (manifest dir)) here here']

lemma discover_anywhere : discover ⟨here, root⟩ = discover ⟨here', root⟩ := by
  have happs : (root.join (.ofString Layout.appsSource)).isAbsolute = true :=
    Path.absolute_join hroot _
  unfold discover Site.path
  simp only [FileTree.exists_anywhere happs here here', FileTree.list_anywhere happs here here',
    FileTree.isDir_anywhere (Path.absolute_join happs _) here here']

end App
end Jobs

/-! ## Tasks -/

/-- Two executors do the same with an invocation, and find the tools of the project in the same
places. -/
structure Executor.Agree (executor executor' : Executor) : Prop where
  execute : executor.execute = executor'.execute
  locate : ∀ tool ∈ [Layout.toolchain, Layout.hypervisor], ∀ tree,
    executor.locate tree tool = executor'.locate tree tool

section Tasks

variable {config : Config} {root : Path} {executor executor' : Executor} (here here' : Place)
  (agree : executor.Agree executor')
include agree

lemma Executor.Agree.run : executor.run = executor'.run := by
  funext inv w
  rw [run_apply, run_apply, agree.execute]

lemma Executor.Agree.find {tool : String} (htool : tool ∈ [Layout.toolchain, Layout.hypervisor]) :
    executor.find tool = executor'.find tool := by
  funext w
  rw [Executor.find, Executor.find, agree.locate tool htool]

lemma Hypervisor.launch_anywhere : launch config executor = launch config executor' := by
  unfold launch
  rw [agree.find (by simp), agree.run]

variable (hroot : root.isAbsolute = true)
include hroot

namespace Build

lemma bootloader_anywhere :
    bootloader config ⟨here, root⟩ executor = bootloader config ⟨here', root⟩ executor' := by
  have hconf : (root.join (.ofString Layout.bootConfigSource)).isAbsolute = true :=
    Path.absolute_join hroot _
  funext toolchain
  unfold bootloader
  rw [agree.run, Volume.stage_anywhere here here' hroot]
  simp only [Site.path, FileTree.exists_anywhere hconf here here']

lemma kernel_anywhere :
    kernel config ⟨here, root⟩ executor = kernel config ⟨here', root⟩ executor' := by
  funext toolchain
  unfold kernel
  rw [agree.run, Volume.stage_anywhere here here' hroot]

lemma app_anywhere : app config ⟨here, root⟩ executor = app config ⟨here', root⟩ executor' := by
  funext toolchain loaded
  unfold app
  rw [agree.run, Volume.stage_anywhere here here' hroot]

lemma appsIn_anywhere :
    appsIn config ⟨here, root⟩ executor = appsIn config ⟨here', root⟩ executor' := by
  funext toolchain dirs
  induction dirs with
  | nil => rfl
  | cons dir dirs ih =>
    unfold appsIn
    rw [App.load_anywhere here here' hroot, app_anywhere here here' agree hroot, ih]

lemma all_anywhere : all config ⟨here, root⟩ executor = all config ⟨here', root⟩ executor' := by
  unfold all apps
  rw [agree.find (by simp), bootloader_anywhere here here' agree hroot,
    kernel_anywhere here here' agree hroot, App.discover_anywhere here here' hroot,
    appsIn_anywhere here here' agree hroot]

end Build

namespace Task

omit hroot in
lemma checkApps_anywhere : checkApps executor = checkApps executor' := by
  funext toolchain dirs
  induction dirs with
  | nil => rfl
  | cons dir dirs ih =>
    unfold checkApps
    rw [agree.run, ih]

lemma removeOutput_anywhere :
    removeOutput config ⟨here, root⟩ executor = removeOutput config ⟨here', root⟩ executor' := by
  unfold removeOutput
  rw [agree.find (by simp), agree.run, Volume.removeAll_anywhere here here' hroot]
  rfl

lemma lint_anywhere : lint ⟨here, root⟩ executor = lint ⟨here', root⟩ executor' := by
  unfold lint
  rw [agree.find (by simp), agree.run, App.discover_anywhere here here' hroot,
    checkApps_anywhere agree]

end Task

namespace Program

lemma build_anywhere :
    build config ⟨here, root⟩ executor = build config ⟨here', root⟩ executor' := by
  unfold build
  rw [Build.all_anywhere here here' agree hroot]
  rfl

lemma launch_anywhere :
    launch config ⟨here, root⟩ executor = launch config ⟨here', root⟩ executor' := by
  have hvolume : (root.join config.boot).isAbsolute = true := Path.absolute_join hroot _
  unfold launch
  simp only [Volume.root, Site.path, FileTree.exists_anywhere hvolume here here',
    Hypervisor.launch_anywhere agree]

/-- A run at a site with an absolute root does not depend on the current directory. -/
lemma complete_anywhere :
    complete config ⟨here, root⟩ executor = complete config ⟨here', root⟩ executor' := by
  have htask : task config ⟨here, root⟩ executor = task config ⟨here', root⟩ executor' := by
    unfold task
    rw [build_anywhere here here' agree hroot, launch_anywhere here here' agree hroot,
      Task.removeOutput_anywhere here here' agree hroot, Task.lint_anywhere here here' agree hroot]
  funext tree
  unfold complete whole
  rw [htask]

end Program
end Tasks
end BootVolume
