import BootVolume.Proofs.Contents
import BootVolume.Proofs.Growing

/-!
# What is copied

Whatever the tree and its links are, staging that succeeds writes one file, next to new directories:
the entry itself, or a file of the source's name in the directory that the entry is
(`stage_copies`). The path that is returned is a file like the source exactly if it is no directory
and not the source itself, which a copy empties.
-/

namespace BootVolume

open FileTree

namespace FileTree

/-- A file was copied: from `origin` in the tree `t` to `place` in `u`. A path that leads to the
source only through directories that were made found nothing before. -/
structure Copied (here : Place) (source target : Path) (t u : FileTree) (origin place : Place)
    (content : Bytes) (executable : Bool) : Prop where
  read : t.get? origin = some (.file content executable)
  before {found : Place × Entry} : t.find here source = .ok found →
    found = (origin, .file content executable)
  written : u.get? place = some (.file (if place = origin then [] else content) executable)
  others {r : Place} : r ≠ place → u.get? r = t.get? r ∨ t.get? r = none ∧ u.get? r = some .dir
  reached : u.find here (u.copyTarget here source target) =
    .ok (place, .file (if place = origin then [] else content) executable)

variable {t paved u : FileTree} {here : Place} {source target : Path}

/-- A copy still goes to the same path when there is a file. -/
lemma Opens.copyTarget_eq {place : Place} {content : Bytes} {executable : Bool}
    (opens : Opens t here (t.copyTarget here source target) place) (grows : Grows t u)
    (hfile : u.get? place = some (.file content executable)) :
    u.copyTarget here source target = t.copyTarget here source target := by
  have hreached := opens.find grows hfile
  by_cases hdir : t.isDir here target = true
  · rw [copyTarget, copyTarget, if_pos hdir, if_pos (grows.isDir hdir)]
  · rw [copyTarget.eq_def t, if_neg hdir] at hreached ⊢
    rw [copyTarget, isDir, hreached, if_neg Bool.false_ne_true]

lemma copied_of_copy (hpaved : Widens t paved)
    (h : paved.copy here source (paved.copyTarget here source target) = .ok u) :
    ∃ origin place content executable,
      Copied here source target t u origin place content executable := by
  rw [copy] at h
  split at h
  · cases h
  · rename_i origin content executable hsource
    split at h
    · cases h
    rename_i place hopen
    cases h
    have opens := opens_of_openPlace hopen
    have grows := Grows.put (opens.admits (if place = origin then [] else content) executable)
      opens.unlinked
    have hwritten := get?_put (opens.admits (if place = origin then [] else content) executable)
    have hput := (hwritten place).trans (if_pos rfl)
    have hreached := opens.find grows hput
    have htarget := opens.copyTarget_eq grows hput
    refine ⟨origin, place, content, executable, ?_, fun {found} hfound => ?_, hput,
      fun {r} hr => ?_, htarget ▸ hreached⟩
    · exact hpaved.get?_of_ne_dir (find_eq_ok_iff.1 hsource).2 (by simp)
    · exact Except.ok.inj ((hpaved.find hfound).symm.trans hsource)
    · rw [hwritten, if_neg hr]
      exact hpaved r
  · cases h

/-- The target is a file like the source once more, unless it is a directory or the source, which a
copy to itself empties. -/
lemma Copied.hasFile_iff {origin place : Place} {content : Bytes} {executable : Bool}
    (h : Copied here source target t u origin place content executable) :
    u.HasFile here target content executable ↔
      u.isDir here target = false ∧ (place = origin → content = []) := by
  constructor
  · rintro ⟨q, hfind⟩
    have hdir : u.isDir here target = false := by rw [isDir, hfind]
    refine ⟨hdir, fun hsame => ?_⟩
    have hreached := h.reached
    rw [copyTarget, if_neg (by simp [hdir]), hfind, if_pos hsame] at hreached
    cases hreached
    rfl
  · rintro ⟨hdir, hempty⟩
    refine ⟨place, ?_⟩
    have hreached := h.reached
    rw [copyTarget, if_neg (by simp [hdir])] at hreached
    rw [hreached]
    split
    · rw [hempty ‹_›]
    · rfl

end FileTree

namespace Volume

section Staging

variable {config : Config} {site : Site} {w v : World} {source entry staged : Path}

/-- What is staged is copied, and the path that is returned is a file with the content that the
source had exactly if it leads to no directory, and not to the source unless that is empty. -/
theorem stage_copies (hdry : config.dryRun = false)
    (h : stage config site source entry w = (.ok staged, v)) :
    staged = destination config site entry ∧ ∃ origin place content executable,
      Copied site.here (site.path source) staged w.tree v.tree origin place content executable ∧
      (v.tree.HasFile site.here staged content executable ↔
        v.tree.isDir site.here staged = false ∧ (place = origin → content = [])) := by
  obtain rfl := destination_of_stage h
  obtain ⟨paved, hpaved, hcopy⟩ := copy_of_stage hdry h
  have widens : Widens w.tree paved := by
    rcases hpaved with rfl | ⟨parent, -, rfl⟩
    · exact .refl _
    · exact widens_makeDirs _ _ _
  obtain ⟨origin, place, content, executable, copied⟩ := copied_of_copy widens hcopy
  exact ⟨rfl, origin, place, content, executable, copied, copied.hasFile_iff⟩

end Staging
end Volume

namespace Build.Twins

open Volume

/-- Where the kernel of the twins comes from, and where it goes. -/
def kernel : Path := Layout.artifact Layout.kernelTarget .release Layout.kernelPackage

def kernelEntry : Path := .ofString Layout.kernelEntry

/-- The twins, with something in the place of the kernel on the volume. -/
def occupied (entry : Entry) : FileTree :=
  (tree.put (place "esp") .dir).put (place "esp/KERNEL.ELF") entry

lemma staged_evaluated :
    let done := stage {} site kernel kernelEntry { tree }
    done.1.toOption = some (destination {} site kernelEntry) ∧
      (tree.find [] (site.path kernel)).toOption.map Prod.snd =
        some (.file (Utf8.encode "kernel") false) ∧
      (done.2.tree.locate [] true (destination {} site kernelEntry)).toOption =
        some (place "esp/KERNEL.ELF") ∧
      tree.get? (place "esp/KERNEL.ELF") = none ∧
      done.2.tree.isDir site.here (destination {} site kernelEntry) = false := by
  decide +kernel

lemma missed_evaluated :
    let target := destination {} site kernelEntry
    let elf := Entry.file (Utf8.encode "kernel") false
    let nested := stage {} site kernel kernelEntry { tree := occupied .dir }
    let emptied := stage {} site (.ofString "esp/KERNEL.ELF") kernelEntry { tree := occupied elf }
    (nested.1.toOption = some target ∧ nested.2.tree.isFile [] target = false ∧
      nested.2.tree.get? (place "esp/KERNEL.ELF/ysos_kernel") = some elf) ∧
    emptied.1.toOption = some target ∧ (occupied elf).get? (place "esp/KERNEL.ELF") = some elf ∧
      emptied.2.tree.get? (place "esp/KERNEL.ELF") = some (.file [] false) := by
  decide +kernel

end Build.Twins

namespace Volume

open Build.Twins

/-- The kernel of the twins is staged where nothing was. -/
theorem stage_copies_kernel :
    let target := destination {} site kernelEntry
    let done := stage {} site kernel kernelEntry { tree }
    (Config.dryRun {} = false ∧ done = (.ok target, done.2)) ∧
      done.2.tree.HasFile [] target (Utf8.encode "kernel") false := by
  dsimp only
  obtain ⟨hok, hbefore, hplace, hnone, hdir⟩ := staged_evaluated
  have hstaged : stage {} site kernel kernelEntry { tree } =
      (.ok (destination {} site kernelEntry), (stage {} site kernel kernelEntry { tree }).2) :=
    Job.eq_of_ok (eq_ok_of_toOption hok)
  refine ⟨⟨rfl, hstaged⟩, ?_⟩
  obtain ⟨-, origin, place, content, executable, copied, hfile⟩ := stage_copies rfl hstaged
  obtain ⟨found, hfound, hentry⟩ := Option.map_eq_some_iff.1 hbefore
  rw [copied.before (eq_ok_of_toOption hfound)] at hentry
  cases hentry
  refine hfile.2 ⟨hdir, fun hsame => ?_⟩
  have hreached := copied.reached
  rw [copyTarget, if_neg (ne_true_of_eq_false hdir)] at hreached
  have hthere := (find_eq_ok_iff.1 hreached).1
  rw [← Except.ok.inj (hthere.symm.trans (eq_ok_of_toOption hplace)), hsame, copied.read] at hnone
  cases hnone

/-- A kernel that is staged where a directory is goes into it, and one that is staged onto itself is
lost, and both are said to be staged. -/
theorem stage_misses_kernel :
    let target := destination {} site kernelEntry
    let elf := Entry.file (Utf8.encode "kernel") false
    let nested := stage {} site kernel kernelEntry { tree := occupied .dir }
    let emptied := stage {} site (.ofString "esp/KERNEL.ELF") kernelEntry { tree := occupied elf }
    (nested.1 = .ok target ∧ nested.2.tree.isFile [] target = false ∧
      nested.2.tree.get? (place "esp/KERNEL.ELF/ysos_kernel") = some elf) ∧
    emptied.1 = .ok target ∧ (occupied elf).get? (place "esp/KERNEL.ELF") = some elf ∧
      emptied.2.tree.get? (place "esp/KERNEL.ELF") = some (.file [] false) := by
  dsimp only
  obtain ⟨⟨hnested, hinto⟩, hemptied, hlost⟩ := missed_evaluated
  exact ⟨⟨eq_ok_of_toOption hnested, hinto⟩, eq_ok_of_toOption hemptied, hlost⟩

end Volume
end BootVolume
