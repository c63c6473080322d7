import BootVolume.Proofs.Job
import BootVolume.Program

/-!
# Announcements

A run with details tells of every file that it copies, every directory that it removes and every
child that it starts (`announced`). A dry run tells in the same way of what it would do. Nothing
else that is done to the files or asked of them is told.
-/

namespace BootVolume

/-- What is said to be done, or to be left undone in a dry run. -/
def announcing : List String := ["Executing", "Copying", "Removing", "Would copy", "Would remove"]

def Event.announcement? : Event → Option Message
  | said message => if message.step ∈ announcing then some message else none
  | asked _ _ | ran _ _ _ | notStarted _ _ => none

/-- All that a run tells of what it does. -/
def announced (events : List Event) : List Message := events.filterMap Event.announcement?

/-- The message by which a dry run tells the same. -/
def Message.rehearsed (message : Message) : Message :=
  { message with
    step := if message.step = "Copying" then "Would copy"
      else if message.step = "Removing" then "Would remove" else message.step }

def World.told (w : World) : List Message := announced w.events

/-- A run that does what it is asked for and tells all of it. -/
def Config.inEarnest (config : Config) : Config := { config with verbose := true, dryRun := false }

/-- The same run without any effect. -/
def Config.inRehearsal (config : Config) : Config := { config with dryRun := true }

lemma told_said (w : World) (message : Message) :
    World.told { w with events := w.events ++ [.said message] } =
      w.told ++ (Event.said message).announcement?.toList := by
  rw [World.told, announced, List.filterMap_append, List.filterMap_cons]
  cases (Event.said message).announcement? <;> rfl

lemma told_record (w : World) (request : FileRequest) (granted : Bool) (tree : FileTree) :
    (Job.record w request granted tree).told = w.told := by
  simp [World.told, announced, Job.record, Event.announcement?]

section Silent

open Job

variable {α : Type}

/-! ## What is done without a word -/

lemma keeps_told_query (request : FileRequest) (question : FileTree → Except SystemError α) :
    Keeps World.told (query request question) := by
  intro w
  rw [query]
  split <;> exact told_record w _ _ _

lemma keeps_told_change (request : FileRequest) (operation : FileTree → Change) :
    Keeps World.told (change request operation) := by
  intro w
  rw [change]
  split <;> exact told_record w _ _ _

lemma keeps_told_prepare (site : Site) (target : Path) :
    Keeps World.told (Volume.prepare site target) := by
  unfold Volume.prepare
  split
  · exact fun _ => rfl
  · refine keeps_bind (fun _ => rfl) fun there => ?_
    split
    · exact fun _ => rfl
    · exact keeps_told_change _ _

lemma keeps_told_discover (site : Site) : Keeps World.told (App.discover site) := by
  unfold App.discover
  refine keeps_bind (fun _ => rfl) fun there => ?_
  split
  · exact keeps_bind (keeps_told_query _ _) fun _ => keeps_bind (fun _ => rfl) fun _ _ => rfl
  · exact fun _ => rfl

lemma keeps_told_load (site : Site) (dir : String) (scan : ManifestScan) :
    Keeps World.told (App.load site dir scan) := by
  unfold App.load
  refine keeps_bind (keeps_told_query _ _) fun text => ?_
  rcases Manifest.readName scan text with fault | _ | package <;> exact fun _ => rfl

end Silent

/-! ## What is told -/

section Telling

variable {config : Config} {site : Site} {w v : World}

lemma detail_of_showDebug (h : config.showDebug = true) (step content : String) :
    Job.detail config step content = Job.say .debug step content := by
  rw [Job.detail, if_pos h]

lemma told_of_stage (hdry : config.dryRun = false) (hloud : config.showDebug = true)
    {source entry staged : Path} (h : Volume.stage config site source entry w = (.ok staged, v)) :
    staged = Volume.destination config site entry ∧
      v.told = w.told ++ [{
        level := .debug
        step := "Copying"
        content := (site.path source).display ++ " -> " ++
          (Volume.destination config site entry).display }] := by
  rw [Volume.stage] at h
  dsimp only at h
  rw [if_neg (by simp [hdry]), detail_of_showDebug hloud] at h
  have hprepared := keeps_told_prepare site (Volume.destination config site entry) w
  obtain ⟨_, paved, hprepare, h⟩ := Job.exists_of_bind_ok h
  rw [hprepare] at hprepared
  rw [Job.ask_bind] at h
  split at h
  · rw [Job.say_bind, Job.ask_bind] at h
    generalize hsaid : ({ paved with events := _ } : World) = said at h
    obtain ⟨_, copied, hcopy, h⟩ := Job.exists_of_bind_ok h
    cases h
    have hcopied := (congrArg (World.told ∘ Prod.snd) hcopy).symm.trans (keeps_told_change _ _ said)
    refine ⟨rfl, hcopied.trans ?_⟩
    rw [← hsaid, told_said, ← hprepared]
    rfl
  · cases h

/-- A dry run tells of the copy that it does not make. -/
lemma stage_of_dryRun (hdry : config.dryRun = true) (source entry : Path) (w : World) :
    Volume.stage config site source entry w = (.ok (Volume.destination config site entry),
      { w with
        events := w.events ++ [.said {
          level := .debug
          step := "Would copy"
          content := (site.path source).display ++ " -> " ++
            (Volume.destination config site entry).display }] }) := by
  have hloud : config.showDebug = true := by simp [Config.showDebug, hdry]
  rw [Volume.stage]
  dsimp only
  rw [if_pos hdry, detail_of_showDebug hloud, Job.say_bind]
  rfl

lemma told_of_removeAll (hdry : config.dryRun = false) (hloud : config.showDebug = true)
    {removed : Bool} (h : Volume.removeAll config site w = (.ok removed, v)) :
    removed = w.tree.exists? site.here (Volume.root config site) ∧
      v.tree = (if removed then (w.tree.remove site.here (Volume.root config site)).1
        else w.tree) ∧
      v.told = w.told ++ if removed then [{
        level := .debug
        step := "Removing"
        content := (Volume.root config site).display }] else [] := by
  rw [Volume.removeAll, Job.ask_bind] at h
  cases hthere : w.tree.exists? site.here (Volume.root config site) with
  | false =>
    rw [hthere, if_neg Bool.false_ne_true] at h
    cases h
    exact ⟨rfl, rfl, (List.append_nil _).symm⟩
  | true =>
    rw [hthere, if_pos rfl, if_neg (by simp [hdry]), detail_of_showDebug hloud, Job.say_bind] at h
    generalize hsaid : ({ w with events := _ } : World) = said at h
    have htree : said.tree = w.tree := hsaid ▸ rfl
    obtain ⟨_, removed, hremove, h⟩ := Job.exists_of_bind_ok h
    cases h
    have htold := (congrArg (World.told ∘ Prod.snd) hremove).symm.trans
      (keeps_told_change _ _ said)
    have hremoved := (congrArg (World.tree ∘ Prod.snd) hremove).symm.trans
      (Job.tree_of_change _ _ said)
    rw [htree] at hremoved
    refine ⟨rfl, hremoved, htold.trans ?_⟩
    rw [← hsaid, told_said]
    rfl

/-- A dry run tells of the volume that it does not remove. -/
lemma removeAll_of_dryRun (hdry : config.dryRun = true) {present : Bool}
    (hpresent : w.tree.exists? site.here (Volume.root config site) = present) :
    ∃ v, Volume.removeAll config site w = (.ok present, v) ∧ v.tree = w.tree ∧
      v.told = w.told ++ if present then [{
        level := .debug
        step := "Would remove"
        content := (Volume.root config site).display }] else [] := by
  have hloud : config.showDebug = true := by simp [Config.showDebug, hdry]
  rw [Volume.removeAll, Job.ask_bind, hpresent]
  cases present with
  | false => exact ⟨w, rfl, rfl, (List.append_nil _).symm⟩
  | true =>
    rw [if_pos rfl, if_pos hdry, detail_of_showDebug hloud, Job.say_bind]
    exact ⟨_, rfl, rfl, told_said w _⟩

end Telling
end BootVolume
