import BootVolume.Proofs.Agenda

/-!
# Two builds side by side

A job keeps up with another one if it succeeds whenever that one does, with the same value
(`Tracks`). One build keeps up with another one if it does so in every single step
(`Paired.tracks_build`), as long as both come upon the sources of one earlier time.
-/

namespace BootVolume

section Tracking

variable {ε α β : Type} {R : World → World → Prop} {S : α → World → World → Prop}
  {U : β → World → World → Prop}

/-- From worlds in relation, whenever the first job succeeds the second one does so too, with the
same value, and the worlds that they leave are in relation again. -/
def Tracks (R : World → World → Prop) (S : α → World → World → Prop)
    (job job' : ExceptT ε (StateM World) α) : Prop :=
  ∀ w v a u, R w v → job w = (.ok a, u) →
    ∃ u', job' v = (.ok a, u') ∧ S a u u'

lemma tracks_pure {a : α} (h : ∀ w v, R w v → S a w v) :
    Tracks R S (pure a : ExceptT ε (StateM World) α) (pure a) := by
  rintro w v _ _ hR ⟨⟩
  exact ⟨v, rfl, h w v hR⟩

lemma tracks_bind {first first' : ExceptT ε (StateM World) α}
    {second second' : α → ExceptT ε (StateM World) β}
    (hfirst : Tracks R S first first') (hsecond : ∀ a, Tracks (S a) U (second a) (second' a)) :
    Tracks R U (first >>= second) (first' >>= second') := by
  intro w v b u hR h
  obtain ⟨a, mid, ha, hb⟩ := Job.exists_of_bind_ok h
  obtain ⟨mid', ha', hS⟩ := hfirst w v a mid hR ha
  rw [Job.bind_of_ok ha']
  exact hsecond a mid mid' b u hS hb

/-- What is known of the world that the first run ends with is known when its second step starts. -/
lemma tracks_bind_of_end {p : World → Prop} {first first' : ExceptT ε (StateM World) α}
    {second second' : α → ExceptT ε (StateM World) β} (hfirst : Tracks R S first first')
    (hsecond : ∀ a, Tracks (fun w v => S a w v ∧ p (second a w).2) U (second a) (second' a)) :
    Tracks (fun w v => R w v ∧ p ((first >>= second) w).2) U (first >>= second)
      (first' >>= second') := by
  rintro w v b u ⟨hR, hend⟩ h
  obtain ⟨a, mid, ha, hb⟩ := Job.exists_of_bind_ok h
  obtain ⟨mid', ha', hS⟩ := hfirst w v a mid hR ha
  rw [Job.bind_of_ok ha] at hend
  rw [Job.bind_of_ok ha']
  exact hsecond a mid mid' b u ⟨hS, hend⟩ hb

lemma tracks_mono {R' : World → World → Prop} {S' : α → World → World → Prop}
    {job job' : ExceptT ε (StateM World) α} (h : Tracks R S job job')
    (hR : ∀ w v, R' w v → R w v) (hS : ∀ a w v, S a w v → S' a w v) : Tracks R' S' job job' := by
  intro w v a u hw hu
  obtain ⟨u', hu', hdone⟩ := h w v a u (hR w v hw) hu
  exact ⟨u', hu', hS a u u' hdone⟩

lemma tracks_of_known {p : Prop} {job job' : ExceptT ε (StateM World) α}
    (h : p → Tracks R S job job') :
    Tracks (fun w v => R w v ∧ p) S job job' :=
  fun w v a u hR => h hR.2 w v a u hR.1

/-- Both jobs learn the same from a question, which holds of both worlds. -/
lemma tracks_ask_bind {question : FileTree → α} {second second' : α → Job β} (answer : α)
    (hanswer : ∀ w v, R w v → question w.tree = answer ∧ question v.tree = answer)
    (hsecond : Tracks R U (second answer) (second' answer)) :
    Tracks R U (Job.ask question >>= second) (Job.ask question >>= second') := by
  intro w v b u hR h
  obtain ⟨hw, hv⟩ := hanswer w v hR
  rw [Job.ask_bind, hw] at h
  rw [Job.ask_bind, hv]
  exact hsecond w v b u hR h

end Tracking

namespace Build

open Layout

variable {config config' : Config} {site : Site} {executor executor' : Executor}
  {toolchain toolchain' : Path} {w₀ : World} {R : List Errand → World → World → Prop}

/-- The rules by which a build keeps up with another one, step by step. The relation between the
two may depend on what is still to be staged. -/
structure Paired (config config' : Config) (site : Site) (executor executor' : Executor)
    (toolchain toolchain' : Path) (w₀ : World) (R : List Errand → World → World → Prop) : Prop where
  profile : config'.profile = config.profile
  scan : config'.manifestScan = config.manifestScan
  say {rest : List Errand} (content : String) :
    Tracks (R rest) (fun _ => R rest) (Job.say .info "Building" content)
      (Job.say .info "Building" content)
  skip {rest : List Errand} (content : String) :
    Tracks (R rest) (fun _ => R rest) (Job.detail config "Skipping" content)
      (Job.detail config' "Skipping" content)
  run {rest : List Errand} (profile : Profile) (source : Path) :
    Tracks (R rest) (fun _ => R rest) (executor.run (.compile toolchain profile source))
      (executor'.run (.compile toolchain' profile source))
  stage {errand : Errand} {rest : List Errand} : errand ∈ agenda config site w₀ →
    Tracks (R (errand :: rest)) (fun _ => R rest)
      (Volume.stage config site errand.source errand.entry)
      (Volume.stage config' site errand.source errand.entry)
  present {rest : List Errand} (w v : World) : R rest w v →
    let answer := w₀.tree.exists? site.here (site.path (.ofString bootConfigSource))
    w.tree.exists? site.here (site.path (.ofString bootConfigSource)) = answer ∧
      v.tree.exists? site.here (site.path (.ofString bootConfigSource)) = answer
  discover {rest : List Errand} :
    Tracks (R rest) (fun dirs w v => R rest w v ∧ (App.discover site w₀).1 = .ok dirs)
      (App.discover site) (App.discover site)
  load {rest : List Errand} {dirs : List String} {dir : String} :
    (App.discover site w₀).1 = .ok dirs → dir ∈ dirs →
      Tracks (R rest)
        (fun app w v => R rest w v ∧ (App.load site dir config.manifestScan w₀).1 = .ok app)
        (App.load site dir config.manifestScan) (App.load site dir config.manifestScan)

namespace Paired

variable (paired : Paired config config' site executor executor' toolchain toolchain' w₀ R)
include paired

lemma tracks_bootConfig {rest : List Errand} :
    Tracks
      (R ((if w₀.tree.exists? site.here (site.path (.ofString bootConfigSource)) then
        [bootConfigErrand] else []) ++ rest))
      (fun _ => R rest)
      (do
        if ← Job.ask (·.exists? site.here (site.path (.ofString bootConfigSource))) then
          let _ ← Volume.stage config site (.ofString bootConfigSource)
            (.ofString bootConfigEntry)
        else
          Job.detail config "Skipping" "no kernel boot.conf")
      (do
        if ← Job.ask (·.exists? site.here (site.path (.ofString bootConfigSource))) then
          let _ ← Volume.stage config' site (.ofString bootConfigSource)
            (.ofString bootConfigEntry)
        else
          Job.detail config' "Skipping" "no kernel boot.conf") := by
  refine tracks_ask_bind _ paired.present ?_
  split
  · rename_i hpresent
    exact tracks_bind (paired.stage (bootConfig_mem_agenda hpresent)) fun _ =>
      tracks_pure fun _ _ => id
  · exact paired.skip _

lemma tracks_bootloader :
    Tracks (R (agenda config site w₀))
      (fun _ => R ((Component.kernel config).errand ::
        (App.discover site w₀).1.toOption.elim [] (appErrands config site w₀)))
      (bootloader config site executor toolchain)
      (bootloader config' site executor' toolchain') := by
  unfold bootloader
  refine tracks_bind (paired.say _) fun _ => tracks_bind (paired.run _ _) fun _ => ?_
  exact tracks_bind (paired.stage bootloader_mem_agenda) fun _ => paired.tracks_bootConfig

lemma tracks_kernel {rest : List Errand} :
    Tracks (R ((Component.kernel config).errand :: rest)) (fun _ => R rest)
      (kernel config site executor toolchain) (kernel config' site executor' toolchain') := by
  unfold kernel
  rw [paired.profile]
  refine tracks_bind (paired.say _) fun _ => tracks_bind (paired.run _ _) fun _ => ?_
  exact tracks_bind (paired.stage kernel_mem_agenda) fun _ => tracks_pure fun _ _ => id

lemma tracks_found :
    Tracks (R (agenda config site w₀))
      (fun dirs w v => R (appErrands config site w₀ dirs) w v ∧
        (App.discover site w₀).1 = .ok dirs)
      (found config site executor toolchain) (found config' site executor' toolchain') := by
  unfold found
  refine tracks_bind paired.tracks_bootloader fun _ => tracks_bind paired.tracks_kernel fun _ => ?_
  intro w v dirs u hR h
  obtain ⟨u', h', hrest, hdirs⟩ := paired.discover w v dirs u hR h
  rw [hdirs] at hrest
  exact ⟨u', h', hrest, hdirs⟩

lemma tracks_app {app : App} {rest : List Errand}
    (hmem : (Component.app config app.dir app.package).errand ∈ agenda config site w₀) :
    Tracks (R ((Component.app config app.dir app.package).errand :: rest)) (fun _ => R rest)
      (Build.app config site executor toolchain app)
      (Build.app config' site executor' toolchain' app) := by
  unfold Build.app
  rw [paired.profile]
  refine tracks_bind (paired.say _) fun _ => tracks_bind (paired.run _ _) fun _ => ?_
  exact tracks_bind (paired.stage hmem) fun _ => tracks_pure fun _ _ => id

lemma tracks_appsIn {dirs rest : List String} (hdirs : (App.discover site w₀).1 = .ok dirs)
    (hsub : rest ⊆ dirs) :
    Tracks (R (appErrands config site w₀ rest)) (fun _ => R [])
      (appsIn config site executor toolchain rest)
      (appsIn config' site executor' toolchain' rest) := by
  induction rest with
  | nil => exact tracks_pure fun _ _ => id
  | cons dir rest ih =>
    obtain ⟨hdir, hrest⟩ := List.cons_subset.1 hsub
    unfold appsIn
    rw [paired.scan]
    refine tracks_bind (paired.load hdirs hdir) fun app => tracks_of_known fun hload => ?_
    obtain rfl : app.dir = dir := load_dir (Job.eq_of_ok hload)
    rw [appErrands_cons hload]
    exact tracks_bind (paired.tracks_app (app_mem_agenda hdirs hdir hload)) fun _ => ih hrest

/-- One build keeps up with another one if it does so in every step. -/
theorem tracks_build :
    Tracks (R (agenda config site w₀)) (fun _ => R [])
      (found config site executor toolchain >>= appsIn config site executor toolchain)
      (found config' site executor' toolchain' >>= appsIn config' site executor' toolchain') :=
  tracks_bind paired.tracks_found fun _ => tracks_of_known fun hdirs =>
    paired.tracks_appsIn hdirs (List.Subset.refl _)

end Paired
end Build
end BootVolume
