import BootVolume.Proofs.Opening
import BootVolume.Proofs.Spelling

/-!
# Trees without links

Where there are no links, a path that spells a place leads to that place or nowhere
(`find_eq_ok`). So does a path that a directory is made or a file is opened by, and each of these
changes no other place.
-/

namespace BootVolume

/-! ## Steps downwards -/

lemma Step.ofSegment?_name (name : Name) : Step.ofSegment? name.bytes = some (.into name) := by
  obtain ⟨-, hdot, hup, -⟩ := name.isName
  simp [Step.ofSegment?, hdot, hup, Name.ofBytes?, name.isName]

/-- The steps go down through the names, and never up. -/
inductive Descends : List Step → Place → Prop
  | nil : Descends [] []
  | here {steps : List Step} {names : Place} : Descends steps names →
    Descends (.here :: steps) names
  | into {steps : List Step} {names : Place} (name : Name) : Descends steps names →
    Descends (.into name :: steps) (name :: names)

namespace Descends

variable {steps : List Step} {names : Place}

lemma append_here (h : Descends steps names) : Descends (steps ++ [.here]) names := by
  induction h with
  | nil => exact .here .nil
  | here _ ih => exact .here ih
  | into name _ ih => exact .into name ih

lemma of_nil (h : Descends [] names) : names = [] := by
  cases h
  rfl

lemma dropLast_into {name : Name} (h : Descends steps names)
    (hlast : steps.getLast? = some (.into name)) :
    ∃ above, names = above ++ [name] ∧ Descends steps.dropLast above := by
  induction h with
  | nil => cases hlast
  | @here rest names h ih =>
    cases rest with
    | nil => cases hlast
    | cons next rest =>
      obtain ⟨above, hnames, hsteps⟩ := ih (by simpa using hlast)
      exact ⟨above, hnames, .here hsteps⟩
  | @into rest names first h ih =>
    cases rest with
    | nil =>
      obtain rfl : first = name := by simpa using hlast
      exact ⟨[], by rw [h.of_nil]; rfl, .nil⟩
    | cons next rest =>
      obtain ⟨above, hnames, hsteps⟩ := ih (by simpa using hlast)
      exact ⟨first :: above, by rw [hnames]; rfl, .into first hsteps⟩

lemma of_mapM {segs : List Bytes}
    (hsteps : (segs.filter (!·.isEmpty)).mapM Step.ofSegment? = some steps)
    (hnames : segs.filter (!Path.isIdle ·) = names.map (·.bytes)) : Descends steps names := by
  induction segs generalizing steps names with
  | nil =>
    obtain rfl : [] = steps := by simpa using hsteps
    obtain rfl : names = [] := by simpa using hnames
    exact .nil
  | cons seg segs ih =>
    by_cases hempty : seg = []
    · exact ih (by simpa [hempty] using hsteps) (by simpa [hempty, Path.isIdle] using hnames)
    rw [List.filter_cons_of_pos (by simpa using hempty), List.mapM_cons] at hsteps
    obtain ⟨step, hstep, hsteps⟩ := Option.bind_eq_some_iff.1 hsteps
    obtain ⟨others, hothers, hsteps⟩ := Option.bind_eq_some_iff.1 hsteps
    obtain rfl : step :: others = steps := by simpa using hsteps
    by_cases hdot : seg = Path.dot
    · obtain rfl : .here = step := by simpa [Step.ofSegment?, hdot] using hstep
      exact .here (ih hothers (by simpa [hdot, Path.isIdle] using hnames))
    rw [List.filter_cons_of_pos (by simp [Path.isIdle, hempty, hdot])] at hnames
    obtain ⟨name, rest, rfl, rfl, htail⟩ := List.map_eq_cons_iff.1 hnames.symm
    obtain rfl : .into name = step := by simpa [Step.ofSegment?_name] using hstep
    exact .into name (ih hothers htail.symm)

end Descends

/-- The way of a path that spells a place goes down to it from the root. -/
lemma Path.Spells.descends {p : Path} {place : Place} {route : Route} (h : p.Spells place)
    (hroute : p.route? = .ok route) :
    route.absolute = true ∧ Descends route.steps place ∧ Descends route.allSteps place := by
  rw [Path.route?] at hroute
  split_ifs at hroute
  split at hroute
  · rename_i steps hsteps
    cases hroute
    have down := Descends.of_mapM hsteps h.names
    refine ⟨h.absolute, down, ?_⟩
    rw [Route.allSteps]
    split
    · exact down.append_here
    · exact down
  · cases hroute

/-! ## Fronts of places -/

namespace Place

variable {front place : Place}

lemma not_prefix_dropLast (hne : place ≠ []) : ¬place <+: place.dropLast := by
  intro hfront
  have hlength := hfront.length_le
  rw [List.length_dropLast] at hlength
  exact hne (List.eq_nil_of_length_eq_zero (by omega))

lemma prefix_dropLast_of_ne (hfront : front <+: place) (hne : front ≠ place) :
    front <+: place.dropLast := by
  rcases List.eq_nil_or_concat place with rfl | ⟨above, name, rfl⟩
  · exact absurd (List.prefix_nil.1 hfront) hne
  · rw [List.concat_eq_append] at hfront hne ⊢
    rw [List.dropLast_concat]
    exact (List.prefix_concat_iff.1 hfront).resolve_left hne

end Place

namespace FileTree

def Linkless (t : FileTree) : Prop := ∀ place target, t.get? place ≠ some (.link target)

lemma get?_put_of_ne {t : FileTree} {place q : Place} {e : Entry} (hq : q ≠ place) :
    (t.put place e).get? q = t.get? q := by
  by_cases h : t.Admits place e
  · rw [get?_put h, if_neg hq]
  · rw [put, dif_neg h]

lemma Linkless.put {t : FileTree} {place : Place} {e : Entry} (ht : t.Linkless)
    (he : ∀ target, e ≠ .link target) : (t.put place e).Linkless := by
  intro q target hq
  by_cases hne : q = place
  · by_cases h : t.Admits place e
    · rw [get?_put h, if_pos hne] at hq
      exact he target (Option.some.inj hq)
    · rw [FileTree.put, dif_neg h] at hq
      exact ht q target hq
  · rw [get?_put_of_ne hne] at hq
    exact ht q target hq

/-- Everything above what is there is a directory. -/
lemma get?_eq_dir_of_above {t : FileTree} {above place : Place} (hfront : above <+: place)
    (hne : above ≠ place) (hplace : t.get? place ≠ none) : t.get? above = some .dir := by
  obtain ⟨_ | ⟨name, rest⟩, rfl⟩ := hfront
  · simp at hne
  · by_contra hdir
    exact hplace (Node.get?_below_of_ne_dir hdir name rest)

lemma get?_eq_dir_of_front {t : FileTree} {front place : Place} (hfront : front <+: place)
    (hdir : t.get? place = some .dir) : t.get? front = some .dir := by
  by_cases heq : front = place
  · rw [heq, hdir]
  · exact get?_eq_dir_of_above hfront heq (by simp [hdir])

/-- Below what is missing there is nothing. -/
lemma get?_eq_none_of_front {t : FileTree} {missing place : Place} (hfront : missing <+: place)
    (hmissing : t.get? missing = none) : t.get? place = none := by
  by_contra hthere
  by_cases heq : missing = place
  · exact hthere (heq ▸ hmissing)
  · rw [get?_eq_dir_of_above hfront heq hthere] at hmissing
    cases hmissing

/-! ## Walking -/

end FileTree

/-- The place that a walk ends at, whether something is there or not. -/
def Walk.target? : Walk → Option Place
  | found place => some place
  | missing dir name => some (dir ++ [name])
  | through .. | failed _ => none

namespace FileTree

variable {t u : FileTree} {place names q : Place} {steps : List Step}

lemma advance_ne_through (ht : t.Linkless) {dir : Place} {target : Path} {rest : List Step} :
    t.advance true place steps ≠ .through dir target rest := by
  induction steps generalizing place with
  | nil => simp [advance]
  | cons step steps ih =>
    unfold advance
    split
    · simp
    · cases step with
      | here => exact ih
      | up => exact ih
      | into name =>
        dsimp only
        split
        · simp
        split
        · split <;> simp
        · exact absurd ‹_› (ht _ _)
        · exact ih
    · simp

/-- A walk that comes upon no link ends where it first stops. -/
lemma walk_of_ne_through {follow : Bool}
    (h : ∀ dir target rest, t.advance follow place steps ≠ .through dir target rest) (links : Nat) :
    t.walk follow links place steps = t.advance follow place steps := by
  rw [walk]
  split
  · exact absurd ‹_› (h _ _ _)
  · rfl

lemma walk_eq_advance (ht : t.Linkless) (links : Nat) :
    t.walk true links place steps = t.advance true place steps :=
  walk_of_ne_through (fun _ _ _ => advance_ne_through ht) links

lemma target?_here (h : (t.advance true place (.here :: steps)).target? = some q) :
    t.get? place = some .dir ∧ (t.advance true place steps).target? = some q := by
  unfold advance at h
  split at h
  · cases h
  · exact ⟨‹_›, h⟩
  · cases h

/-- How a walk that ends somewhere takes a step into a name: the name is short, and the walk ends
there if nothing is, or goes on. -/
lemma target?_into {name : Name} (ht : t.Linkless)
    (h : (t.advance true place (.into name :: steps)).target? = some q) :
    t.get? place = some .dir ∧ name.bytes.length ≤ nameLimit ∧
      (t.get? (place ++ [name]) = none ∧ steps = [] ∧ q = place ++ [name] ∨
        t.get? (place ++ [name]) ≠ none ∧
          (t.advance true (place ++ [name]) steps).target? = some q) := by
  unfold advance at h
  split at h
  · cases h
  · dsimp only at h
    split at h
    · cases h
    refine ⟨‹_›, Nat.not_lt.1 ‹_›, ?_⟩
    split at h
    case h_1 hnone =>
      split at h
      · exact .inl ⟨hnone, List.isEmpty_iff.1 ‹_›, (Option.some.inj h).symm⟩
      · cases h
    case h_2 target hlink => exact absurd hlink (ht _ _)
    case h_3 entry _ hentry => exact .inr ⟨by simp [hentry], h⟩
  · cases h

lemma advance_here {follow : Bool} (h : t.get? place = some .dir) :
    t.advance follow place (.here :: steps) = t.advance follow place steps := by
  conv_lhs => unfold advance
  rw [h]

lemma advance_into {name : Name} {follow : Bool}
    (hlink : ∀ target, t.get? (place ++ [name]) ≠ some (.link target))
    (h : t.get? place = some .dir) (hname : name.bytes.length ≤ nameLimit)
    (hthere : t.get? (place ++ [name]) ≠ none) :
    t.advance follow place (.into name :: steps) = t.advance follow (place ++ [name]) steps := by
  conv_lhs => unfold advance
  rw [h]
  dsimp only
  rw [if_neg (Nat.not_lt.2 hname)]
  split
  · exact absurd ‹_› hthere
  · exact absurd ‹_› (hlink _)
  · rfl

lemma target_eq (ht : t.Linkless) (h : Descends steps names)
    (htarget : (t.advance true place steps).target? = some q) : q = place ++ names := by
  induction h generalizing place with
  | nil =>
    obtain rfl : place = q := Option.some.inj htarget
    rw [List.append_nil]
  | here _ ih => exact ih (target?_here htarget).2
  | into name down ih =>
    obtain ⟨-, -, ⟨-, rfl, rfl⟩ | ⟨-, htarget⟩⟩ := target?_into ht htarget
    · rw [down.of_nil]
    · rw [ih htarget, List.append_assoc]
      rfl

/-- A walk that ends at a place finds it in every tree where something of the same kind is. -/
lemma advance_eq_found (ht : t.Linkless) (hu : u.Linkless) (h : Descends steps names)
    (htarget : (t.advance true place steps).target? = some q)
    (hkind : t.get? q = some .dir → u.get? q = some .dir) (hthere : u.get? q ≠ none) :
    u.advance true place steps = .found q := by
  have hq := target_eq ht h htarget
  induction h generalizing place with
  | nil => rw [← Option.some.inj htarget, advance]
  | here _ ih =>
    obtain ⟨hdir, htarget⟩ := target?_here htarget
    have hdir : u.get? place = some .dir := by
      by_cases heq : place = q
      · exact heq ▸ hkind (heq ▸ hdir)
      · exact get?_eq_dir_of_above ⟨_, hq.symm⟩ heq hthere
    rw [advance_here hdir]
    exact ih htarget hq
  | @into steps names name down ih =>
    obtain ⟨hdir, hshort, hrest⟩ := target?_into ht htarget
    have hdir : u.get? place = some .dir :=
      get?_eq_dir_of_above ⟨_, hq.symm⟩ (by rw [hq]; simp) hthere
    have hq' : q = (place ++ [name]) ++ names := by rw [hq, List.append_assoc]; rfl
    have hnext : u.get? (place ++ [name]) ≠ none := by
      by_cases heq : place ++ [name] = q
      · rwa [heq]
      · rw [get?_eq_dir_of_above ⟨_, hq'.symm⟩ heq hthere]
        simp
    rw [advance_into (hu _) hdir hshort hnext]
    rcases hrest with ⟨-, rfl, rfl⟩ | ⟨-, htarget⟩
    · rw [advance]
    · exact ih htarget hq'

/-- What is not on the way does not matter to a walk. -/
lemma advance_congr (h : Descends steps names)
    (hsame : ∀ r, place <+: r → r <+: place ++ names → t.get? r = u.get? r) :
    t.advance true place steps = u.advance true place steps := by
  induction h generalizing place with
  | nil => rfl
  | here _ ih =>
    unfold advance
    rw [hsame place (List.prefix_refl _) (List.prefix_append _ _), ih hsame]
  | @into steps names name _ ih =>
    have hsplit : place ++ name :: names = (place ++ [name]) ++ names := by simp
    have hnext : t.get? (place ++ [name]) = u.get? (place ++ [name]) :=
      hsame _ (List.prefix_append _ _) (hsplit ▸ List.prefix_append _ _)
    unfold advance
    dsimp only
    rw [hsame place (List.prefix_refl _) (List.prefix_append _ _), hnext,
      ih fun r hr hr' => hsame r ((List.prefix_append _ _).trans hr) (hsplit ▸ hr')]

/-! ## Finding -/

variable {p : Path} {here : Place} {e e' : Entry}

lemma locate_eq_ok_iff {follow : Bool} : t.locate here follow p = .ok place ↔
    ∃ route, p.route? = .ok route ∧
      t.walk follow linkLimit (route.start here) route.allSteps = .found place := by
  rw [locate]
  cases p.route? with
  | error cause => simp
  | ok route =>
    cases hwalk : t.walk follow linkLimit (route.start here) route.allSteps <;> simp [hwalk]

lemma find_eq_ok_iff :
    t.find here p = .ok (place, e) ↔
      t.locate here true p = .ok place ∧ t.get? place = some e := by
  rw [find]
  cases t.locate here true p with
  | error cause => simp
  | ok q =>
    dsimp only
    cases hentry : t.get? q with
    | none => simpa using fun hq hplace => by rw [← hq, hentry] at hplace; cases hplace
    | some entry =>
      simp only [Except.ok.injEq, Prod.mk.injEq]
      constructor
      · rintro ⟨rfl, rfl⟩
        exact ⟨rfl, hentry⟩
      · rintro ⟨rfl, hplace⟩
        exact ⟨rfl, Option.some.inj (hentry.symm.trans hplace)⟩

lemma find_eq (ht : t.Linkless) (hp : p.Spells place) {route : Route}
    (hroute : p.route? = .ok route) :
    t.find here p =
      match t.advance true [] route.allSteps with
      | .found q => (t.get? q).elim (.error (.os .noEntry)) fun e => .ok (q, e)
      | .failed cause => .error (.os cause)
      | _ => .error (.os .noEntry) := by
  have hstart : route.start here = [] := by rw [Route.start, if_pos (hp.descends hroute).1]
  rw [find, locate, hroute]
  dsimp only
  rw [walk_eq_advance ht, hstart]
  cases t.advance true [] route.allSteps with
  | found q =>
    dsimp only
    cases t.get? q <;> rfl
  | missing | through | failed => rfl

lemma found_of_find (ht : t.Linkless) (hp : p.Spells place) (h : t.find here p = .ok (q, e)) :
    ∃ route, p.route? = .ok route ∧ t.advance true [] route.allSteps = .found q ∧
      t.get? q = some e := by
  cases hroute : p.route? with
  | error cause =>
    rw [find, locate, hroute] at h
    cases h
  | ok route =>
    rw [find_eq ht hp hroute] at h
    cases hwalk : t.advance true [] route.allSteps with
    | found place =>
      rw [hwalk] at h
      dsimp only at h
      cases hentry : t.get? place with
      | none =>
        rw [hentry] at h
        cases h
      | some entry =>
        rw [hentry] at h
        cases h
        exact ⟨route, rfl, hwalk, hentry⟩
    | missing | through | failed =>
      rw [hwalk] at h
      cases h

/-- What is found is at the place that is spelled. -/
lemma get?_of_find (ht : t.Linkless) (hp : p.Spells place) (h : t.find here p = .ok (q, e)) :
    q = place ∧ t.get? place = some e := by
  obtain ⟨route, hroute, hwalk, hentry⟩ := found_of_find ht hp h
  obtain rfl : q = place := target_eq ht (hp.descends hroute).2.2 (by rw [hwalk]; rfl)
  exact ⟨rfl, hentry⟩

/-- What a path finds in one tree it finds in every other that has something of the same kind
there. -/
lemma find_of_find (ht : t.Linkless) (hu : u.Linkless) (hp : p.Spells place)
    (h : t.find here p = .ok (q, e)) (hentry : u.get? place = some e')
    (hkind : e = .dir → e' = .dir) : u.find here p = .ok (place, e') := by
  obtain ⟨rfl, he⟩ := get?_of_find ht hp h
  obtain ⟨route, hroute, hwalk, -⟩ := found_of_find ht hp h
  have hfound := advance_eq_found ht hu (hp.descends hroute).2.2 (by rw [hwalk]; rfl)
    (fun hdir => by rw [hentry, hkind (Option.some.inj (he.symm.trans hdir))]) (by simp [hentry])
  rw [find_eq hu hp hroute, hfound]
  dsimp only
  rw [hentry]
  rfl

lemma find_congr (ht : t.Linkless) (hu : u.Linkless) (hp : p.Spells place)
    (hsame : ∀ r, r <+: place → t.get? r = u.get? r) : t.find here p = u.find here p := by
  cases hroute : p.route? with
  | error cause => rw [find, find, locate, locate, hroute]
  | ok route =>
    have down := (hp.descends hroute).2.2
    have hwalk : t.advance true [] route.allSteps = u.advance true [] route.allSteps :=
      advance_congr down fun r _ hr => hsame r hr
    rw [find_eq ht hp hroute, find_eq hu hp hroute, hwalk]
    cases hfound : u.advance true [] route.allSteps with
    | found q =>
      obtain rfl : q = place := target_eq hu down (by rw [hfound]; rfl)
      dsimp only
      rw [hsame q (List.prefix_refl _)]
    | missing | through | failed => rfl

lemma exists?_eq_true_iff :
    t.exists? here p = true ↔ ∃ place e, t.find here p = .ok (place, e) := by
  rw [exists?]
  cases t.find here p with
  | error cause => exact iff_of_false nofun nofun
  | ok found => exact iff_of_true rfl ⟨found.1, found.2, rfl⟩

lemma isDir_eq_true_iff : t.isDir here p = true ↔ ∃ place, t.find here p = .ok (place, .dir) := by
  rw [isDir]
  split
  · rename_i place h
    simp [h]
  · rename_i hne
    simpa using fun place h => hne place h

lemma isFile_eq_true_iff : t.isFile here p = true ↔
    ∃ place content executable, t.find here p = .ok (place, .file content executable) := by
  rw [isFile]
  split
  · rename_i place content executable h
    simp [h]
  · rename_i hne
    simpa using fun place content executable h => hne place content executable h

lemma get?_of_isDir (ht : t.Linkless) (hp : p.Spells place) (h : t.isDir here p = true) :
    t.get? place = some .dir := by
  obtain ⟨q, hfind⟩ := isDir_eq_true_iff.1 h
  exact (get?_of_find ht hp hfind).2

lemma isDir_of_isDir (ht : t.Linkless) (hu : u.Linkless) (hp : p.Spells place)
    (h : t.isDir here p = true) (hdir : u.get? place = some .dir) : u.isDir here p = true := by
  obtain ⟨q, hfind⟩ := isDir_eq_true_iff.1 h
  exact isDir_eq_true_iff.2 ⟨place, find_of_find ht hu hp hfind hdir fun _ => rfl⟩

/-! ## Making directories -/

/-- Nothing is different but for new directories on the way to a place. -/
def Paves (way : Place) (t u : FileTree) : Prop :=
  ∀ r, u.get? r = t.get? r ∨ t.get? r = none ∧ u.get? r = some .dir ∧ r <+: way

variable {v : FileTree} {way : Place}

lemma paves_refl (way : Place) (t : FileTree) : Paves way t t := fun _ => .inl rfl

lemma Paves.trans (h : Paves way t u) (h' : Paves way u v) : Paves way t v := by
  intro r
  rcases h r with hr | ⟨hnone, hdir, hway⟩ <;> rcases h' r with hr' | ⟨hnone', hdir', hway'⟩
  · exact .inl (hr'.trans hr)
  · exact .inr ⟨hr ▸ hnone', hdir', hway'⟩
  · exact .inr ⟨hnone, hr'.trans hdir, hway⟩
  · exact .inr ⟨hnone, hdir', hway⟩

lemma Paves.mono (h : Paves way t u) {further : Place} (hway : way <+: further) :
    Paves further t u :=
  fun r => (h r).imp_right fun ⟨hnone, hdir, hr⟩ => ⟨hnone, hdir, hr.trans hway⟩

lemma Paves.linkless (h : Paves way t u) (ht : t.Linkless) : u.Linkless := by
  intro r target hr
  rcases h r with heq | ⟨-, hdir, -⟩
  · exact ht r target (heq ▸ hr)
  · rw [hdir] at hr
    cases hr

lemma parentOf_eq_ok_iff {route : Route} {dir : Place} : t.parentOf here route = .ok dir ↔
    t.walk true linkLimit (route.start here) route.steps.dropLast = .found dir ∧
      t.get? dir = some .dir := by
  rw [parentOf]
  cases t.walk true linkLimit (route.start here) route.steps.dropLast with
  | missing | through | failed => simp
  | found place =>
    dsimp only
    constructor
    · intro h
      split at h
      · cases h
        exact ⟨rfl, ‹_›⟩
      · cases h
      · cases h
    · rintro ⟨heq, hdir⟩
      cases heq
      rw [hdir]

lemma parentOf_spec (ht : t.Linkless) (hp : p.Spells place) {route : Route}
    (hroute : p.route? = .ok route) {dir : Place} (h : t.parentOf here route = .ok dir)
    {name : Name} (hlast : route.steps.getLast? = some (.into name)) :
    place = dir ++ [name] ∧ t.get? dir = some .dir := by
  obtain ⟨habs, down, -⟩ := hp.descends hroute
  obtain ⟨above, rfl, hdown⟩ := down.dropLast_into hlast
  obtain ⟨hwalk, hdir⟩ := parentOf_eq_ok_iff.1 h
  rw [Route.start, if_pos habs, walk_eq_advance ht] at hwalk
  obtain rfl : dir = above := target_eq ht hdown (by rw [hwalk]; rfl)
  exact ⟨rfl, hdir⟩

lemma paves_put (admits : t.Admits place .dir) (hfree : t.get? place = none) :
    Paves place t (t.put place .dir) := by
  intro r
  rw [get?_put admits]
  by_cases hr : r = place
  · rw [if_pos hr]
    exact .inr ⟨hr ▸ hfree, rfl, hr ▸ List.prefix_refl _⟩
  · rw [if_neg hr]
    exact .inl rfl

lemma paves_makeDir (ht : t.Linkless) (hp : p.Spells place) (h : t.makeDir here p = .ok u) :
    Paves place t u := by
  rw [makeDir] at h
  split at h
  · cases h
  rename_i route hroute
  split at h
  · cases h
  rename_i dir hdir
  split at h
  · rename_i name hlast
    obtain ⟨rfl, hdir⟩ := parentOf_spec ht hp hroute hdir hlast
    split_ifs at h with _ hfree
    cases h
    exact paves_put ⟨by simp, by simpa using hdir, fun _ => rfl⟩ (by simpa using hfree)
  · cases h

/-- Whatever comes of it, only directories on the way are made. -/
lemma paves_makeChain (ht : t.Linkless) {ps : List Path}
    (hps : ∀ p ∈ ps, ∃ front, front <+: way ∧ p.Spells front) :
    Paves way t (t.makeChain here ps).1 := by
  induction ps with
  | nil => exact paves_refl _ _
  | cons p above ih =>
    obtain ⟨⟨front, hfront, hp⟩, habove⟩ := List.forall_mem_cons.1 hps
    have made {t u : FileTree} (ht : t.Linkless) (h : t.makeDir here p = .ok u) : Paves way t u :=
      (paves_makeDir ht hp h).mono hfront
    rw [makeChain]
    split
    · exact paves_refl _ _
    split
    · exact made ht ‹_›
    split
    · exact paves_refl _ _
    have first := ih habove
    split
    · rename_i u cause hchain
      rwa [hchain] at first
    · rename_i u hchain
      rw [hchain] at first
      split
      · exact first.trans (made (first.linkless ht) ‹_›)
      · exact first

lemma paves_makeDirs (ht : t.Linkless) (hp : p.Spells place) :
    Paves place t (t.makeDirs here p).1 :=
  paves_makeChain ht fun _ hq => hp.of_mem_ancestors hq

/-! ## Copying -/

/-- Where nothing is, a walk comes from a directory. -/
lemma above_of_target (ht : t.Linkless) (h : Descends steps names) (hplace : t.get? place ≠ none)
    (htarget : (t.advance true place steps).target? = some q) (hfree : t.get? q = none) :
    ∃ dir name, q = dir ++ [name] ∧ t.get? dir = some .dir := by
  induction h generalizing place with
  | nil => exact absurd (Option.some.inj htarget ▸ hfree) hplace
  | here _ ih => exact ih hplace (target?_here htarget).2
  | into name _ ih =>
    obtain ⟨hdir, -, ⟨-, -, rfl⟩ | ⟨hnext, htarget⟩⟩ := target?_into ht htarget
    · exact ⟨place, name, rfl, hdir⟩
    · exact ih hnext htarget

/-- A file that can be opened is or comes where it is spelled, and is found there afterwards. -/
lemma openPlace_spec (ht : t.Linkless) (hp : p.Spells place) (h : t.openPlace here p = .ok q) :
    q = place ∧ (∀ content executable, t.Admits place (.file content executable)) ∧
      ∀ u : FileTree, u.Linkless → ∀ content executable,
        u.get? place = some (.file content executable) →
          u.find here p = .ok (place, .file content executable) := by
  obtain ⟨route, hroute, hslash, opens⟩ := openPlace_eq_ok_iff.1 h
  obtain ⟨habs, down, -⟩ := hp.descends hroute
  rw [Route.start, if_pos habs, walk_eq_advance ht] at opens
  have reached (htarget : (t.advance true [] route.steps).target? = some q)
      (hdir : t.get? q ≠ some .dir) (u : FileTree) (hu : u.Linkless) (content : Bytes)
      (executable : Bool) (hfile : u.get? q = some (.file content executable)) :
      u.find here p = .ok (q, .file content executable) := by
    have hfound := advance_eq_found ht hu down htarget (fun h => absurd h hdir) (by simp [hfile])
    rw [find_eq hu hp hroute, Route.allSteps, if_neg (by simp [hslash]), hfound]
    dsimp only
    rw [hfile]
    rfl
  generalize hwalk : t.advance true [] route.steps = walk at opens
  cases opens with
  | free dir name =>
    have htarget : (t.advance true [] route.steps).target? = some (dir ++ [name]) := by
      rw [hwalk]; rfl
    obtain rfl := target_eq ht down htarget
    have hfree : t.get? (dir ++ [name]) = none := by
      by_contra hthere
      have hfound := advance_eq_found ht ht down htarget id hthere
      rw [hwalk] at hfound
      cases hfound
    obtain ⟨above, last, heq, hdir⟩ := above_of_target ht down (by simp) htarget hfree
    refine ⟨rfl, fun content executable => ⟨by simp, ?_, by simp [hfree]⟩, ?_⟩
    · rwa [heq, List.dropLast_concat]
    · exact reached htarget (by simp [hfree])
  | there hfile =>
    have htarget : (t.advance true [] route.steps).target? = some q := by rw [hwalk]; rfl
    obtain rfl : q = place := target_eq ht down htarget
    have hne : q ≠ [] := by
      rintro rfl
      simp at hfile
    refine ⟨rfl, fun content executable => ⟨hne, ?_, by simp [hfile]⟩, ?_⟩
    · exact get?_dropLast hne (by simp [hfile])
    · exact reached htarget (by simp [hfile])

/-- A copy has the content of its source, and nothing else is different. -/
lemma copy_spec (ht : t.Linkless) {source target : Path} {origin : Place}
    (hsource : source.Spells origin) (htarget : target.Spells place) (hne : origin ≠ place)
    (h : t.copy here source target = .ok u) :
    u.Linkless ∧ ∃ content executable,
      t.find here source = .ok (origin, .file content executable) ∧
      (∀ r, u.get? r = if r = place then some (.file content executable) else t.get? r) ∧
      ∀ v : FileTree, v.Linkless → ∀ content executable,
        v.get? place = some (.file content executable) →
          v.find here target = .ok (place, .file content executable) := by
  rw [copy] at h
  split at h
  · cases h
  · rename_i q content executable hfind
    obtain ⟨rfl, -⟩ := get?_of_find ht hsource hfind
    split at h
    · cases h
    rename_i q' hopen
    obtain ⟨rfl, admits, reached⟩ := openPlace_spec ht htarget hopen
    rw [if_neg (Ne.symm hne)] at h
    cases h
    exact ⟨ht.put nofun, content, executable, hfind, get?_put (admits _ _), reached⟩
  · cases h

end FileTree
end BootVolume
