import BootVolume.Proofs.Descent
import BootVolume.Proofs.Parents

/-!
# Passing to a place

A path passes to a place if it spells it and neither the path nor a name of the place is too long.
Paths that do not pass find nothing (`passes_of_find`). For those that do, what happens depends on
the entries at and above the place alone: what is there is found (`find_of_passes`), directories
that are missing are made (`makeDirs_of_passes`), and a file is opened (`openPlace_of_passes`).
-/

namespace BootVolume

lemma Descends.up_not_mem {steps : List Step} {names : Place} (h : Descends steps names) :
    .up ∉ steps := by
  induction h with
  | nil => simp
  | here _ ih => simpa using ih
  | into name _ ih => simpa using ih

lemma Descends.into_mem {steps : List Step} {names : Place} (h : Descends steps names)
    {name : Name} (hname : name ∈ names) : .into name ∈ steps := by
  induction h with
  | nil => cases hname
  | here _ ih => exact List.mem_cons_of_mem _ (ih hname)
  | into first _ ih =>
    rcases List.mem_cons.1 hname with rfl | hname
    · exact List.mem_cons_self
    · exact List.mem_cons_of_mem _ (ih hname)

/-- Steps that go down and do not end on the spot end in a name. -/
lemma Descends.last_into {steps : List Step} {names : Place} {front : List Bytes} {last : Bytes}
    (h : Descends steps names) (hsteps : (front ++ [last]).mapM Step.ofSegment? = some steps)
    (hlast : last ≠ Path.dot) : ∃ name, steps.getLast? = some (.into name) := by
  rw [List.mapM_append] at hsteps
  obtain ⟨init, -, hsteps⟩ := Option.bind_eq_some_iff.1 hsteps
  obtain ⟨final, hfinal, hsteps⟩ := Option.bind_eq_some_iff.1 hsteps
  obtain rfl : init ++ final = steps := by simpa using hsteps
  rw [List.mapM_cons, List.mapM_nil] at hfinal
  obtain ⟨step, hstep, hfinal⟩ := Option.bind_eq_some_iff.1 hfinal
  obtain rfl : [step] = final := by simpa using hfinal
  cases step with
  | here =>
    rw [Step.ofSegment?, if_neg hlast] at hstep
    split at hstep
    · cases hstep
    · cases hname : Name.ofBytes? last <;> simp [hname] at hstep
  | up => exact absurd (List.mem_append_right _ (List.mem_singleton_self _)) h.up_not_mem
  | into name => exact ⟨name, List.getLast?_concat⟩

lemma Descends.of_append {front rest : List Step} {names : Place}
    (h : Descends (front ++ rest) names) : ∃ above, above <+: names ∧ Descends front above := by
  induction front generalizing names with
  | nil => exact ⟨[], List.nil_prefix, .nil⟩
  | cons step front ih =>
    cases h with
    | here h =>
      obtain ⟨above, habove, down⟩ := ih h
      exact ⟨above, habove, .here down⟩
    | into name h =>
      obtain ⟨above, habove, down⟩ := ih h
      exact ⟨name :: above, List.cons_prefix_cons.2 ⟨rfl, habove⟩, .into name down⟩

lemma Descends.exists_dropLast {steps : List Step} {names : Place} (h : Descends steps names) :
    ∃ above, above <+: names ∧ Descends steps.dropLast above := by
  obtain ⟨rest, hrest⟩ := List.dropLast_prefix steps
  exact Descends.of_append (hrest.symm ▸ h)

namespace Path

/-- The path is one that the system takes, whatever the files are. -/
structure Fits (p : Path) : Prop where
  nonempty : p.bytes ≠ []
  zero : 0 ∉ p.bytes
  length : p.bytes.length ≤ pathLimit

/-- The path spells the place, and nothing about it is too long. -/
structure Passes (p : Path) (place : Place) : Prop extends p.Spells place where
  fits : p.Fits
  short : ∀ name ∈ place, name.bytes.length ≤ nameLimit

variable {p q : Path} {place : Place} {route : Route}

lemma fits_of_route? (h : p.route? = .ok route) : p.Fits := by
  rw [route?] at h
  split_ifs at h with hzero hempty hlong
  exact ⟨hempty, hzero, Nat.not_lt.1 hlong⟩

lemma Fits.of_front (h : p.Fits) (hq : q.bytes ≠ []) (hfront : q.bytes <+: p.bytes) : q.Fits where
  nonempty := hq
  zero hmem := h.zero (hfront.subset hmem)
  length := hfront.length_le.trans h.length

lemma bytes_ne_nil (h : p.isAbsolute = true) : p.bytes ≠ [] := by
  intro hp
  simp [isAbsolute, hp] at h

lemma exists_steps {segs : List Bytes} {names : Place}
    (hnames : segs.filter (!isIdle ·) = names.map (·.bytes)) :
    ∃ steps, (segs.filter (!·.isEmpty)).mapM Step.ofSegment? = some steps := by
  induction segs generalizing names with
  | nil => exact ⟨[], rfl⟩
  | cons seg segs ih =>
    by_cases hempty : seg = []
    · obtain ⟨steps, hsteps⟩ := ih (by simpa [hempty, isIdle] using hnames)
      exact ⟨steps, by simpa [hempty] using hsteps⟩
    rw [List.filter_cons_of_pos (by simpa using hempty)]
    by_cases hdot : seg = dot
    · obtain ⟨steps, hsteps⟩ := ih (by simpa [hdot, isIdle] using hnames)
      exact ⟨.here :: steps, by simp [List.mapM_cons, hsteps, hdot, Step.ofSegment?]⟩
    · rw [List.filter_cons_of_pos (by simp [isIdle, hempty, hdot])] at hnames
      obtain ⟨name, rest, rfl, rfl, htail⟩ := List.map_eq_cons_iff.1 hnames.symm
      obtain ⟨steps, hsteps⟩ := ih htail.symm
      exact ⟨.into name :: steps, by simp [List.mapM_cons, hsteps, Step.ofSegment?_name]⟩

lemma Spells.exists_route (h : p.Spells place) (hfits : p.Fits) :
    ∃ route, p.route? = .ok route := by
  obtain ⟨steps, hsteps⟩ := exists_steps h.names
  rw [route?, if_neg hfits.zero, if_neg hfits.nonempty, if_neg (Nat.not_lt.2 hfits.length), hsteps]
  exact ⟨_, rfl⟩

/-- A path that ends in a name ends in a step into it. -/
lemma Pointed.route_spec (h : p.Pointed) (hp : p.Spells place) (hroute : p.route? = .ok route) :
    route.slash = false ∧ ∃ name, route.steps.getLast? = some (.into name) := by
  have hslash := h.getLast?_ne_slash
  obtain ⟨front, last, hsegs, hlast⟩ := h
  rw [isIdle, Bool.or_eq_false_iff, decide_eq_false_iff_not] at hlast
  have down := (hp.descends hroute).2.1
  rw [route?] at hroute
  split_ifs at hroute
  split at hroute
  · rename_i steps hsteps
    cases hroute
    rw [hsegs, List.filter_append, List.filter_cons_of_pos (by simp [hlast.1]),
      List.filter_nil] at hsteps
    exact ⟨by simp [hslash], down.last_into hsteps hlast.2⟩
  · cases hroute

/-- The last segment says to stay, so the path leads to a directory but not by its name. -/
def EndsInDot (p : Path) : Prop := (p.segments.filter (!·.isEmpty)).getLast? = some dot

instance (p : Path) : Decidable p.EndsInDot := inferInstanceAs (Decidable (_ = _))

lemma last_into_of_not_dot (hp : p.Spells place) (hroute : p.route? = .ok route) (hne : place ≠ [])
    (hdot : ¬p.EndsInDot) : ∃ name, route.steps.getLast? = some (.into name) := by
  have down := (hp.descends hroute).2.1
  rw [route?] at hroute
  split_ifs at hroute
  split at hroute
  · rename_i steps hsteps
    cases hroute
    rw [EndsInDot] at hdot
    rcases List.eq_nil_or_concat (p.segments.filter (!·.isEmpty)) with hnil | ⟨front, last, hsegs⟩
    · rw [hnil] at hsteps
      obtain rfl : [] = steps := by simpa using hsteps
      exact absurd down.of_nil hne
    · rw [List.concat_eq_append] at hsegs
      rw [hsegs, List.getLast?_concat, Option.some.injEq] at hdot
      rw [hsegs] at hsteps
      exact down.last_into hsteps hdot
  · cases hroute

namespace Passes

lemma of_front (h : p.Passes place) {front : Place} (hfront : front <+: place)
    (hq : q.Spells front) (hbytes : q.bytes <+: p.bytes) : q.Passes front :=
  ⟨hq, h.fits.of_front (bytes_ne_nil hq.absolute) hbytes,
    fun name hname => h.short name (hfront.subset hname)⟩

lemma exists_parent? (h : p.Passes place) (hne : place ≠ []) :
    ∃ q, p.parent? = some q ∧ q.Passes place.dropLast ∧
      (q.Pointed ∨ place.dropLast = []) := by
  have hnames : p.names ≠ [] := by
    rw [h.names]
    simpa using hne
  obtain ⟨q, hq, hbytes, hpointed⟩ := Path.exists_parent? h.absolute hnames
  have hspells := h.toSpells.parent? hq
  refine ⟨q, hq, h.of_front (List.dropLast_prefix place) hspells hbytes, ?_⟩
  refine hpointed.imp_right fun hnil => ?_
  exact List.map_eq_nil_iff.1 (hspells.names.symm.trans hnil)

end Passes
end Path

namespace FileTree

open BootVolume.Path

variable {t u : FileTree} {here place names q : Place} {steps more : List Step} {p : Path}
  {e : Entry} {route : Route}

/-! ## Walking -/

/-- A walk does not get past a name that is too long: a link before it leaves it to be taken. -/
lemma advance_of_long {follow : Bool} {name : Name} (hmem : .into name ∈ steps)
    (hlong : nameLimit < name.bytes.length) :
    (∀ q, t.advance follow place steps ≠ .found q) ∧
      ∀ dir target rest, t.advance follow place steps = .through dir target rest →
        .into name ∈ rest := by
  induction steps generalizing place with
  | nil => cases hmem
  | cons step steps ih =>
    unfold advance
    split
    · simp
    · cases step with
      | here => exact ih (by simpa using hmem)
      | up => exact ih (by simpa using hmem)
      | into next =>
        dsimp only
        split
        · simp
        rename_i hshort
        have hmem : .into name ∈ steps := by
          refine (List.mem_cons.1 hmem).resolve_left fun heq => ?_
          cases heq
          exact hshort hlong
        split
        · split <;> simp
        · rw [List.isEmpty_eq_false_iff.2 (List.ne_nil_of_mem hmem), Bool.false_and,
            if_neg Bool.false_ne_true]
          refine ⟨by simp, fun _ _ _ heq => ?_⟩
          cases heq
          exact hmem
        · exact ih hmem
    · simp

/-- A walk that ends at a place has taken no name that is too long. -/
lemma short_of_walk {follow : Bool} {links : Nat}
    (hwalk : t.walk follow links place steps = .found q) {name : Name}
    (hmem : .into name ∈ steps) : name.bytes.length ≤ nameLimit := by
  by_contra hlong
  induction links using Nat.strongRecOn generalizing place steps with
  | ind links ih =>
    obtain ⟨hfound, hthrough⟩ : (∀ q, t.advance follow place steps ≠ .found q) ∧
        ∀ dir target rest, t.advance follow place steps = .through dir target rest →
          .into name ∈ rest := advance_of_long hmem (Nat.not_le.1 hlong)
    unfold walk at hwalk
    split at hwalk
    · rename_i dir target rest hadvance
      split at hwalk
      · cases hwalk
      · split at hwalk
        · refine ih _ (Nat.lt_succ_self _) hwalk (List.mem_append_right _ ?_)
          exact hthrough dir target rest hadvance
        · cases hwalk
    · exact hfound q hwalk

/-- A walk down to a directory that is there, and on from it. -/
lemma advance_append {follow : Bool} (h : Descends steps names)
    (hshort : ∀ name ∈ names, name.bytes.length ≤ nameLimit)
    (hdir : t.get? (place ++ names) = some .dir) (more : List Step) :
    t.advance follow place (steps ++ more) = t.advance follow (place ++ names) more := by
  induction h generalizing place with
  | nil => rw [List.nil_append, List.append_nil]
  | here _ ih =>
    rw [List.cons_append, advance_here (get?_eq_dir_of_front (List.prefix_append _ _) hdir)]
    exact ih hshort hdir
  | @into steps names name _ ih =>
    have hsplit : place ++ name :: names = (place ++ [name]) ++ names := by simp
    have hnext : t.get? (place ++ [name]) = some .dir :=
      get?_eq_dir_of_front (hsplit ▸ List.prefix_append _ _) hdir
    obtain ⟨hname, hshort⟩ := List.forall_mem_cons.1 hshort
    rw [List.cons_append, advance_into (by simp [hnext])
      (get?_eq_dir_of_front (List.prefix_append _ _) hdir) hname (by simp [hnext]), hsplit]
    exact ih hshort (hsplit ▸ hdir)

lemma walk_dir {follow : Bool} (h : Descends steps names)
    (hshort : ∀ name ∈ names, name.bytes.length ≤ nameLimit)
    (hdir : t.get? (place ++ names) = some .dir) (links : Nat) :
    t.walk follow links place steps = .found (place ++ names) := by
  have hfound : t.advance follow place steps = .found (place ++ names) := by
    have happend : t.advance follow place (steps ++ []) = t.advance follow (place ++ names) [] :=
      advance_append h hshort hdir []
    rwa [List.append_nil, advance] at happend
  rw [walk_of_ne_through (by simp [hfound]), hfound]

/-- Where directories are missing and nothing is in the way, a walk comes upon that. -/
lemma advance_missing (h : Descends steps names)
    (hshort : ∀ name ∈ names, name.bytes.length ≤ nameLimit)
    (hclear : ∀ r, r <+: place ++ names → t.get? r = none ∨ t.get? r = some .dir)
    (hplace : t.get? place = some .dir) (hmissing : t.get? (place ++ names) = none) :
    (∃ dir name, t.advance true place steps = .missing dir name) ∨
      t.advance true place steps = .failed .noEntry := by
  induction h generalizing place with
  | nil => simp [hplace] at hmissing
  | here _ ih =>
    rw [advance_here hplace]
    exact ih hshort hclear hplace hmissing
  | @into steps names name _ ih =>
    have hsplit : place ++ name :: names = (place ++ [name]) ++ names := by simp
    obtain ⟨hname, hshort⟩ := List.forall_mem_cons.1 hshort
    rcases hclear (place ++ [name]) (hsplit ▸ List.prefix_append _ _) with hnone | hnext
    · unfold advance
      rw [hplace]
      dsimp only
      rw [if_neg (Nat.not_lt.2 hname), hnone]
      dsimp only
      split
      · exact .inl ⟨_, _, rfl⟩
      · exact .inr rfl
    · rw [advance_into (by simp [hnext]) hplace hname (by simp [hnext])]
      exact ih hshort (hsplit ▸ hclear) hnext (hsplit ▸ hmissing)

lemma walk_missing (h : Descends steps place)
    (hshort : ∀ name ∈ place, name.bytes.length ≤ nameLimit)
    (hclear : ∀ r, r <+: place → t.get? r = none ∨ t.get? r = some .dir)
    (hmissing : t.get? place = none) (links : Nat) :
    (∃ dir name, t.walk true links [] steps = .missing dir name) ∨
      t.walk true links [] steps = .failed .noEntry := by
  have hend : (∃ dir name, t.advance true [] steps = .missing dir name) ∨
      t.advance true [] steps = .failed .noEntry :=
    advance_missing h hshort hclear (get?_root t) hmissing
  rw [walk_of_ne_through fun dir target rest hthrough => ?_]
  · exact hend
  · rcases hend with ⟨_, _, hend⟩ | hend <;> rw [hend] at hthrough <;> cases hthrough

/-! ## Finding -/

lemma passes_of_find (hp : p.Spells place) (h : t.find here p = .ok (q, e)) : p.Passes place := by
  obtain ⟨route, hroute, hwalk⟩ := locate_eq_ok_iff.1 (find_eq_ok_iff.1 h).1
  exact ⟨hp, fits_of_route? hroute, fun name hname =>
    short_of_walk hwalk ((hp.descends hroute).2.2.into_mem hname)⟩

lemma locate_of_dir (follow : Bool) (hp : p.Passes place) (hdir : t.get? place = some .dir) :
    t.locate here follow p = .ok place := by
  obtain ⟨route, hroute⟩ := hp.exists_route hp.fits
  obtain ⟨habs, -, down⟩ := hp.descends hroute
  refine locate_eq_ok_iff.2 ⟨route, hroute, ?_⟩
  rw [Route.start, if_pos habs]
  exact walk_dir down hp.short hdir linkLimit

/-- The way of a path that ends in a name leads to the directory above, and from there into it. -/
lemma exists_into (hp : p.Passes place) (hpointed : p.Pointed) :
    ∃ route above name, p.route? = .ok route ∧ route.absolute = true ∧
      route.allSteps = route.steps ∧ route.slash = false ∧ place = above ++ [name] ∧
      ∀ (t : FileTree) (follow : Bool), t.get? above = some .dir →
        t.advance follow [] route.steps = t.advance follow above [.into name] := by
  obtain ⟨route, hroute⟩ := hp.exists_route hp.fits
  obtain ⟨habs, down, -⟩ := hp.descends hroute
  obtain ⟨hslash, name, hlast⟩ := hpointed.route_spec hp.toSpells hroute
  obtain ⟨above, rfl, hdown⟩ := down.dropLast_into hlast
  obtain ⟨front, hsteps⟩ := List.getLast?_eq_some_iff.1 hlast
  have hshort : ∀ n ∈ above, n.bytes.length ≤ nameLimit :=
    fun n hn => hp.short n (List.mem_append_left _ hn)
  rw [hsteps, List.dropLast_concat] at hdown
  refine ⟨route, above, name, hroute, habs, ?_, hslash, rfl, fun t follow habove => ?_⟩
  · rw [Route.allSteps, hslash, if_neg Bool.false_ne_true]
  · rw [hsteps]
    exact advance_append hdown hshort habove _

/-- A step into what is there ends there, at a link unless it is followed. -/
lemma advance_name {follow : Bool} {name : Name}
    (hlink : follow = true → ∀ target, t.get? (place ++ [name]) ≠ some (.link target))
    (hdir : t.get? place = some .dir) (hshort : name.bytes.length ≤ nameLimit)
    (hthere : t.get? (place ++ [name]) ≠ none) :
    t.advance follow place [.into name] = .found (place ++ [name]) := by
  unfold advance
  rw [hdir]
  dsimp only
  rw [if_neg (Nat.not_lt.2 hshort)]
  cases hentry : t.get? (place ++ [name]) with
  | none => exact absurd hentry hthere
  | some entry =>
    cases entry with
    | file | dir => rfl
    | link target =>
      cases follow with
      | false => rfl
      | true => exact absurd hentry (hlink rfl target)

/-- What is there is located by a path that ends in its name, a link unless it is followed. -/
lemma locate_of_pointed {follow : Bool}
    (hlink : follow = true → ∀ target, t.get? place ≠ some (.link target)) (hp : p.Passes place)
    (hpointed : p.Pointed) (hthere : t.get? place ≠ none) :
    t.locate here follow p = .ok place := by
  obtain ⟨route, above, name, hroute, habs, hall, -, rfl, hadvance⟩ := exists_into hp hpointed
  have habove : t.get? above = some .dir :=
    get?_eq_dir_of_above (List.prefix_append _ _) (by simp) hthere
  have hfound : t.advance follow [] route.steps = .found (above ++ [name]) := by
    rw [hadvance t follow habove, advance_name hlink habove (hp.short name (by simp)) hthere]
  refine locate_eq_ok_iff.2 ⟨route, hroute, ?_⟩
  rw [Route.start, if_pos habs, hall, walk_of_ne_through (by simp [hfound]), hfound]

/-- What is there and no link is found, a file only by a path that ends in its name. -/
lemma find_of_passes (hlink : ∀ target, t.get? place ≠ some (.link target)) (hp : p.Passes place)
    (hentry : t.get? place = some e) (hkind : e = .dir ∨ p.Pointed) :
    t.find here p = .ok (place, e) := by
  refine find_eq_ok_iff.2 ⟨?_, hentry⟩
  rcases hkind with rfl | hpointed
  · exact locate_of_dir true hp hentry
  · exact locate_of_pointed (fun _ => hlink) hp hpointed (by simp [hentry])

lemma isDir_of_passes (hp : p.Passes place) (hdir : t.get? place = some .dir) :
    t.isDir here p = true :=
  isDir_eq_true_iff.2 ⟨place, find_of_passes (by simp [hdir]) hp hdir (.inl rfl)⟩

lemma find_of_missing (hp : p.Passes place)
    (hclear : ∀ r, r <+: place → t.get? r = none ∨ t.get? r = some .dir)
    (hmissing : t.get? place = none) : t.find here p = .error (.os .noEntry) := by
  obtain ⟨route, hroute⟩ := hp.exists_route hp.fits
  obtain ⟨habs, -, down⟩ := hp.descends hroute
  have hend := walk_missing down hp.short hclear hmissing linkLimit
  rw [find, locate, hroute]
  dsimp only
  rw [Route.start, if_pos habs]
  rcases hend with ⟨_, _, hend⟩ | hend <;> rw [hend]

/-! ## Making directories -/

lemma parentOf_of_passes {dir : Place} {name last : Name}
    (hp : p.Passes (dir ++ [name])) (hroute : p.route? = .ok route)
    (hlast : route.steps.getLast? = some (.into last)) (hdir : t.get? dir = some .dir) :
    last = name ∧ t.parentOf here route = .ok dir := by
  obtain ⟨habs, down, -⟩ := hp.descends hroute
  obtain ⟨above, heq, hdown⟩ := down.dropLast_into hlast
  obtain ⟨rfl, hname⟩ := List.append_inj' heq rfl
  have hshort : ∀ n ∈ dir, n.bytes.length ≤ nameLimit :=
    fun n hn => hp.short n (List.mem_append_left _ hn)
  refine ⟨(List.cons.inj hname).1.symm, parentOf_eq_ok_iff.2 ⟨?_, hdir⟩⟩
  rw [Route.start, if_pos habs, walk_dir hdown hshort (by simpa using hdir), List.nil_append]

/-- Below a directory that is there a directory is made, unless something is in its place. -/
lemma makeDir_of_passes {dir : Place} {name : Name}
    (hp : p.Passes (dir ++ [name])) (hpointed : p.Pointed) (hdir : t.get? dir = some .dir) :
    t.makeDir here p = if (t.get? (dir ++ [name])).isSome then .error (.os .alreadyExists)
      else .ok (t.put (dir ++ [name]) .dir) := by
  obtain ⟨route, hroute⟩ := hp.exists_route hp.fits
  obtain ⟨-, last, hlast⟩ := hpointed.route_spec hp.toSpells hroute
  obtain ⟨rfl, hparent⟩ := parentOf_of_passes hp hroute hlast hdir
  rw [makeDir, hroute]
  dsimp only
  rw [hparent]
  dsimp only
  rw [hlast]
  dsimp only
  rw [if_neg (Nat.not_lt.2 (hp.short last (by simp)))]

lemma makeDir_of_missing {dir : Place} {name : Name}
    (hp : p.Passes (dir ++ [name])) (hpointed : p.Pointed)
    (hclear : ∀ r, r <+: dir → t.get? r = none ∨ t.get? r = some .dir)
    (hdir : t.get? dir = none) : t.makeDir here p = .error (.os .noEntry) := by
  obtain ⟨route, hroute⟩ := hp.exists_route hp.fits
  obtain ⟨habs, down, -⟩ := hp.descends hroute
  obtain ⟨-, last, hlast⟩ := hpointed.route_spec hp.toSpells hroute
  obtain ⟨above, heq, hdown⟩ := down.dropLast_into hlast
  obtain ⟨rfl, -⟩ := List.append_inj' heq rfl
  have hshort : ∀ n ∈ dir, n.bytes.length ≤ nameLimit :=
    fun n hn => hp.short n (List.mem_append_left _ hn)
  have hend := walk_missing hdown hshort hclear hdir linkLimit
  have hparent : t.parentOf here route = .error (.os .noEntry) := by
    rw [parentOf, Route.start, if_pos habs]
    rcases hend with ⟨_, _, hend⟩ | hend <;> rw [hend]
  rw [makeDir, hroute]
  dsimp only
  rw [hparent]

lemma makeDir_of_root (hp : p.Passes []) :
    t.makeDir here p = .error (.os .alreadyExists) := by
  obtain ⟨route, hroute⟩ := hp.exists_route hp.fits
  obtain ⟨habs, down, -⟩ := hp.descends hroute
  have hparent : t.parentOf here route = .ok [] := by
    obtain ⟨above, habove, hdown⟩ := down.exists_dropLast
    obtain rfl := List.prefix_nil.1 habove
    refine parentOf_eq_ok_iff.2 ⟨?_, get?_root t⟩
    rw [Route.start, if_pos habs]
    exact walk_dir hdown (by simp) (get?_root t) linkLimit
  rw [makeDir, hroute]
  dsimp only
  rw [hparent]
  dsimp only
  split
  · rename_i name hlast
    obtain ⟨above, hnil, -⟩ := down.dropLast_into hlast
    simp at hnil
  · rfl

lemma makeChain_of_there {above : List Path} (hp : p.bytes ≠ [])
    (hmade : t.makeDir here p = .error (.os .alreadyExists)) (hdir : t.isDir here p = true) :
    t.makeChain here (p :: above) = (t, .ok ()) := by
  rw [makeChain, if_neg hp, hmade]
  dsimp only
  rw [if_pos (by decide), if_pos hdir]

/-- Where nothing is in the way, a directory and all those above it are made. -/
lemma makeChain_of_passes {count : Nat} (hcount : place.length ≤ count)
    (hp : p.Passes place) (hpointed : p.Pointed ∨ place = [])
    (hclear : ∀ r, r <+: place → t.get? r = none ∨ t.get? r = some .dir) :
    ∃ u, t.makeChain here (ancestors.climb count p) = (u, .ok ()) ∧ Paves place t u ∧
      u.get? place = some .dir := by
  -- The induction is on the place: a directory is made once those above it are there.
  induction place using List.reverseRecOn generalizing p count with
  | nil =>
    obtain ⟨above, habove⟩ : ∃ above, ancestors.climb count p = p :: above := by
      cases count <;> exact ⟨_, rfl⟩
    have hdir : t.isDir here p = true := isDir_of_passes hp (get?_root t)
    rw [habove, makeChain_of_there hp.fits.nonempty (makeDir_of_root hp) hdir]
    exact ⟨t, rfl, paves_refl _ _, get?_root t⟩
  | append_singleton dir name ih =>
    have hpointed : p.Pointed := hpointed.resolve_right (by simp)
    have hlength : dir.length + 1 ≤ count := by simpa using hcount
    obtain ⟨count, rfl⟩ : ∃ more, count = more + 1 := ⟨count - 1, by omega⟩
    obtain ⟨q, hq, hpasses, hqpointed⟩ := hp.exists_parent? (by simp)
    rw [List.dropLast_concat] at hpasses hqpointed
    have hcleardir : ∀ r, r <+: dir → t.get? r = none ∨ t.get? r = some .dir :=
      fun r hr => hclear r (hr.trans (List.prefix_append _ _))
    have made {u : FileTree} (hdir : u.get? dir = some .dir)
        (hfree : u.get? (dir ++ [name]) = none) :
        u.makeDir here p = .ok (u.put (dir ++ [name]) .dir) ∧
          Paves (dir ++ [name]) u (u.put (dir ++ [name]) .dir) ∧
          (u.put (dir ++ [name]) .dir).get? (dir ++ [name]) = some .dir := by
      have admits : u.Admits (dir ++ [name]) .dir := ⟨by simp, by simpa using hdir, fun _ => rfl⟩
      rw [makeDir_of_passes hp hpointed hdir, hfree, get?_put admits, if_pos rfl]
      exact ⟨rfl, paves_put admits hfree, rfl⟩
    rw [ancestors.climb, hq, Option.elim_some]
    rcases hcleardir dir List.prefix_rfl with hmissing | hdir
    · obtain ⟨u, hchain, hpaves, hdir⟩ :=
        ih (Nat.le_of_succ_le_succ hlength) hpasses hqpointed hcleardir
      have hfree : u.get? (dir ++ [name]) = none := by
        rcases hpaves (dir ++ [name]) with heq | ⟨-, -, hway⟩
        · rw [heq, get?_eq_none_of_front (List.prefix_append _ _) hmissing]
        · exact absurd hway.length_le (by simp)
      obtain ⟨hmade, hpaved, hthere⟩ := made hdir hfree
      rw [makeChain, if_neg hp.fits.nonempty, makeDir_of_missing hp hpointed hcleardir hmissing,
        hchain]
      dsimp only
      rw [if_neg (by simp), hmade]
      exact ⟨_, rfl, (hpaves.mono (List.prefix_append _ _)).trans hpaved, hthere⟩
    · rcases hclear _ List.prefix_rfl with hfree | hthere
      · obtain ⟨hmade, hpaved, hthere⟩ := made hdir hfree
        rw [makeChain, if_neg hp.fits.nonempty, hmade]
        exact ⟨_, rfl, hpaved, hthere⟩
      · have hmade : t.makeDir here p = .error (.os .alreadyExists) := by
          rw [makeDir_of_passes hp hpointed hdir, hthere]
          rfl
        rw [makeChain_of_there hp.fits.nonempty hmade (isDir_of_passes hp hthere)]
        exact ⟨t, rfl, paves_refl _ _, hthere⟩

lemma makeDirs_of_passes (hp : p.Passes place)
    (hpointed : p.Pointed ∨ place = [])
    (hclear : ∀ r, r <+: place → t.get? r = none ∨ t.get? r = some .dir) :
    ∃ u, t.makeDirs here p = (u, .ok ()) ∧ Paves place t u ∧ u.get? place = some .dir := by
  refine makeChain_of_passes ?_ hp hpointed hclear
  have hlength : place.length = p.names.length := by rw [hp.names, List.length_map]
  exact hlength ▸ List.length_filter_le _ _

/-- A directory is made only by a path that passes to it. -/
lemma passes_of_makeDir (ht : t.Linkless) (hp : p.Spells place) (h : t.makeDir here p = .ok u) :
    p.Passes place := by
  rw [makeDir] at h
  split at h
  · cases h
  rename_i route hroute
  split at h
  · cases h
  rename_i dir hparent
  split at h
  · rename_i name hlast
    obtain ⟨habs, down, -⟩ := hp.descends hroute
    obtain ⟨rfl, -⟩ := parentOf_spec ht hp hroute hparent hlast
    obtain ⟨above, heq, hdown⟩ := down.dropLast_into hlast
    obtain ⟨rfl, -⟩ := List.append_inj' heq rfl
    have hwalk := (parentOf_eq_ok_iff.1 hparent).1
    split_ifs at h with hname
    refine ⟨hp, fits_of_route? hroute, fun n hn => ?_⟩
    rcases List.mem_append.1 hn with hn | hn
    · exact short_of_walk hwalk (hdown.into_mem hn)
    · rw [List.mem_singleton.1 hn]
      exact Nat.not_lt.1 hname
  · cases h

/-- Where directories are made, the longest path is one that the system takes. -/
lemma fits_of_makeChain {above : List Path} (h : (t.makeChain here (p :: above)).1 ≠ t) :
    p.Fits := by
  rw [makeChain] at h
  split at h
  · exact absurd rfl h
  rename_i hempty
  cases hroute : p.route? with
  | ok route => exact fits_of_route? hroute
  | error cause =>
    have hcause : cause ≠ .os .noEntry := by
      rw [route?] at hroute
      rintro rfl
      split_ifs at hroute with hzero hlong
      · cases hroute
      · cases hroute
      · split at hroute <;> cases hroute
    have hmade : t.makeDir here p = .error cause := by rw [makeDir, hroute]
    rw [hmade] at h
    dsimp only at h
    rw [if_pos hcause] at h
    exact absurd rfl h

/-- Where directories are made, no name on the way to one of them is too long. -/
lemma short_of_makeChain (ht : t.Linkless) {ps : List Path}
    (hps : ∀ q ∈ ps, ∃ front, front <+: place ∧ q.Spells front) {r : Place}
    (hr : (t.makeChain here ps).1.get? r ≠ t.get? r) :
    ∀ name ∈ r, name.bytes.length ≤ nameLimit := by
  have made {p : Path} {t u : FileTree} (ht : t.Linkless) {front : Place} (hp : p.Spells front)
      (h : t.makeDir here p = .ok u) (hr : u.get? r ≠ t.get? r) :
      ∀ name ∈ r, name.bytes.length ≤ nameLimit := by
    obtain ⟨-, -, hway⟩ := (paves_makeDir ht hp h r).resolve_left hr
    exact fun name hname => (passes_of_makeDir ht hp h).short name (hway.subset hname)
  induction ps with
  | nil => exact absurd rfl hr
  | cons p above ih =>
    obtain ⟨⟨front, -, hp⟩, habove⟩ := List.forall_mem_cons.1 hps
    have paves : Paves place t (t.makeChain here above).1 := paves_makeChain ht habove
    rw [makeChain] at hr
    split at hr
    · exact absurd rfl hr
    split at hr
    · exact made ht hp ‹_› hr
    split at hr
    · exact absurd rfl hr
    have first := ih habove
    split at hr
    · rename_i u cause hchain
      rw [hchain] at first
      exact first hr
    · rename_i u hchain
      rw [hchain] at first paves
      by_cases hsame : u.get? r = t.get? r
      · rw [← hsame] at hr
        split at hr
        · exact made (paves.linkless ht) hp ‹_› hr
        · exact absurd rfl hr
      · exact first hsame

/-! ## Opening -/

lemma openPlace_of_passes (hlink : ∀ target, t.get? place ≠ some (.link target))
    (hp : p.Passes place) (hpointed : p.Pointed) (hne : place ≠ [])
    (habove : t.get? place.dropLast = some .dir) (hfree : t.get? place ≠ some .dir) :
    t.openPlace here p = .ok place := by
  obtain ⟨route, above, name, hroute, habs, -, hslash, rfl, hadvance⟩ := exists_into hp hpointed
  rw [List.dropLast_concat] at habove
  have hwalk := hadvance t true habove
  refine openPlace_eq_ok_iff.2 ⟨route, hroute, hslash, ?_⟩
  rw [Route.start, if_pos habs]
  cases hthere : t.get? (above ++ [name]) with
  | none =>
    have hend : t.advance true above [.into name] = .missing above name := by
      unfold advance
      rw [habove]
      dsimp only
      rw [if_neg (Nat.not_lt.2 (hp.short name (by simp))), hthere]
      rfl
    rw [walk_of_ne_through (by simp [hwalk, hend]), hwalk, hend]
    exact .free above name
  | some e =>
    have hend : t.advance true above [.into name] = .found (above ++ [name]) :=
      advance_name (fun _ => hlink) habove (hp.short name (by simp)) (by simp [hthere])
    rw [walk_of_ne_through (by simp [hwalk, hend]), hwalk, hend]
    cases e with
    | file => exact .there hthere
    | link target => exact absurd hthere (hlink _)
    | dir => exact absurd hthere hfree

end FileTree
end BootVolume
