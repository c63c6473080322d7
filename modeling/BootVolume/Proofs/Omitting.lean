import BootVolume.Proofs.Switches

/-!
# Leaving out a switch

A switch can be asked for at any place where an argument stands as such, by its long name or by its
letter. Without that argument everything else is read as it was (`read_omitting`).

Reading without it takes the same steps, with one choice less (`readArguments_lacks`). Only the
value that is still to be checked where the switch stands is checked later, which makes no
difference (`readArguments_settled`).
-/

namespace BootVolume.CommandLine

/-- The arguments that ask for a switch and for nothing else. -/
def Switch.spellings (s : Switch) : List Bytes :=
  Utf8.encode ("--" ++ s.long) :: s.short?.toList.map fun c => Utf8.encode (.ofList ['-', c])

/-- Whether the output setting takes the argument behind these. -/
def takesNext : (taken : Bool) → List Bytes → Bool
  | taken, [] => taken
  | true, _ :: rest => takesNext false rest
  | false, arg :: rest => takesNext (Argument.ofBytes arg).asksOutput rest

/-- The same progress but for a switch that was met in between. -/
structure Progress.Lacks (s : Switch) (p q : Progress) : Prop where
  pending : p.pending = q.pending
  choices : ∃ front back, q.choices = front ++ .switch s :: back ∧ p.choices = front ++ back

section Steps

variable {s : Switch} {level : Level} {full : Bool} {p q : Progress}

lemma Progress.Lacks.has_eq_false (lacks : p.Lacks s q) {opt : Opt} (h : ¬q.has opt = true) :
    ¬p.has opt = true := by
  obtain ⟨front, back, hq, hp⟩ := lacks.choices
  rw [Progress.has, hq, List.any_append, List.any_cons] at h
  rw [Progress.has, hp, List.any_append]
  simp only [Bool.or_eq_true, not_or] at h ⊢
  exact ⟨h.1, h.2.2⟩

lemma Progress.Lacks.awaiting (lacks : p.Lacks s q) (pending : Option (Setting × Option Bytes)) :
    Lacks s { p with pending } { q with pending } := ⟨rfl, lacks.choices⟩

/-- A step that is taken with the switch is taken without it. -/
def Spares (s : Switch) (step : Progress → Except Stop Progress) : Prop :=
  ∀ ⦃p q q'⦄, p.Lacks s q → step q = .ok q' → ∃ p', step p = .ok p' ∧ p'.Lacks s q'

namespace Spares

variable {first second : Progress → Except Stop Progress}

lemma stop (stop : Stop) : Spares s fun _ => .error stop := fun _ _ _ _ h => nomatch h

lemma bind (hfirst : Spares s first) (hsecond : Spares s second) :
    Spares s fun p => first p >>= second := by
  intro p q q' lacks h
  obtain ⟨between, hbetween, h⟩ := bind_eq_ok.1 h
  obtain ⟨between', hbetween', lacks⟩ := hfirst lacks hbetween
  obtain ⟨p', hp', lacks⟩ := hsecond lacks h
  exact ⟨p', bind_eq_ok.2 ⟨between', hbetween', hp'⟩, lacks⟩

lemma choose (setting : Setting) (value : Option Bytes) : Spares s (·.choose setting value) := by
  intro p q q' lacks h
  cases value with
  | none => cases h
  | some value =>
    obtain ⟨front, back, hq, hp⟩ := lacks.choices
    dsimp only at h ⊢
    rw [Progress.choose] at h ⊢
    split at h
    · cases h
    rename_i hfree
    rw [if_neg (lacks.has_eq_false hfree)]
    cases hread : setting.read value with
    | error complaint =>
      rw [hread] at h
      cases h
    | ok choice =>
      rw [hread] at h
      cases h
      exact ⟨_, rfl, rfl, front, back ++ [choice], by simp [hq], by simp [hp]⟩

lemma settle : Spares s (·.settle) := by
  intro p q q' lacks h
  dsimp only at h ⊢
  rw [Progress.settle] at h ⊢
  rw [lacks.pending]
  split at h
  · cases h
    exact ⟨p, rfl, lacks⟩
  · exact choose _ _ (lacks.awaiting none) h

lemma give (setting : Setting) (value : Bytes) : Spares s (·.give setting value) :=
  bind settle (choose setting (some value))

lemma await (setting : Setting) : Spares s (·.await setting) := by
  refine bind settle fun p q q' lacks h => ?_
  cases h
  exact ⟨_, rfl, lacks.awaiting _⟩

lemma turnOn (other : Switch) : Spares s (·.turnOn other) := by
  refine bind settle fun p q q' lacks h => ?_
  split at h
  · cases h
  rename_i hfree
  cases h
  obtain ⟨front, back, hq, hp⟩ := lacks.choices
  rw [if_neg (lacks.has_eq_false hfree)]
  exact ⟨_, rfl, lacks.pending, front, back ++ [.switch other], by simp [hq], by simp [hp]⟩

lemma meet (opt : Opt) : Spares s (·.meet level full opt) := by
  cases opt with
  | switch other => exact turnOn other
  | setting setting => exact await setting
  | help => exact bind settle (stop _)
  | version => exact bind settle (stop _)

lemma long (name : Bytes) (value : Option Bytes) : Spares s (·.long level name value) := by
  unfold Progress.long
  cases (Utf8.decode? name).bind level.ofLong? with
  | none => exact stop _
  | some opt =>
    cases value with
    | some value =>
      cases opt with
      | setting setting => exact give setting value
      | switch | help | version => exact stop _
    | none => cases opt <;> exact meet _

lemma letters (rest : Bytes) (cs : List Char) : Spares s (·.letters level rest cs) := by
  induction cs with
  | nil =>
    intro p q q' lacks h
    unfold Progress.letters at h ⊢
    split at h
    · cases h
      exact ⟨p, if_pos ‹_›, lacks⟩
    · cases h
  | cons c cs ih =>
    unfold Progress.letters
    cases level.ofShort? c with
    | none => exact stop _
    | some opt =>
      cases opt with
      | setting setting =>
        dsimp only
        split
        · exact give _ _
        · exact await _
        · exact give _ _
      | switch | help | version => exact bind (meet _) ih

end Spares

/-! ## A value that is not checked yet -/

lemma settle_of_settle (h : p.settle = .ok q) : q.settle = .ok q := by
  rw [Progress.settle, (Progress.settle_spec h).2]

/-- The value is there: nothing is waited for. -/
lemma awaited_of_settle (h : p.settle = .ok q) : p.awaited? = none := by
  rw [Progress.settle] at h
  rw [Progress.awaited?]
  split at h
  case h_1 hp => rw [hp]
  case h_2 setting value hp =>
    cases value with
    | none => cases h
    | some value => rw [hp]

section Settling

variable (h : p.settle = q.settle)
include h

lemma give_settled (setting : Setting) (value : Bytes) :
    p.give setting value = q.give setting value := by
  rw [Progress.give, Progress.give, h]

lemma meet_settled (opt : Opt) : p.meet level full opt = q.meet level full opt := by
  cases opt <;> simp only [Progress.meet, Progress.turnOn, Progress.await, h]

lemma long_settled (name : Bytes) (value : Option Bytes) :
    p.long level name value = q.long level name value := by
  unfold Progress.long
  split
  · exact give_settled h _ _
  · rfl
  · exact meet_settled h _
  · rfl

lemma letters_settled (rest : Bytes) (c : Char) (cs : List Char) :
    p.letters level rest (c :: cs) = q.letters level rest (c :: cs) := by
  unfold Progress.letters
  split
  · rfl
  · split
    · exact give_settled h _ _
    · simp only [Progress.await, h]
    · exact give_settled h _ _
  · rw [meet_settled h]

end Settling

lemma readArguments_settled (h : p.settle = .ok q) (args : List Bytes) :
    readArguments level p args = readArguments level q args := by
  have same : p.settle = q.settle := h.trans (settle_of_settle h).symm
  induction args with
  | nil => rw [readArguments, readArguments, same]
  | cons arg rest ih =>
    have free {r : Progress} (hr : r.settle = .ok q) : r.takes? arg = none := by
      rw [Progress.takes?, awaited_of_settle hr, Option.filter_none]
    have hp := free h
    have hq := free (settle_of_settle h)
    cases hkind : Argument.ofBytes arg with
    | endMark => rw [readArguments_mark hp hkind, readArguments_mark hq hkind, same]
    | long name value =>
      rw [readArguments_long hp hkind, readArguments_long hq hkind, long_settled same]
    | letters bytes =>
      rw [readArguments_letters hp hkind, readArguments_letters hq hkind]
      cases (textPrefix bytes).1 with
      | nil =>
        unfold Progress.letters
        split
        · exact ih
        · rfl
      | cons c cs => rw [letters_settled same]
    | word => rw [readArguments_word hp hkind, readArguments_word hq hkind, same]

end Steps

section Reading

variable {s : Switch} {level : Level} {p q : Progress} {task : Task} {choices : List Choice}
  {arg : Bytes} {front back : List Bytes}

/-- Behind a switch everything is read as without it. -/
lemma readArguments_lacks {args : List Bytes} (lacks : p.Lacks s q)
    (h : readArguments level q args = .ok (task, choices)) :
    ∃ front back, choices = front ++ .switch s :: back ∧
      readArguments level p args = .ok (task, front ++ back) := by
  have finish {p q settled : Progress} (lacks : p.Lacks s q) (hsettled : q.settle = .ok settled) :
      ∃ front back, settled.choices = front ++ .switch s :: back ∧
        ∃ settled', p.settle = .ok settled' ∧ settled'.choices = front ++ back := by
    obtain ⟨settled', hsettled', lacks⟩ := Spares.settle lacks hsettled
    obtain ⟨front, back, hq, hp⟩ := lacks.choices
    exact ⟨front, back, hq, settled', hsettled', hp⟩
  induction args generalizing level p q choices task with
  | nil =>
    obtain ⟨settled, hsettled, h⟩ := bind_eq_ok.1 h
    cases h
    obtain ⟨front, back, hq, settled', hsettled', hp⟩ := finish lacks hsettled
    exact ⟨front, back, hq, bind_eq_ok.2 ⟨settled', hsettled', by rw [hp]; rfl⟩⟩
  | cons arg rest ih =>
    have hsame : p.takes? arg = q.takes? arg := by
      rw [Progress.takes?, Progress.takes?, Progress.awaited?, Progress.awaited?, lacks.pending]
    cases htakes : q.takes? arg with
    | some wanted =>
      rw [readArguments_value htakes] at h
      rw [readArguments_value (hsame.trans htakes)]
      exact ih (lacks.awaiting _) h
    | none =>
      have hfree := hsame.trans htakes
      cases hkind : Argument.ofBytes arg with
      | endMark =>
        rw [readArguments_mark htakes hkind] at h
        rw [readArguments_mark hfree hkind]
        cases rest with
        | nil =>
          obtain ⟨settled, hsettled, h⟩ := bind_eq_ok.1 h
          cases h
          obtain ⟨front, back, hq, settled', hsettled', hp⟩ := finish lacks hsettled
          exact ⟨front, back, hq, bind_eq_ok.2 ⟨settled', hsettled', by rw [hp]⟩⟩
        | cons => cases h
      | long name value =>
        rw [readArguments_long htakes hkind] at h
        obtain ⟨q', hq', h⟩ := bind_eq_ok.1 h
        obtain ⟨p', hp', lacks⟩ := Spares.long name value lacks hq'
        obtain ⟨front, back, hchoices, hread⟩ := ih lacks h
        rw [readArguments_long hfree hkind]
        exact ⟨front, back, hchoices, bind_eq_ok.2 ⟨p', hp', hread⟩⟩
      | letters bytes =>
        rw [readArguments_letters htakes hkind] at h
        obtain ⟨q', hq', h⟩ := bind_eq_ok.1 h
        obtain ⟨p', hp', lacks⟩ := Spares.letters _ _ lacks hq'
        obtain ⟨front, back, hchoices, hread⟩ := ih lacks h
        rw [readArguments_letters hfree hkind]
        exact ⟨front, back, hchoices, bind_eq_ok.2 ⟨p', hp', hread⟩⟩
      | word =>
        rw [readArguments_word htakes hkind] at h
        rw [readArguments_word hfree hkind]
        cases level with
        | task => cases h
        | program =>
          cases htask : taskNamed? arg with
          | none =>
            rw [htask] at h
            cases h
          | some named =>
            rw [htask] at h
            obtain ⟨⟨task, inner⟩, hinner, h⟩ := bind_eq_ok.1 h
            obtain ⟨settled, hsettled, h⟩ := bind_eq_ok.1 h
            cases h
            obtain ⟨front, back, hq, settled', hsettled', hp⟩ := finish lacks hsettled
            refine ⟨front, back ++ inner, by simp [hq], bind_eq_ok.2 ⟨_, hinner, ?_⟩⟩
            exact bind_eq_ok.2 ⟨settled', hsettled', by rw [hp, List.append_assoc]⟩

/-! ## The place of the switch -/

lemma letters_switch {c : Char} (hc : s.short? = some c) :
    p.letters level [] [c] = p.turnOn s := by
  have named : level.ofShort? c = some (.switch s) := by
    cases level <;> cases s <;> cases hc <;> rfl
  simp only [Progress.letters, named]
  exact bind_pure _

lemma ofBytes_spelling (harg : arg ∈ s.spellings) : Argument.ofBytes arg ≠ .word := by
  revert arg
  cases s <;> decide

lemma readArguments_spelling (hfree : p.takes? arg = none) (harg : arg ∈ s.spellings)
    (rest : List Bytes) :
    readArguments level p (arg :: rest) = p.turnOn s >>= fun p => readArguments level p rest := by
  rcases List.mem_cons.1 harg with rfl | hletter
  · rw [readArguments_long hfree (ofBytes_switch s), Progress.long_eq_turnOn]
  · obtain ⟨c, hc, rfl⟩ := List.mem_map.1 hletter
    have hc : s.short? = some c := Option.mem_toList.1 hc
    have hkind : Argument.ofBytes (Utf8.encode (.ofList ['-', c])) =
        .letters (Utf8.encode (.ofList [c])) := by
      cases s <;> cases hc <;> decide
    have htext : textPrefix (Utf8.encode (.ofList [c])) = ([c], []) := by
      cases s <;> cases hc <;> decide
    rw [readArguments_letters hfree hkind, htext, letters_switch hc]

lemma takesNext_of_takes {wanted : Setting} (h : p.takes? arg = some wanted) (rest : List Bytes) :
    takesNext (p.awaited? = some .output) (arg :: rest) = takesNext false rest := by
  obtain ⟨hwanted, htakes⟩ := Option.filter_eq_some_iff.1 h
  by_cases hout : wanted = .output
  · simp [hwanted, hout, takesNext]
  · have hword : Argument.ofBytes arg = .word := by
      simpa [Setting.takesAnything, hout] using htakes
    simp [hwanted, hout, takesNext, hword, Argument.asksOutput]

/-- Where a switch stands as such, it can be left out. -/
lemma readArguments_omit (harg : arg ∈ s.spellings)
    (hplace : takesNext (p.awaited? = some .output) front = false)
    (h : readArguments level p (front ++ arg :: back) = .ok (task, choices)) :
    ∃ fore aft, choices = fore ++ .switch s :: aft ∧
      readArguments level p (front ++ back) = .ok (task, fore ++ aft) := by
  induction front generalizing level p task choices with
  | nil =>
    have hfree : p.takes? arg = none := by
      refine Option.filter_eq_none_iff.2 fun wanted hwanted => ?_
      have hout : wanted ≠ .output := by
        rintro rfl
        exact absurd hwanted (of_decide_eq_false hplace)
      simp [Setting.takesAnything, hout, ofBytes_spelling harg]
    rw [List.nil_append, readArguments_spelling hfree harg] at h
    obtain ⟨q, hq, h⟩ := bind_eq_ok.1 h
    obtain ⟨settled, hsettled, hq⟩ := bind_eq_ok.1 hq
    rw [List.nil_append, readArguments_settled hsettled]
    split at hq
    · cases hq
    · cases hq
      have lacks : settled.Lacks s { settled with choices := settled.choices ++ [.switch s] } :=
        ⟨rfl, settled.choices, [], rfl, (List.append_nil _).symm⟩
      exact readArguments_lacks lacks h
  | cons first front ih =>
    rw [List.cons_append] at h ⊢
    cases htakes : p.takes? first with
    | some wanted =>
      rw [takesNext_of_takes htakes] at hplace
      rw [readArguments_value htakes] at h ⊢
      exact ih hplace h
    | none =>
      obtain ⟨hne, -⟩ := standing_of_free htakes front
      rw [decide_eq_false hne, takesNext] at hplace
      cases hkind : Argument.ofBytes first with
      | endMark =>
        rw [readArguments_mark htakes hkind] at h
        cases front <;> cases h
      | long name value =>
        rw [readArguments_long htakes hkind] at h ⊢
        obtain ⟨q, hq, h⟩ := bind_eq_ok.1 h
        rw [← awaits_of_long hq hkind] at hplace
        obtain ⟨fore, aft, hchoices, hread⟩ := ih hplace h
        exact ⟨fore, aft, hchoices, bind_eq_ok.2 ⟨q, hq, hread⟩⟩
      | letters bytes =>
        rw [readArguments_letters htakes hkind] at h ⊢
        obtain ⟨q, hq, h⟩ := bind_eq_ok.1 h
        rw [← awaits_of_letters hne hq hkind] at hplace
        obtain ⟨fore, aft, hchoices, hread⟩ := ih hplace h
        exact ⟨fore, aft, hchoices, bind_eq_ok.2 ⟨q, hq, hread⟩⟩
      | word =>
        rw [readArguments_word htakes hkind] at h ⊢
        rw [hkind] at hplace
        cases level with
        | task => cases h
        | program =>
          cases htask : taskNamed? first with
          | none =>
            rw [htask] at h
            cases h
          | some named =>
            rw [htask] at h
            obtain ⟨⟨task, inner⟩, hinner, h⟩ := bind_eq_ok.1 h
            obtain ⟨settled, hsettled, h⟩ := bind_eq_ok.1 h
            cases h
            obtain ⟨fore, aft, rfl, hread⟩ := ih (p := {}) hplace hinner
            refine ⟨settled.choices ++ fore, aft, by simp, bind_eq_ok.2 ⟨_, hread, ?_⟩⟩
            exact bind_eq_ok.2 ⟨settled, hsettled, by rw [List.append_assoc]⟩

end Reading

/-- A command line that is read, with a switch among the arguments that stand as such: without that
argument it is read too, as the same configuration but for the switch. -/
theorem read_omitting {s : Switch} {front back : List Bytes} {arg : Bytes} {config : Config}
    (harg : arg ∈ s.spellings) (hplace : takesNext false front = false)
    (h : read (front ++ arg :: back) = .ok config) :
    ∃ quiet, read (front ++ back) = .ok quiet ∧ config = Choice.apply quiet (.switch s) := by
  obtain ⟨⟨task, choices⟩, hread, h⟩ := bind_eq_ok.1 h
  cases h
  obtain ⟨fore, aft, rfl, hrest⟩ := readArguments_omit (p := {}) harg hplace hread
  refine ⟨configure task (fore ++ aft), bind_eq_ok.2 ⟨_, hrest, rfl⟩, ?_⟩
  rw [configure, configure, List.foldl_append, List.foldl_cons, List.foldl_append,
    foldl_apply_switch]

/-- Behind the letter of the output setting the first one is a value. -/
example : read (["-o", "-v", "run", "-v"].map Utf8.encode) =
    .ok { task := .run, output := "-v", verbose := true } := by
  rfl

end BootVolume.CommandLine
