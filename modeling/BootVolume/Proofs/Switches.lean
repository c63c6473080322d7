import BootVolume.Proofs.Arrangement

/-!
# Switches that nobody asks for

A switch is on only if an argument asks for it, by its long name or by a letter. As long as none
does, asking for it in front of all arguments changes nothing in how they are read, but that the
switch is on (`read_switch`).
-/

namespace BootVolume.CommandLine

/-- The letters of switches at the front; what follows is a value, or not read. -/
def switchLetters (cs : List Char) : List Char := cs.takeWhile (['d', 'i', 'v'].contains ·)

/-- Whether an argument that stands as such asks for a switch. -/
def Argument.asks (s : Switch) : Argument → Bool
  | long name value => Utf8.decode? name = some s.long && value.isNone
  | letters bytes => s.short?.any ((switchLetters (textPrefix bytes).1).contains ·)
  | word | endMark => false

/-- Whether any argument asks for a switch. -/
def Asks (s : Switch) (args : List Bytes) : Prop :=
  ∃ arg ∈ standing false args, (Argument.ofBytes arg).asks s = true

/-- The same progress with a switch that was met first of all. -/
def Progress.having (s : Switch) (p : Progress) : Progress :=
  { p with choices := .switch s :: p.choices }

/-- A step of reading neither turns a switch on nor depends on it. -/
structure Ignores (s : Switch) (step : Progress → Except Stop Progress) : Prop where
  commutes (p : Progress) : step (p.having s) = (step p).map (·.having s)
  adds {p q : Progress} : step p = .ok q → .switch s ∈ q.choices → .switch s ∈ p.choices

namespace Ignores

variable {s : Switch} {level : Level} {full : Bool} {first second : Progress → Except Stop Progress}

lemma ok : Ignores s .ok := ⟨fun _ => rfl, by rintro p _ ⟨⟩ h; exact h⟩

lemma stop (stop : Stop) : Ignores s fun _ => .error stop := ⟨fun _ => rfl, nofun⟩

lemma bind (hfirst : Ignores s first) (hsecond : Ignores s second) :
    Ignores s fun p => first p >>= second := by
  refine ⟨fun p => ?_, fun {p q} h hs => ?_⟩
  · rw [hfirst.commutes]
    cases first p with
    | error stop => rfl
    | ok q => exact hsecond.commutes q
  · obtain ⟨between, hbetween, hq⟩ := bind_eq_ok.1 h
    exact hfirst.adds hbetween (hsecond.adds hq hs)

/-- What is read for a setting is no switch. -/
lemma read_ne_switch {setting : Setting} {value : Bytes} {choice : Choice}
    (h : setting.read value = .ok choice) : choice ≠ .switch s := by
  have mapped {α : Type} {read : Except Complaint α} {make : α → Choice}
      (hmake : ∀ a, make a ≠ .switch s) (h : read.map make = .ok choice) : choice ≠ .switch s := by
    cases read with
    | error complaint => cases h
    | ok a => exact Except.ok.inj h ▸ hmake a
  cases setting <;> exact mapped nofun h

lemma has_having (p : Progress) {opt : Opt} (h : opt ≠ .switch s) :
    (p.having s).has opt = p.has opt := by
  simp [Progress.has, Progress.having, Choice.opt, h.symm]

lemma choose (setting : Setting) (value : Option Bytes) :
    Ignores s (·.choose setting value) := by
  cases value with
  | none => exact stop _
  | some value =>
    refine ⟨fun p => ?_, fun {p q} h hs => ?_⟩
    · rw [Progress.choose, Progress.choose, has_having p (by simp)]
      split
      · rfl
      · cases setting.read value <;> rfl
    · rw [Progress.choose] at h
      split at h
      · cases h
      · split at h
        · rename_i choice hread
          cases h
          rcases List.mem_append.1 hs with hs | hs
          · exact hs
          · exact absurd (List.mem_singleton.1 hs).symm (read_ne_switch hread)
        · cases h

lemma settle : Ignores s (·.settle) := by
  have cleared (p : Progress) (h : p.pending = none) : p.settle = .ok p := by
    rw [Progress.settle, h]
  have chosen (p : Progress) {setting : Setting} {value : Option Bytes}
      (h : p.pending = some (setting, value)) :
      p.settle = ({ p with pending := none } : Progress).choose setting value := by
    rw [Progress.settle, h]
  refine ⟨fun p => ?_, fun {p q} h hs => ?_⟩
  · cases hp : p.pending with
    | none => rw [cleared p hp, cleared (p.having s) hp]; rfl
    | some awaited =>
      rw [chosen p hp, chosen (p.having s) hp]
      exact (choose awaited.1 awaited.2).commutes { p with pending := none }
  · cases hp : p.pending with
    | none =>
      rw [cleared p hp] at h
      exact Except.ok.inj h ▸ hs
    | some awaited =>
      rw [chosen p hp] at h
      exact (choose awaited.1 awaited.2).adds (p := { p with pending := none }) h hs

lemma give (setting : Setting) (value : Bytes) : Ignores s (·.give setting value) :=
  bind settle (choose setting (some value))

lemma await (setting : Setting) : Ignores s (·.await setting) :=
  bind settle ⟨fun _ => rfl, by rintro p _ ⟨⟩ h; exact h⟩

lemma turnOn {other : Switch} (h : other ≠ s) : Ignores s (·.turnOn other) := by
  refine bind settle ⟨fun p => ?_, fun {p q} hok hs => ?_⟩
  · rw [has_having p (by simpa using h)]
    split <;> rfl
  · split at hok
    · cases hok
    · cases hok
      simpa [h.symm] using hs

lemma meet {opt : Opt} (h : opt ≠ .switch s) : Ignores s (·.meet level full opt) := by
  cases opt with
  | switch other => exact turnOn (by simpa using h)
  | setting setting => exact await setting
  | help => exact bind settle (stop _)
  | version => exact bind settle (stop _)

lemma long {name : Bytes} {value : Option Bytes}
    (h : (Argument.long name value).asks s = false) : Ignores s (·.long level name value) := by
  unfold Progress.long
  cases hopt : (Utf8.decode? name).bind level.ofLong? with
  | none => exact stop _
  | some opt =>
    cases value with
    | some value =>
      cases opt with
      | setting setting => exact give setting value
      | switch | help | version => exact stop _
    | none =>
      have hne : opt ≠ .switch s := by
        rintro rfl
        obtain ⟨text, htext, hnamed⟩ := Option.bind_eq_some_iff.1 hopt
        have hname : text = s.long := (of_decide_eq_true (List.find?_some hnamed :)).symm
        simp [Argument.asks, htext, hname] at h
      cases opt <;> exact meet hne

/-- Letters up to one that is not a switch. -/
lemma letters {rest : Bytes} {cs : List Char}
    (h : s.short?.any ((switchLetters cs).contains ·) = false) :
    Ignores s (·.letters level rest cs) := by
  induction cs with
  | nil =>
    unfold Progress.letters
    by_cases hrest : rest = []
    · simpa only [if_pos hrest] using ok
    · simp only [if_neg hrest]
      exact stop _
  | cons c cs ih =>
    unfold Progress.letters
    cases hopt : level.ofShort? c with
    | none => exact stop _
    | some opt =>
      cases opt with
      | setting setting =>
        dsimp only
        split
        · exact give _ _
        · exact await _
        · exact give _ _
      | switch other =>
        have hshort := Progress.ofShort?_spec hopt
        have hletters : switchLetters (c :: cs) = c :: switchLetters cs := by
          refine List.takeWhile_cons_of_pos ?_
          cases other <;> cases hshort <;> rfl
        rw [hletters] at h
        have hne : other ≠ s := by
          rintro rfl
          rw [show other.short? = some c from hshort] at h
          simp at h
        refine bind (meet (by simpa using hne)) (ih ?_)
        cases hs : s.short? with
        | none => rfl
        | some letter =>
          rw [hs, Option.any_some, List.contains_cons, Bool.or_eq_false_iff] at h
          exact h.2
      | help | version =>
        simp only [Progress.meet, bind_assoc]
        exact bind settle (stop _)

end Ignores

section Reading

variable {s : Switch} {level : Level} {p : Progress} {args : List Bytes}

/-- What is read, with a switch in front of the choices. -/
def withSwitch (s : Switch) (result : Task × List Choice) : Task × List Choice :=
  (result.1, .switch s :: result.2)

/-- Reading on neither turns a switch on nor depends on it. -/
structure Unasked (s : Switch) (p : Progress)
    (reading : Progress → Except Stop (Task × List Choice)) : Prop where
  commutes : reading (p.having s) = (reading p).map (withSwitch s)
  adds {result : Task × List Choice} : reading p = .ok result →
    .switch s ∈ result.2 → .switch s ∈ p.choices

namespace Unasked

variable {reading reading' : Progress → Except Stop (Task × List Choice)}

lemma stop (stop : Stop) : Unasked s p fun _ => .error stop := ⟨rfl, nofun⟩

lemma congr (h : Unasked s p reading') (heq : reading p = reading' p)
    (heq' : reading (p.having s) = reading' (p.having s)) : Unasked s p reading := by
  refine ⟨?_, fun {result} hread => h.adds (heq ▸ hread)⟩
  rw [heq, heq', h.commutes]

lemma after {step : Progress → Except Stop Progress} (hstep : Ignores s step)
    (hreading : ∀ q, step p = .ok q → Unasked s q reading) :
    Unasked s p fun p => step p >>= reading := by
  refine ⟨?_, fun {result} hread hs => ?_⟩
  · rw [hstep.commutes]
    cases hq : step p with
    | error stop => rfl
    | ok q => exact (hreading q hq).commutes
  · obtain ⟨q, hq, hread⟩ := bind_eq_ok.1 hread
    exact hstep.adds hq ((hreading q hq).adds hread hs)

/-- At the end, after choices of an inner level that are not the switch. -/
lemma settled (task : Task) {inner : List Choice} (hinner : .switch s ∉ inner) :
    Unasked s p fun p => p.settle >>= fun p => .ok (task, p.choices ++ inner) := by
  refine after Ignores.settle fun q _ => ⟨rfl, ?_⟩
  rintro _ ⟨⟩ hs
  exact (List.mem_append.1 hs).resolve_right hinner

end Unasked

lemma unasked_readArguments
    (h : ∀ arg ∈ standing (p.awaited? = some .output) args,
      (Argument.ofBytes arg).asks s = false) :
    Unasked s p fun p => readArguments level p args := by
  have finish (level : Level) (p : Progress) :
      Unasked s p fun p => p.settle >>= fun p => .ok (level.request, p.choices) := by
    simpa only [List.append_nil] using Unasked.settled level.request List.not_mem_nil
  induction args generalizing level p with
  | nil => exact finish level p
  | cons arg rest ih =>
    cases htakes : p.takes? arg with
    | some wanted =>
      let awaiting : Progress := { p with pending := some (wanted, some arg) }
      have hrest : Unasked s awaiting fun p => readArguments level p rest := by
        refine ih fun other hother => h other ?_
        rcases standing_of_takes htakes rest with heq | ⟨-, heq⟩ <;> rw [heq]
        · exact hother
        · exact List.mem_cons_of_mem _ hother
      refine ⟨?_, fun {result} hread => ?_⟩
      · rw [readArguments_value htakes, readArguments_value (p := p.having s) htakes]
        exact hrest.commutes
      · rw [readArguments_value htakes] at hread
        exact hrest.adds hread
    | none =>
      obtain ⟨hne, hstanding⟩ := standing_of_free htakes rest
      rw [hstanding, List.forall_mem_cons] at h
      obtain ⟨hasks, h⟩ := h
      have hhaving : (p.having s).takes? arg = none := htakes
      cases hkind : Argument.ofBytes arg with
      | endMark =>
        have heq := readArguments_mark htakes hkind level rest
        have heq' := readArguments_mark hhaving hkind level rest
        cases rest with
        | nil => exact .congr (finish level p) heq heq'
        | cons => exact .congr (.stop _) heq heq'
      | long name value =>
        refine .congr (.after (.long (hkind ▸ hasks)) fun q hq => ih ?_)
          (readArguments_long htakes hkind) (readArguments_long hhaving hkind)
        rw [awaits_of_long hq hkind]
        exact h
      | letters bytes =>
        rw [hkind, Argument.asks] at hasks
        refine .congr (.after (.letters hasks) fun q hq => ih ?_)
          (readArguments_letters htakes hkind) (readArguments_letters hhaving hkind)
        rw [awaits_of_letters hne hq hkind]
        exact h
      | word =>
        have heq := readArguments_word htakes hkind level rest
        have heq' := readArguments_word hhaving hkind level rest
        rw [hkind] at h
        cases level with
        | task => exact .congr (.stop _) heq heq'
        | program =>
          cases htask : taskNamed? arg with
          | none =>
            rw [htask] at heq heq'
            exact .congr (.stop _) heq heq'
          | some task =>
            rw [htask] at heq heq'
            dsimp only at heq heq'
            cases hinner : readArguments (.task task) {} rest with
            | error stop =>
              rw [hinner] at heq heq'
              exact .congr (.stop stop) heq heq'
            | ok read =>
              rw [hinner] at heq heq'
              have hnot : .switch s ∉ read.2 := fun hs => nomatch (ih (p := {}) h).adds hinner hs
              exact .congr (.settled read.1 hnot) heq heq'

end Reading

variable {s : Switch} {args : List Bytes} {config : Config}

lemma foldl_apply_switch (s : Switch) (choices : List Choice) (config : Config) :
    choices.foldl Choice.apply (Choice.apply config (.switch s)) =
      Choice.apply (choices.foldl Choice.apply config) (.switch s) := by
  induction choices generalizing config with
  | nil => rfl
  | cons choice rest ih =>
    have hcomm : Choice.apply (Choice.apply config (.switch s)) choice =
        Choice.apply (Choice.apply config choice) (.switch s) := by
      by_cases hopt : choice.opt = .switch s
      · cases choice <;> cases hopt
        rfl
      · exact apply_comm (Ne.symm hopt) config
    rw [List.foldl_cons, List.foldl_cons, hcomm, ih]

lemma unasked_of_not_asks (h : ¬Asks s args) (level : Level) :
    Unasked s {} fun p => readArguments level p args := by
  refine unasked_readArguments fun arg harg => ?_
  rw [← Bool.not_eq_true]
  exact fun hasks => h ⟨arg, harg, hasks⟩

/-- A switch that is asked for in front of arguments that do not: whatever is wrong with these still
is, and otherwise the configuration is the same but for the switch. -/
theorem read_switch (h : ¬Asks s args) :
    read (Utf8.encode ("--" ++ s.long) :: args) =
      (read args).map fun config => Choice.apply config (.switch s) := by
  have hfirst : ({} : Progress).long .program (Utf8.encode s.long) none = .ok (.having s {}) :=
    long_choice (c := .switch s) (by simp) (comesTo_choices []) trivial
  rw [read, read, readArguments_long (p := {}) rfl (ofBytes_switch s), hfirst]
  change (readArguments .program (.having s {}) args >>= fun r => .ok (configure r.1 r.2)) = _
  rw [(unasked_of_not_asks h .program).commutes]
  cases readArguments .program {} args with
  | error stop => rfl
  | ok r => exact congrArg Except.ok (foldl_apply_switch s r.2 { task := r.1 })

lemma isOn_of_not_asks (h : ¬Asks s args) (hread : read args = .ok config) :
    s.isOn config = false := by
  obtain ⟨⟨task, choices⟩, hchoices, hread⟩ := bind_eq_ok.1 hread
  cases hread
  have hnot : .switch s ∉ choices := fun hs => nomatch (unasked_of_not_asks h _).adds hchoices hs
  have hstart : s.isOn { task } = false := by cases s <;> rfl
  rw [configure, isOn_foldl_apply, hstart, Bool.false_or, ← Bool.not_eq_true,
    List.contains_iff_mem]
  exact hnot

end BootVolume.CommandLine
