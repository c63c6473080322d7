import Mathlib.Tactic.Lemma
import BootVolume.CommandLine.Reader

/-!
# Switches on the command line

The arguments that stand as such are all but those that the output setting takes as its value. A
switch that stands among them is among the choices that they make (`switch_mem_of_readArguments`),
so a dry run that is asked for is one (`dryRun_of_read`).
-/

namespace BootVolume.CommandLine

/-- Letters of switches with that of the output setting behind them. -/
def endsInOutput : List Char → Bool
  | [] => false
  | ['o'] => true
  | c :: cs => ['d', 'i', 'v'].contains c && endsInOutput cs

/-- Whether the next argument is the value of the output setting, whatever it looks like. -/
def Argument.asksOutput : Argument → Bool
  | long name value => Utf8.decode? name = some "output" && value.isNone
  | letters bytes => (textPrefix bytes).2 = [] && endsInOutput (textPrefix bytes).1
  | word | endMark => false

/-- The arguments without those that the output setting takes. `taken` tells whether it takes the
first one. -/
def standing : (taken : Bool) → List Bytes → List Bytes
  | _, [] => []
  | true, _ :: rest => standing false rest
  | false, arg :: rest => arg :: standing (Argument.ofBytes arg).asksOutput rest

lemma bind_eq_ok {ε α β : Type} {first : Except ε α} {second : α → Except ε β} {b : β} :
    first >>= second = .ok b ↔ ∃ a, first = .ok a ∧ second a = .ok b := by
  cases first with
  | error cause => exact ⟨nofun, nofun⟩
  | ok a => exact ⟨fun h => ⟨a, rfl, h⟩, fun ⟨_, ha, h⟩ => by cases ha; exact h⟩

namespace Progress

variable {p q : Progress} {level : Level}

lemma choose_spec {s : Setting} {value : Option Bytes} (h : p.choose s value = .ok q) :
    p.choices ⊆ q.choices ∧ q.pending = none := by
  cases value with
  | none => cases h
  | some value =>
    rw [choose] at h
    split at h
    · cases h
    · split at h
      · cases h
        exact ⟨List.subset_append_left _ _, rfl⟩
      · cases h

lemma settle_spec (h : p.settle = .ok q) : p.choices ⊆ q.choices ∧ q.pending = none := by
  rw [settle] at h
  split at h
  case h_1 hp =>
    cases h
    exact ⟨List.Subset.refl _, hp⟩
  case h_2 => exact choose_spec (p := { p with pending := none }) h

lemma turnOn_spec {s : Switch} (h : p.turnOn s = .ok q) :
    .switch s ∈ q.choices ∧ p.choices ⊆ q.choices ∧ q.pending = none := by
  obtain ⟨settled, hs, h⟩ := bind_eq_ok.1 h
  obtain ⟨grows, none_left⟩ := settle_spec hs
  split at h
  · cases h
  · cases h
    exact ⟨by simp, fun c hc => List.mem_append_left _ (grows hc), none_left⟩

lemma give_spec {s : Setting} {value : Bytes} (h : p.give s value = .ok q) :
    p.choices ⊆ q.choices ∧ q.pending = none := by
  obtain ⟨settled, hs, h⟩ := bind_eq_ok.1 h
  obtain ⟨grows, none_left⟩ := choose_spec h
  exact ⟨List.Subset.trans (settle_spec hs).1 grows, none_left⟩

lemma await_spec {s : Setting} (h : p.await s = .ok q) :
    p.choices ⊆ q.choices ∧ q.pending = some (s, none) := by
  obtain ⟨settled, hs, h⟩ := bind_eq_ok.1 h
  cases h
  exact ⟨(settle_spec hs).1, rfl⟩

lemma awaited?_eq_none (h : p.pending = none) : p.awaited? = none := by
  rw [awaited?, h]

lemma meet_spec {full : Bool} {opt : Opt} (h : p.meet level full opt = .ok q) :
    p.choices ⊆ q.choices ∧ (q.awaited? = some .output ↔ opt = .setting .output) := by
  cases opt with
  | switch s =>
    obtain ⟨-, grows, none_left⟩ := turnOn_spec h
    exact ⟨grows, by simp [awaited?_eq_none none_left]⟩
  | setting s =>
    obtain ⟨grows, left⟩ := await_spec h
    exact ⟨grows, by simp [awaited?, left]⟩
  | help | version =>
    obtain ⟨settled, -, h⟩ := bind_eq_ok.1 h
    cases h

lemma long_eq_turnOn (s : Switch) :
    p.long level (Utf8.encode s.long) none = p.turnOn s := by
  have named : (Utf8.decode? (Utf8.encode s.long)).bind level.ofLong? = some (.switch s) := by
    rw [Utf8.decode?_encode]
    cases level <;> cases s <;> rfl
  simp only [long, named]
  rfl

lemma ofLong?_eq_output (level : Level) {name : String} :
    level.ofLong? name = some (.setting .output) ↔ name = "output" := by
  constructor
  · intro h
    unfold Level.ofLong? at h
    have := List.find?_some h
    exact (of_decide_eq_true this).symm
  · rintro rfl
    cases level <;> rfl

lemma long_spec {name : Bytes} {value : Option Bytes} (h : p.long level name value = .ok q) :
    p.choices ⊆ q.choices ∧
      (q.awaited? = some .output ↔ (Argument.long name value).asksOutput = true) := by
  unfold long at h
  split at h
  case h_1 =>
    obtain ⟨grows, none_left⟩ := give_spec h
    exact ⟨grows, by simp [awaited?_eq_none none_left, Argument.asksOutput]⟩
  case h_2 => cases h
  case h_3 opt hopt =>
    obtain ⟨grows, asked⟩ := meet_spec h
    refine ⟨grows, asked.trans ?_⟩
    obtain ⟨text, htext, hopt⟩ := Option.bind_eq_some_iff.1 hopt
    rw [Argument.asksOutput, htext, Option.isNone_none, Bool.and_true, decide_eq_true_iff,
      Option.some.injEq, ← ofLong?_eq_output level, hopt, Option.some.injEq]
  case h_4 => cases h

lemma ofShort?_spec {c : Char} {opt : Opt} (h : level.ofShort? c = some opt) :
    opt.short? = some c := by
  unfold Level.ofShort? at h
  have := List.find?_some h
  exact of_decide_eq_true this

lemma encode_eq_nil {cs : List Char} : Utf8.encode (.ofList cs) = [] ↔ cs = [] := by
  refine ⟨fun h => ?_, by rintro rfl; rfl⟩
  have same : Utf8.encode (.ofList cs) = Utf8.encode (.ofList []) := h
  exact String.ofList_injective (Utf8.encode_injective same)

lemma endsInOutput_setting {s : Setting} {c : Char} {cs : List Char} (h : s.short? = some c) :
    endsInOutput (c :: cs) = true ↔ s = .output ∧ cs = [] := by
  cases s <;> cases h <;> cases cs <;> simp [endsInOutput]

lemma endsInOutput_switch {s : Switch} {c : Char} {cs : List Char} (h : s.short? = some c) :
    endsInOutput (c :: cs) = endsInOutput cs := by
  cases s <;> cases h <;> cases cs <;> simp [endsInOutput]

lemma letters_spec {rest : Bytes} {cs : List Char} (hp : p.awaited? ≠ some .output)
    (h : p.letters level rest cs = .ok q) :
    p.choices ⊆ q.choices ∧
      (q.awaited? = some .output ↔ rest = [] ∧ endsInOutput cs = true) := by
  induction cs generalizing p with
  | nil =>
    unfold letters at h
    split at h
    · cases h
      exact ⟨List.Subset.refl _, by simp [hp, endsInOutput]⟩
    · cases h
  | cons c cs ih =>
    unfold letters at h
    split at h
    case h_1 => cases h
    case h_2 s hs =>
      rw [endsInOutput_setting (ofShort?_spec hs)]
      have given {value : Bytes} (hne : Utf8.encode (.ofList cs) ++ rest ≠ [])
          (h : p.give s value = .ok q) :
          p.choices ⊆ q.choices ∧
            (q.awaited? = some .output ↔ rest = [] ∧ s = .output ∧ cs = []) := by
        obtain ⟨grows, none_left⟩ := give_spec h
        refine ⟨grows, by simp [awaited?_eq_none none_left], ?_⟩
        rintro ⟨rfl, -, rfl⟩
        exact absurd rfl hne
      split at h
      case h_1 heq => exact given (by simp [heq]) h
      case h_2 heq =>
        obtain ⟨grows, left⟩ := await_spec h
        rw [List.append_eq_nil_iff, encode_eq_nil] at heq
        exact ⟨grows, by simp [awaited?, left, heq]⟩
      case h_3 hne => exact given hne h
    case h_3 opt notSetting hopt =>
      obtain ⟨met, hmet, h⟩ := bind_eq_ok.1 h
      obtain ⟨grows, asked⟩ := meet_spec hmet
      obtain ⟨more, result⟩ := ih (mt asked.1 fun heq => notSetting _ heq) h
      refine ⟨List.Subset.trans grows more, result.trans ?_⟩
      cases opt with
      | switch s => rw [endsInOutput_switch (ofShort?_spec hopt)]
      | setting s => exact absurd rfl (notSetting s)
      | help | version =>
        obtain ⟨settled, -, hmet⟩ := bind_eq_ok.1 hmet
        cases hmet

end Progress

/-- What the next argument is the value of, if it is one. -/
def Progress.takes? (p : Progress) (arg : Bytes) : Option Setting :=
  p.awaited?.filter fun wanted => wanted.takesAnything || Argument.ofBytes arg = .word

section Steps

variable {level : Level} {p : Progress} {arg : Bytes} {rest : List Bytes}

/-! ## One argument -/

lemma readArguments_value {wanted : Setting} (h : p.takes? arg = some wanted) :
    readArguments level p (arg :: rest) =
      readArguments level { p with pending := some (wanted, some arg) } rest := by
  rw [readArguments.eq_def]
  dsimp only
  rw [show p.awaited?.filter _ = some wanted from h]

/-- Only the output setting takes a value away that could be an option. -/
lemma standing_of_takes {wanted : Setting} (h : p.takes? arg = some wanted) (rest : List Bytes) :
    standing (p.awaited? = some .output) (arg :: rest) = standing false rest ∨
      Argument.ofBytes arg = .word ∧
        standing (p.awaited? = some .output) (arg :: rest) = arg :: standing false rest := by
  obtain ⟨hwanted, htakes⟩ := Option.filter_eq_some_iff.1 h
  by_cases hout : wanted = .output
  · left
    simp [hwanted, hout, standing]
  · right
    have hword : Argument.ofBytes arg = .word := by
      simpa [Setting.takesAnything, hout] using htakes
    refine ⟨hword, ?_⟩
    simp [hwanted, hout, standing, hword, Argument.asksOutput]

section Free

variable (h : p.takes? arg = none)
include h

/-- An argument that is not the value of a setting stands as such. -/
lemma standing_of_free (rest : List Bytes) :
    p.awaited? ≠ some .output ∧ standing (p.awaited? = some .output) (arg :: rest) =
      arg :: standing (Argument.ofBytes arg).asksOutput rest := by
  have hne : p.awaited? ≠ some .output := by
    intro heq
    simp [Progress.takes?, heq, Setting.takesAnything] at h
  rw [decide_eq_false hne]
  exact ⟨hne, rfl⟩

lemma readArguments_mark (hkind : Argument.ofBytes arg = .endMark) (level : Level)
    (rest : List Bytes) :
    readArguments level p (arg :: rest) =
      match rest with
      | [] => p.settle >>= fun p => .ok (level.request, p.choices)
      | word :: _ => .error (strayAtEnd level word) := by
  rw [readArguments.eq_def]
  dsimp only
  rw [show p.awaited?.filter _ = none from h, hkind]
  cases rest <;> rfl

lemma readArguments_long {name : Bytes} {value : Option Bytes}
    (hkind : Argument.ofBytes arg = .long name value) :
    readArguments level p (arg :: rest) =
      p.long level name value >>= fun p => readArguments level p rest := by
  rw [readArguments.eq_def]
  dsimp only
  rw [show p.awaited?.filter _ = none from h, hkind]

lemma readArguments_letters {bytes : Bytes} (hkind : Argument.ofBytes arg = .letters bytes) :
    readArguments level p (arg :: rest) =
      p.letters level (textPrefix bytes).2 (textPrefix bytes).1 >>= fun p =>
        readArguments level p rest := by
  rw [readArguments.eq_def]
  dsimp only
  rw [show p.awaited?.filter _ = none from h, hkind]

lemma readArguments_word (hkind : Argument.ofBytes arg = .word) (level : Level)
    (rest : List Bytes) :
    readArguments level p (arg :: rest) =
      match level, taskNamed? arg with
      | .program, some task =>
        readArguments (.task task) {} rest >>= fun read =>
          p.settle >>= fun p => .ok (read.1, p.choices ++ read.2)
      | .program, none =>
        .error (if isHelpWord arg then helpTopic rest else stray level arg)
      | .task _, _ => .error (stray level arg) := by
  rw [readArguments.eq_def]
  dsimp only
  rw [show p.awaited?.filter _ = none from h, hkind]
  cases level with
  | program => cases taskNamed? arg <;> rfl
  | task => rfl

end Free

lemma awaits_of_long {q : Progress} {name : Bytes} {value : Option Bytes}
    (h : p.long level name value = .ok q) (hkind : Argument.ofBytes arg = .long name value) :
    decide (q.awaited? = some .output) = (Argument.ofBytes arg).asksOutput := by
  rw [Bool.eq_iff_iff, decide_eq_true_iff, hkind]
  exact (Progress.long_spec h).2

lemma awaits_of_letters {q : Progress} {bytes : Bytes} (hp : p.awaited? ≠ some .output)
    (h : p.letters level (textPrefix bytes).2 (textPrefix bytes).1 = .ok q)
    (hkind : Argument.ofBytes arg = .letters bytes) :
    decide (q.awaited? = some .output) = (Argument.ofBytes arg).asksOutput := by
  rw [Bool.eq_iff_iff, decide_eq_true_iff, hkind, Argument.asksOutput, Bool.and_eq_true,
    decide_eq_true_iff]
  exact (Progress.letters_spec hp h).2

end Steps

/-! ## All arguments -/

section Reading

variable {level : Level} {p : Progress} {task : Task} {choices : List Choice} {s : Switch}

lemma ofBytes_switch (s : Switch) :
    Argument.ofBytes (Utf8.encode ("--" ++ s.long)) = .long (Utf8.encode s.long) none := by
  cases s <;> decide

/-- Arguments that are no options are no switches. -/
lemma ne_switch {arg : Bytes} (h : ∀ name value, Argument.ofBytes arg ≠ .long name value) :
    Utf8.encode ("--" ++ s.long) ≠ arg := by
  rintro rfl
  exact h _ _ (ofBytes_switch s)

/-- A switch that is on already, or stands among the arguments to come, is on in the end. -/
lemma switch_mem_of_readArguments {args : List Bytes}
    (h : readArguments level p args = .ok (task, choices))
    (hs : .switch s ∈ p.choices ∨
      Utf8.encode ("--" ++ s.long) ∈ standing (p.awaited? = some .output) args) :
    .switch s ∈ choices := by
  induction args generalizing level p task choices with
  | nil =>
    obtain ⟨settled, hsettled, h⟩ := bind_eq_ok.1 h
    cases h
    have hs : .switch s ∈ p.choices := by simpa [standing] using hs
    exact (Progress.settle_spec hsettled).1 hs
  | cons arg rest ih =>
    cases htakes : p.takes? arg with
    | some wanted =>
      rw [readArguments_value htakes] at h
      refine ih h (hs.imp_right fun hs => ?_)
      change _ ∈ standing false rest
      rcases standing_of_takes htakes rest with heq | ⟨hword, heq⟩
      · rwa [heq] at hs
      · rw [heq] at hs
        exact (List.mem_cons.1 hs).resolve_left (ne_switch (by simp [hword]))
    | none =>
      obtain ⟨hne, hstanding⟩ := standing_of_free htakes rest
      rw [hstanding] at hs
      cases hkind : Argument.ofBytes arg with
      | endMark =>
        rw [readArguments_mark htakes hkind] at h
        cases rest with
        | nil =>
          obtain ⟨settled, hsettled, h⟩ := bind_eq_ok.1 h
          cases h
          refine (Progress.settle_spec hsettled).1 (hs.resolve_right ?_)
          simpa [standing] using ne_switch (by simp [hkind])
        | cons => cases h
      | long name value =>
        rw [readArguments_long htakes hkind] at h
        obtain ⟨q, hq, h⟩ := bind_eq_ok.1 h
        refine ih h ?_
        rw [awaits_of_long hq hkind]
        rcases hs with hs | hs
        · exact .inl ((Progress.long_spec hq).1 hs)
        rcases List.mem_cons.1 hs with rfl | hs
        · rw [ofBytes_switch, Argument.long.injEq] at hkind
          obtain ⟨rfl, rfl⟩ := hkind
          rw [Progress.long_eq_turnOn] at hq
          exact .inl (Progress.turnOn_spec hq).1
        · exact .inr hs
      | letters bytes =>
        rw [readArguments_letters htakes hkind] at h
        obtain ⟨q, hq, h⟩ := bind_eq_ok.1 h
        refine ih h ?_
        rw [awaits_of_letters hne hq hkind]
        rcases hs with hs | hs
        · exact .inl ((Progress.letters_spec hne hq).1 hs)
        · exact .inr ((List.mem_cons.1 hs).resolve_left (ne_switch (by simp [hkind])))
      | word =>
        rw [readArguments_word htakes hkind] at h
        split at h
        · obtain ⟨⟨task, inner⟩, hinner, h⟩ := bind_eq_ok.1 h
          obtain ⟨settled, hsettled, h⟩ := bind_eq_ok.1 h
          cases h
          rcases hs with hs | hs
          · exact List.mem_append_left _ ((Progress.settle_spec hsettled).1 hs)
          · refine List.mem_append_right _ (ih hinner (.inr ?_))
            rw [hkind] at hs
            exact (List.mem_cons.1 hs).resolve_left (ne_switch (by simp [hkind]))
        · cases h
        · cases h

/-- Whether a switch is on. -/
def Switch.isOn (config : Config) : Switch → Bool
  | debug => config.debug
  | intdbg => config.intdbg
  | verbose => config.verbose
  | dryRun => config.dryRun

lemma isOn_foldl_apply (choices : List Choice) (config : Config) :
    s.isOn (choices.foldl Choice.apply config) =
      (s.isOn config || choices.contains (.switch s)) := by
  induction choices generalizing config with
  | nil => simp
  | cons choice rest ih =>
    rw [List.foldl_cons, ih, List.contains_cons, ← Bool.or_assoc]
    congr 1
    rcases choice with ⟨_ | _⟩ | _ <;> cases s <;> simp [Choice.apply, Switch.isOn]

/-- Whoever asks for a dry run gets one. -/
theorem dryRun_of_read {args : List Bytes} {config : Config} (h : read args = .ok config)
    (hdry : Utf8.encode "--dry-run" ∈ standing false args) : config.dryRun = true := by
  obtain ⟨⟨task, choices⟩, hread, h⟩ := bind_eq_ok.1 h
  cases h
  have hmem : .switch .dryRun ∈ choices := switch_mem_of_readArguments hread (.inr hdry)
  change Switch.dryRun.isOn (configure task choices) = true
  rw [configure, isOn_foldl_apply, List.contains_iff_mem.2 hmem, Bool.or_true]

end Reading

end BootVolume.CommandLine
