import Mathlib.Data.List.Nodup
import Mathlib.Data.List.Perm.Basic
import Mathlib.Tactic.Lemma
import BootVolume.Proofs.CommandLine

/-!
# Arrangements of the command line

A configuration can be written on the command line in many ways: its options stand in any order, in
front of the task or behind it, and whatever is as the defaults have it may be left out. All of
these are read as the configuration that was written (`read_arrangement`).

Reading takes one writing after the other and collects the choices that they make
(`readArguments_writings`). Choices of different options can be made in any order
(`apply_comm`), so that only what is chosen matters (`configure_arrangement`).
-/

namespace BootVolume

/-- Everything that a configuration settles besides its task: the switches that are on, and every
setting. -/
def Config.settled (config : Config) : List CommandLine.Choice :=
  (if config.debug then [.switch .debug] else []) ++
    (if config.intdbg then [.switch .intdbg] else []) ++
    (if config.verbose then [.switch .verbose] else []) ++
    (if config.dryRun then [.switch .dryRun] else []) ++
    [.memory config.memory, .output config.output, .profile config.profile, .bios config.bios,
      .boot config.boot, .debugListen config.debugListen, .manifestScan config.manifestScan]

namespace CommandLine

/-- The value that a choice is written with; a switch has none. -/
def Choice.value? : Choice → Option Bytes
  | switch _ => none
  | memory text | output text | debugListen text => some (Utf8.encode text)
  | profile p => some (Utf8.encode p.name)
  | bios path | boot path => some path.bytes
  | manifestScan scan => some (Utf8.encode scan.name)

/-- A choice as it is written: in one argument, or the output as a letter with its value in an
argument of its own. -/
inductive Writing where
  | long (choice : Choice)
  | letter (output : String)

namespace Writing

def choice : Writing → Choice
  | long choice => choice
  | letter output => .output output

def arguments : Writing → List Bytes
  | long choice =>
    [Utf8.encode ("--" ++ choice.opt.long) ++ choice.value?.elim [] (equalsSign :: ·)]
  | letter output => [Utf8.encode "-o", Utf8.encode output]

end Writing

/-- The writings make choices of the configuration, each at most once and no others; only what the
defaults settle too may be left out. -/
structure Arrangement (config : Config) (writings : List Writing) : Prop where
  nodup : (writings.map (·.choice)).Nodup
  settled : ∀ writing ∈ writings, writing.choice ∈ config.settled
  complete : ∀ choice ∈ config.settled,
    choice ∈ writings.map (·.choice) ∨ choice ∈ Config.settled {}

/-! ## Reading what is written -/

section Reading

variable {level : Level} {p q : Progress} {choices : List Choice} {c : Choice}

/-- A path has to be more than an empty text. -/
def Choice.Legible : Choice → Prop
  | bios path | boot path => path.bytes ≠ []
  | _ => True

lemma read_value {s : Setting} {value : Bytes} (hc : c.Legible) (hopt : c.opt = .setting s)
    (hvalue : c.value? = some value) : s.read value = .ok c := by
  cases c with
  | switch => cases hopt
  | memory text | output text | debugListen text =>
    cases hopt
    cases hvalue
    simp only [Setting.read, readText, Utf8.decode?_encode, Except.map]
  | bios path | boot path =>
    cases hopt
    cases hvalue
    simp only [Setting.read, readPath, if_neg (show path.bytes ≠ [] from hc), Except.map]
  | profile p =>
    cases hopt
    cases hvalue
    cases p <;> decide
  | manifestScan scan =>
    cases hopt
    cases hvalue
    cases scan <;> decide

lemma ofLong?_opt (level : Level) (c : Choice) : level.ofLong? c.opt.long = some c.opt := by
  cases level <;> rcases c with ⟨_ | _⟩ | _ <;> rfl

/-- The value begins behind the first equals sign, whatever it holds. -/
lemma ofBytes_given {name : Bytes} (value : Bytes) (hne : name ≠ []) (hname : equalsSign ∉ name) :
    Argument.ofBytes (0x2D :: 0x2D :: (name ++ equalsSign :: value)) = .long name (some value) := by
  obtain ⟨first, others, rfl⟩ := List.exists_cons_of_ne_nil hne
  have hsplit : (first :: others ++ equalsSign :: value).takeWhile (· ≠ equalsSign) =
      first :: others := by
    rw [List.takeWhile_append_of_pos, List.takeWhile_cons_of_neg (by simp), List.append_nil]
    intro b hb
    exact decide_eq_true fun heq => hname (heq ▸ hb)
  rw [List.cons_append] at hsplit ⊢
  rw [Argument.ofBytes]
  · rw [hsplit, ← List.cons_append, List.drop_left]
    rfl
  · simp

lemma ofBytes_long (c : Choice) :
    Argument.ofBytes (Utf8.encode ("--" ++ c.opt.long) ++ c.value?.elim [] (equalsSign :: ·)) =
      .long (Utf8.encode c.opt.long) c.value? := by
  have given {s : Setting} (hopt : c.opt = .setting s) (value : Bytes) :
      Argument.ofBytes (Utf8.encode ("--" ++ c.opt.long) ++ equalsSign :: value) =
        .long (Utf8.encode c.opt.long) (some value) := by
    have hdashes : Utf8.encode ("--" ++ c.opt.long) = 0x2D :: 0x2D :: Utf8.encode c.opt.long := by
      rw [hopt]
      cases s <;> decide
    rw [hdashes]
    refine ofBytes_given value ?_ ?_ <;> rw [hopt] <;> cases s <;> decide
  cases c with
  | switch s => cases s <;> decide
  | memory | output | profile | bios | boot | debugListen | manifestScan => exact given rfl _

/-- What is read so far comes to these choices, and no setting waits for its value. -/
structure Progress.ComesTo (p : Progress) (choices : List Choice) : Prop where
  settles : p.settle = .ok { choices }
  awaits : p.awaited? = none

lemma comesTo_choices (choices : List Choice) : ({ choices } : Progress).ComesTo choices :=
  ⟨rfl, rfl⟩

lemma Progress.ComesTo.takes (hp : p.ComesTo choices) (arg : Bytes) : p.takes? arg = none := by
  rw [Progress.takes?, hp.awaits, Option.filter_none]

section Choosing

variable (hnew : ∀ d ∈ choices, d.opt ≠ c.opt)
include hnew

lemma has_eq_false : ({ choices } : Progress).has c.opt = false := by
  rw [Progress.has, List.any_eq_false]
  intro d hd
  simpa using hnew d hd

lemma choose_value {s : Setting} {value : Bytes} {pending : Option (Setting × Option Bytes)}
    (hc : c.Legible) (hopt : c.opt = .setting s) (hvalue : c.value? = some value) :
    ({ choices, pending } : Progress).choose s (some value) =
      .ok { choices := choices ++ [c] } := by
  have hfree : ({ choices, pending } : Progress).has (.setting s) = false := by
    rw [← hopt]
    exact has_eq_false hnew
  rw [Progress.choose, hfree, if_neg Bool.false_ne_true, read_value hc hopt hvalue]

lemma long_choice (hp : p.ComesTo choices) (hc : c.Legible) :
    p.long level (Utf8.encode c.opt.long) c.value? = .ok { choices := choices ++ [c] } := by
  have named : (Utf8.decode? (Utf8.encode c.opt.long)).bind level.ofLong? = some c.opt := by
    rw [Utf8.decode?_encode, Option.bind_some, ofLong?_opt]
  have given {s : Setting} {value : Bytes} (hopt : c.opt = .setting s)
      (hvalue : c.value? = some value) :
      p.long level (Utf8.encode c.opt.long) c.value? = .ok { choices := choices ++ [c] } := by
    unfold Progress.long
    rw [named, hopt, hvalue]
    dsimp only
    rw [Progress.give, hp.settles]
    exact choose_value hnew hc hopt hvalue
  cases c with
  | switch s =>
    have hfree : ({ choices } : Progress).has (.switch s) = false := has_eq_false hnew
    unfold Progress.long
    rw [named]
    change p.turnOn s = _
    rw [Progress.turnOn, hp.settles]
    change (if ({ choices } : Progress).has (.switch s) then _ else _) = _
    rw [hfree]
    rfl
  | memory | output | profile | bios | boot | debugListen | manifestScan => exact given rfl rfl

end Choosing

lemma ofBytes_letter : Argument.ofBytes (Utf8.encode "-o") = .letters [0x6F] := by decide

/-- The letter of the output waits for the argument behind it. -/
lemma letters_output (hp : p.ComesTo choices) :
    p.letters level [] ['o'] = .ok { choices, pending := some (.output, none) } := by
  have hshort : level.ofShort? 'o' = some (.setting .output) := by cases level <;> rfl
  rw [Progress.letters, hshort]
  change p.await .output = _
  rw [Progress.await, hp.settles]
  rfl

/-- Reading a writing adds its choice, whatever its value looks like. -/
lemma readArguments_writing (level : Level) (writing : Writing) (hp : p.ComesTo choices)
    (hnew : ∀ d ∈ choices, d.opt ≠ writing.choice.opt) (hc : writing.choice.Legible)
    (rest : List Bytes) :
    ∃ q : Progress, q.ComesTo (choices ++ [writing.choice]) ∧
      readArguments level p (writing.arguments ++ rest) = readArguments level q rest := by
  cases writing with
  | long c =>
    refine ⟨_, comesTo_choices (choices ++ [c]), ?_⟩
    rw [Writing.arguments, List.singleton_append, readArguments_long (hp.takes _) (ofBytes_long c),
      long_choice (c := c) hnew hp hc]
    rfl
  | letter output =>
    refine ⟨{ choices, pending := some (.output, some (Utf8.encode output)) }, ⟨?_, rfl⟩, ?_⟩
    · exact choose_value (c := .output output) hnew trivial rfl rfl
    · rw [Writing.arguments, List.cons_append, List.singleton_append,
        readArguments_letters (hp.takes _) ofBytes_letter]
      change (p.letters level [] ['o'] >>= fun p => readArguments level p _) = _
      rw [letters_output hp]
      change readArguments level _ _ = _
      refine readArguments_value ?_
      rfl

lemma readArguments_writings (level : Level) (writings : List Writing) (hp : p.ComesTo choices)
    (hopts : ((choices ++ writings.map (·.choice)).map (·.opt)).Nodup)
    (hlegible : ∀ writing ∈ writings, writing.choice.Legible) (rest : List Bytes) :
    ∃ q : Progress, q.ComesTo (choices ++ writings.map (·.choice)) ∧
      readArguments level p (writings.flatMap (·.arguments) ++ rest) =
        readArguments level q rest := by
  induction writings generalizing p choices with
  | nil => exact ⟨p, by simpa using hp, rfl⟩
  | cons writing writings ih =>
    obtain ⟨hc, hlegible⟩ := List.forall_mem_cons.1 hlegible
    have hsplit : choices ++ (writing :: writings).map (·.choice) =
        (choices ++ [writing.choice]) ++ writings.map (·.choice) := by simp
    have hnew : ∀ d ∈ choices, d.opt ≠ writing.choice.opt := by
      intro d hd
      rw [List.map_append, List.nodup_append] at hopts
      exact hopts.2.2 d.opt (List.mem_map_of_mem hd) writing.choice.opt (by simp)
    obtain ⟨next, hnext, hread⟩ := readArguments_writing level writing hp hnew hc
      (writings.flatMap (·.arguments) ++ rest)
    rw [hsplit] at hopts ⊢
    obtain ⟨q, hq, hrest⟩ := ih hnext hopts hlegible
    refine ⟨q, hq, ?_⟩
    rw [List.flatMap_cons, List.append_assoc, hread, hrest]

lemma readArguments_nil (hp : p.ComesTo choices) :
    readArguments level p [] = .ok (level.request, choices) := by
  rw [readArguments, hp.settles]
  rfl

lemma readArguments_task (hp : p.ComesTo choices) (task : Task) {rest : List Bytes}
    {inner : List Choice} (hrest : readArguments (.task task) {} rest = .ok (task, inner)) :
    readArguments .program p (Utf8.encode task.name :: rest) = .ok (task, choices ++ inner) := by
  have hword : Argument.ofBytes (Utf8.encode task.name) = .word := by cases task <;> decide
  have hnamed : taskNamed? (Utf8.encode task.name) = some task := by cases task <;> decide
  rw [readArguments_word (hp.takes _) hword, hnamed]
  dsimp only
  rw [hrest, hp.settles]
  rfl

end Reading

/-! ## Choices in any order -/

section Choices

variable {config : Config} {writings : List Writing}

/-- Choices of different options do not touch each other. -/
lemma apply_comm {c d : Choice} (h : c.opt ≠ d.opt) (config : Config) :
    d.apply (c.apply config) = c.apply (d.apply config) := by
  -- Each option has a field of its own, so only a choice of the same option is in the way.
  rcases c with ⟨_ | _⟩ | _ <;> rcases d with ⟨_ | _⟩ | _ <;> first | rfl | exact absurd rfl h

lemma nodup_opt_settled (config : Config) : (config.settled.map (·.opt)).Nodup := by
  rw [Config.settled]
  split_ifs <;> simp [Choice.opt]

lemma foldl_settled (config : Config) :
    config.settled.foldl Choice.apply { task := config.task } = config := by
  obtain ⟨_, debug, intdbg, _, _, _, verbose, dryRun, _, _, _, _⟩ := config
  cases debug <;> cases intdbg <;> cases verbose <;> cases dryRun <;> rfl

lemma apply_of_mem_defaults {c : Choice} (h : c ∈ Config.settled {}) (task : Task) :
    c.apply { task } = { task } := by
  simp only [Config.settled, Bool.false_eq_true, if_false, List.nil_append, List.mem_cons,
    List.not_mem_nil, or_false] at h
  rcases h with rfl | rfl | rfl | rfl | rfl | rfl | rfl <;> rfl

lemma Arrangement.nodup_opt (h : Arrangement config writings) :
    ((writings.map (·.choice)).map (·.opt)).Nodup := by
  refine h.nodup.map_on fun c hc d hd heq => ?_
  have settled {c : Choice} (hc : c ∈ writings.map (·.choice)) : c ∈ config.settled := by
    obtain ⟨writing, hmem, rfl⟩ := List.mem_map.1 hc
    exact h.settled writing hmem
  exact List.inj_on_of_nodup_map (nodup_opt_settled config) (settled hc) (settled hd) heq

lemma legible_of_settled {c : Choice} (hbios : config.bios.bytes ≠ [])
    (hboot : config.boot.bytes ≠ []) (h : c ∈ config.settled) : c.Legible := by
  cases c with
  | bios path =>
    obtain rfl : path = config.bios := by simpa [Config.settled] using h
    exact hbios
  | boot path =>
    obtain rfl : path = config.boot := by simpa [Config.settled] using h
    exact hboot
  | switch | memory | output | profile | debugListen | manifestScan => trivial

/-- The choices of an arrangement make the configuration, in whatever order they come. -/
lemma configure_arrangement (h : Arrangement config writings) :
    configure config.task (writings.map (·.choice)) = config := by
  let chosen := writings.map (·.choice)
  let omitted := config.settled.filter (· ∉ chosen)
  have hperm : (omitted ++ chosen).Perm config.settled := by
    have hnodup : config.settled.Nodup := (nodup_opt_settled config).of_map
    rw [List.perm_ext_iff_of_nodup ?_ hnodup]
    · intro c
      have hsub : c ∈ chosen → c ∈ config.settled := by
        intro hc
        obtain ⟨writing, hmem, rfl⟩ := List.mem_map.1 hc
        exact h.settled writing hmem
      simp only [omitted, List.mem_append, List.mem_filter, decide_eq_true_eq]
      tauto
    · refine List.nodup_append.2 ⟨hnodup.filter _, h.nodup, fun c hc d hd heq => ?_⟩
      simp only [omitted, List.mem_filter, decide_eq_true_eq] at hc
      exact hc.2 (heq ▸ hd)
  have homitted : omitted.foldl Choice.apply { task := config.task } = { task := config.task } := by
    refine List.foldlRecOn (motive := (· = _)) omitted Choice.apply rfl fun b hb c hc => ?_
    simp only [omitted, List.mem_filter, decide_eq_true_eq] at hc
    rw [hb]
    exact apply_of_mem_defaults ((h.complete c hc.1).resolve_left hc.2) config.task
  have hcomm : ∀ c ∈ omitted ++ chosen, ∀ d ∈ omitted ++ chosen, ∀ start : Config,
      d.apply (c.apply start) = c.apply (d.apply start) := by
    intro c hc d hd start
    by_cases heq : c.opt = d.opt
    · rw [List.inj_on_of_nodup_map (nodup_opt_settled config) (hperm.subset hc) (hperm.subset hd)
        heq]
    · exact apply_comm heq start
  calc
    configure config.task chosen
    _ = chosen.foldl Choice.apply (omitted.foldl Choice.apply { task := config.task }) := by
      rw [homitted, configure]
    _ = config.settled.foldl Choice.apply { task := config.task } := by
      rw [← List.foldl_append, hperm.foldl_eq' hcomm]
    _ = config := foldl_settled config

end Choices

/-- However a configuration is arranged around its task, it is read as it is. The task may be left
out where it is to build. The values of settings are taken as they are, whatever they look like. -/
theorem read_arrangement {config : Config} {front back : List Writing}
    (hbios : config.bios.bytes ≠ []) (hboot : config.boot.bytes ≠ [])
    (h : Arrangement config (front ++ back)) :
    read (front.flatMap (·.arguments) ++
      Utf8.encode config.task.name :: back.flatMap (·.arguments)) = .ok config ∧
    (config.task = .build → read ((front ++ back).flatMap (·.arguments)) = .ok config) := by
  have hlegible : ∀ writing ∈ front ++ back, writing.choice.Legible := fun writing hmem =>
    legible_of_settled hbios hboot (h.settled writing hmem)
  have hstart := comesTo_choices []
  have hopts := h.nodup_opt
  constructor
  · rw [List.map_append, List.map_append, List.nodup_append] at hopts
    rw [List.forall_mem_append] at hlegible
    obtain ⟨outer, houter, hfront⟩ := readArguments_writings .program front hstart
      (by simpa using hopts.1) hlegible.1
      (Utf8.encode config.task.name :: back.flatMap (·.arguments))
    obtain ⟨inner, hinner, hback⟩ := readArguments_writings (.task config.task) back hstart
      (by simpa using hopts.2.1) hlegible.2 []
    rw [List.append_nil, readArguments_nil hinner] at hback
    rw [read, hfront, readArguments_task houter config.task hback]
    change Except.ok (configure config.task _) = _
    rw [List.nil_append, List.nil_append, ← List.map_append, configure_arrangement h]
  · intro hbuild
    obtain ⟨q, hq, hread⟩ := readArguments_writings .program (front ++ back) hstart
      (by simpa using hopts) hlegible []
    rw [List.append_nil, readArguments_nil hq] at hread
    rw [read, hread]
    change Except.ok (configure .build _) = _
    rw [← hbuild, List.nil_append, configure_arrangement h]

namespace Sample

/-- A dry run of the task that may be left out, with values that look like something else. -/
def asked : Config :=
  { memory := "", output := "build", dryRun := true, boot := .ofString "=-d" }

def inFront : List Writing := [.letter "build", .long (.boot (.ofString "=-d"))]

def behind : List Writing := [.long (.switch .dryRun), .long (.memory "")]

theorem read_arrangement_asked :
    Arrangement asked (inFront ++ behind) ∧
      read (["-o", "build", "--boot==-d", "build", "--dry-run", "--memory="].map Utf8.encode) =
        .ok asked ∧
      read (["-o", "build", "--boot==-d", "--dry-run", "--memory="].map Utf8.encode) =
        .ok asked := by
  have h : Arrangement asked (inFront ++ behind) := ⟨by decide, by decide, by decide⟩
  obtain ⟨named, unnamed⟩ := read_arrangement (by decide) (by decide) h
  exact ⟨h, named, unnamed rfl⟩

end Sample
end CommandLine
end BootVolume
