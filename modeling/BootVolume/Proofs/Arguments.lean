import BootVolume.Hypervisor
import BootVolume.Proofs.Spelling

/-!
# Reading the hypervisor's command line

The arguments say all that the hypervisor is to do: two configurations have the same ones only if
they agree on what counts, and from each list the words of the further arguments are read off again
(`arguments_determine_launch`). These stand in the middle, and may look like any other argument, so
a list is read from both ends.
-/

namespace BootVolume

/-! ## Words between blanks -/

/-- The words of a text that has blanks between them, and perhaps before and behind them. -/
inductive Spaced : List Char → List (List Char) → Prop
  | nil : Spaced [] []
  | blank {c : Char} {text : List Char} {words : List (List Char)} (hc : isBlank c = true) :
    Spaced text words → Spaced (c :: text) words
  | last {word : List Char} (hne : word ≠ []) (hword : ∀ c ∈ word, isBlank c = false) :
    Spaced word [word]
  | word {word : List Char} {c : Char} {text : List Char} {words : List (List Char)}
    (hne : word ≠ []) (hword : ∀ c ∈ word, isBlank c = false) (hc : isBlank c = true) :
    Spaced text words → Spaced (word ++ c :: text) (word :: words)

namespace Spaced

variable {text : List Char} {words : List (List Char)}

lemma filter_pieces (h : Spaced text words) :
    (pieces isBlank text).filter (!·.isEmpty) = words := by
  induction h with
  | nil => rfl
  | blank hc _ ih => rw [pieces, if_pos hc, List.filter_cons_of_neg (by simp), ih]
  | last hne hword =>
    rw [pieces_of_none hword, List.filter_cons_of_pos (by simpa using hne), List.filter_nil]
  | word hne hword hc _ ih =>
    rw [pieces_append_sep hc, pieces_of_none hword, List.filter_append, ih,
      List.filter_cons_of_pos (by simpa using hne)]
    rfl

/-- A further character begins a word or belongs to the first one. -/
lemma exists_cons (h : Spaced text words) (c : Char) : ∃ words, Spaced (c :: text) words := by
  by_cases hc : isBlank c = true
  · exact ⟨words, .blank hc h⟩
  have hc : isBlank c = false := Bool.eq_false_iff.2 hc
  have hfirst : ∀ b ∈ [c], isBlank b = false := List.forall_mem_singleton.2 hc
  cases h with
  | nil => exact ⟨_, .last (by simp) hfirst⟩
  | blank hnext h => exact ⟨_, .word (List.cons_ne_nil c []) hfirst hnext h⟩
  | last _ hword => exact ⟨_, .last (by simp) (List.forall_mem_cons.2 ⟨hc, hword⟩)⟩
  | word _ hword hnext h =>
    exact ⟨_, .word (List.cons_ne_nil c _) (List.forall_mem_cons.2 ⟨hc, hword⟩) hnext h⟩

lemma exists_words (text : List Char) : ∃ words, Spaced text words := by
  induction text with
  | nil => exact ⟨[], .nil⟩
  | cons c text ih =>
    obtain ⟨words, h⟩ := ih
    exact h.exists_cons c

lemma of_mem (h : Spaced text words) {word : List Char} (hmem : word ∈ words) :
    word ≠ [] ∧ ∀ c ∈ word, isBlank c = false := by
  induction h with
  | nil => cases hmem
  | blank _ _ ih => exact ih hmem
  | last hne hword =>
    obtain rfl := List.mem_singleton.1 hmem
    exact ⟨hne, hword⟩
  | word hne hword _ _ ih =>
    rcases List.mem_cons.1 hmem with rfl | hmem
    · exact ⟨hne, hword⟩
    · exact ih hmem

/-- The words one behind the other are the text without its blanks. -/
lemma flatten_eq (h : Spaced text words) : words.flatten = text.filter (!isBlank ·) := by
  have kept {word : List Char} (hword : ∀ c ∈ word, isBlank c = false) :
      word.filter (!isBlank ·) = word :=
    List.filter_eq_self.2 fun c hc => by simp [hword c hc]
  induction h with
  | nil => rfl
  | blank hc _ ih => rw [ih, List.filter_cons_of_neg (by simp [hc])]
  | last _ hword => rw [kept hword, List.flatten_singleton]
  | word _ hword hc _ ih =>
    rw [List.flatten_cons, ih, List.filter_append, kept hword,
      List.filter_cons_of_neg (by simp [hc])]

end Spaced

/-- The tokens of a text are its words. -/
lemma spaced_iff {s : String} {words : List (List Char)} :
    Spaced s.toList words ↔ (tokens s).map String.toList = words := by
  have htokens {words : List (List Char)} (h : Spaced s.toList words) :
      (tokens s).map String.toList = words := by
    rw [tokens, h.filter_pieces, List.map_map]
    exact (List.map_congr_left fun word _ => String.toList_ofList).trans (List.map_id words)
  refine ⟨htokens, ?_⟩
  rintro rfl
  obtain ⟨words, h⟩ := Spaced.exists_words s.toList
  rwa [htokens h]

/-! ## Hooks -/

namespace DebugHook

lemma ofConfig_eq_iff {a b : Config} : ofConfig a = ofConfig b ↔
    a.debug = b.debug ∧ (a.debug = true → a.debugListen = b.debugListen) ∧
      (a.debug = false → a.intdbg = b.intdbg) := by
  rw [ofConfig, ofConfig]
  cases a.debug <;> cases b.debug <;> cases a.intdbg <;> cases b.intdbg <;> simp

lemma args_injective {hook hook' : DebugHook} (h : hook.args = hook'.args) : hook = hook' := by
  cases hook <;> cases hook' <;> simp_all [args]

/-- The last argument tells how many belong to the hook. -/
lemma length_args_of_getLast? {hook hook' : DebugHook}
    (h : ("-snapshot" :: hook.args).getLast? = ("-snapshot" :: hook'.args).getLast?) :
    hook.args.length = hook'.args.length := by
  cases hook <;> cases hook' <;> first | rfl | exact absurd h (by simp [args])

end DebugHook

namespace Hypervisor

/-- What stands before the further arguments. -/
def firmware (config : Config) : List Bytes :=
  [Utf8.encode "-bios", config.bios.bytes, Utf8.encode "-net", Utf8.encode "none"]

/-- What stands behind the further arguments and before those of the hook. -/
def machine (config : Config) : List Bytes :=
  [Utf8.encode "-m", Utf8.encode config.memory, Utf8.encode "-drive",
    Utf8.encode "format=raw,file=fat:" ++ config.boot.bytes, Utf8.encode "-snapshot"]

lemma arguments_eq (config : Config) :
    arguments config = firmware config ++ (tokens config.output).map Utf8.encode ++
      machine config ++ (DebugHook.ofConfig config).args.map Utf8.encode := by
  simp [arguments, firmware, machine]

lemma getLast?_arguments (config : Config) :
    (arguments config).getLast? =
      (("-snapshot" :: (DebugHook.ofConfig config).args).getLast?).map Utf8.encode := by
  have hsplit : arguments config =
      (firmware config ++ (tokens config.output).map Utf8.encode ++ (machine config).dropLast) ++
        ("-snapshot" :: (DebugHook.ofConfig config).args).map Utf8.encode := by
    simp [arguments_eq, machine]
  rw [hsplit, List.getLast?_append_of_ne_nil _ (by simp), List.getLast?_map]

lemma parts_of_arguments {a b : Config} (h : arguments a = arguments b) :
    firmware a = firmware b ∧ tokens a.output = tokens b.output ∧ machine a = machine b ∧
      DebugHook.ofConfig a = DebugHook.ofConfig b := by
  -- Where the further arguments end is known only once it is known how long the hook is.
  have hlast := congrArg List.getLast? h
  rw [getLast?_arguments, getLast?_arguments] at hlast
  have hlength := DebugHook.length_args_of_getLast?
    (Option.map_injective (fun _ _ => Utf8.encode_injective) hlast)
  rw [arguments_eq, arguments_eq] at h
  obtain ⟨h, hhook⟩ := List.append_inj' h (by simpa using hlength)
  obtain ⟨h, hmachine⟩ := List.append_inj' h rfl
  obtain ⟨hfirmware, htokens⟩ := List.append_inj h rfl
  have hencode : Function.Injective Utf8.encode := fun _ _ => Utf8.encode_injective
  exact ⟨hfirmware, hencode.list_map htokens, hmachine,
    DebugHook.args_injective (hencode.list_map hhook)⟩

lemma further_eq (config : Config) :
    (((arguments config).drop 4).rdrop (DebugHook.ofConfig config).args.length).rdrop 5 =
      (tokens config.output).map Utf8.encode := by
  have hdrop : (arguments config).drop 4 =
      (tokens config.output).map Utf8.encode ++ machine config ++
        (DebugHook.ofConfig config).args.map Utf8.encode := by
    simp [arguments_eq, firmware]
  have hhook : (DebugHook.ofConfig config).args.length =
      ((DebugHook.ofConfig config).args.map Utf8.encode).length := by simp
  rw [hdrop, hhook, List.rdrop_append_length]
  exact List.rdrop_append_length

/-- The arguments are the same if and only if the configurations agree on the firmware, the memory,
the volume, the words of the further arguments and the hook. Of each list, the first four and the
last ones are as they are written, whatever the configuration holds, and between them stand the
words of the further arguments, all of them and nothing else. -/
theorem arguments_determine_launch :
    (∀ a b : Config, arguments a = arguments b ↔
      a.bios = b.bios ∧ a.memory = b.memory ∧ a.boot = b.boot ∧
        tokens a.output = tokens b.output ∧ a.debug = b.debug ∧
        (a.debug = true → a.debugListen = b.debugListen) ∧
        (a.debug = false → a.intdbg = b.intdbg)) ∧
    ∀ config : Config,
      let hook := if config.debug then ["-gdb", "tcp:" ++ config.debugListen, "-S"]
        else if config.intdbg then ["-no-reboot", "-d", "int,cpu_reset"] else []
      let further := (((arguments config).drop 4).rdrop hook.length).rdrop 5
      arguments config =
        [Utf8.encode "-bios", config.bios.bytes, Utf8.encode "-net", Utf8.encode "none"] ++
          further ++
          [Utf8.encode "-m", Utf8.encode config.memory, Utf8.encode "-drive",
            Utf8.encode "format=raw,file=fat:" ++ config.boot.bytes, Utf8.encode "-snapshot"] ++
          hook.map Utf8.encode ∧
      further = (tokens config.output).map Utf8.encode ∧
      (∀ words, Spaced config.output.toList words ↔
        (tokens config.output).map String.toList = words) ∧
      (∀ token ∈ tokens config.output,
        token.toList ≠ [] ∧ ∀ c ∈ token.toList, isBlank c = false) ∧
      ((tokens config.output).map String.toList).flatten =
        config.output.toList.filter (!isBlank ·) := by
  refine ⟨fun a b => ⟨fun h => ?_, ?_⟩, fun config => ?_⟩
  · obtain ⟨hfirmware, htokens, hmachine, hhook⟩ := parts_of_arguments h
    simp only [firmware, machine, List.cons.injEq, List.append_cancel_left_eq] at hfirmware hmachine
    obtain ⟨-, hbios, -⟩ := hfirmware
    obtain ⟨-, hmemory, -, hboot, -⟩ := hmachine
    have hpath {p q : Path} (h : p.bytes = q.bytes) : p = q := congrArg Path.mk h
    exact ⟨hpath hbios, Utf8.encode_injective hmemory, hpath hboot, htokens,
      DebugHook.ofConfig_eq_iff.1 hhook⟩
  · rintro ⟨hbios, hmemory, hboot, htokens, hhook⟩
    rw [arguments, arguments, hbios, hmemory, hboot, htokens, DebugHook.ofConfig_eq_iff.2 hhook]
  · have hhook : (if config.debug then ["-gdb", "tcp:" ++ config.debugListen, "-S"]
        else if config.intdbg then ["-no-reboot", "-d", "int,cpu_reset"] else []) =
          (DebugHook.ofConfig config).args := by
      rw [DebugHook.ofConfig]
      split_ifs <;> rfl
    intro hook further
    have hfurther : further = (tokens config.output).map Utf8.encode := by
      rw [← further_eq, ← hhook]
    have hwords := spaced_iff.2 (rfl : (tokens config.output).map String.toList = _)
    refine ⟨?_, hfurther, fun words => spaced_iff, fun token htoken => ?_, hwords.flatten_eq⟩
    · rw [hfurther, arguments_eq, ← hhook]
      rfl
    · exact hwords.of_mem (List.mem_map_of_mem htoken)

end Hypervisor
end BootVolume
