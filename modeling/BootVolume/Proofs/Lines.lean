import BootVolume.Proofs.Spelling
import BootVolume.Text.Lines

/-!
# The lines of a text

What the lines of a text are is said here on its own (`Lined`), and `textLines` finds them
(`lined_iff`). Behind a line feed the lines begin anew (`textLines_append_feed`), and it makes no
difference to them whether the line feeds have carriage returns in front (`textLines_withReturns`).
-/

namespace BootVolume

variable {line text word : List Char} {lines : List (List Char)}

/-- The lines of a text. A line feed ends each, with or without a carriage return in front of it;
the end of the text ends one that is not empty. -/
inductive Lined : List Char → List (List Char) → Prop
  | nil : Lined [] []
  | last {line : List Char} (hne : line ≠ []) (hline : '\n' ∉ line) : Lined line [line]
  | feed {line text : List Char} {lines : List (List Char)} (hline : '\n' ∉ line)
    (hreturn : line.getLast? ≠ some '\r') :
    Lined text lines → Lined (line ++ '\n' :: text) (line :: lines)
  | returnFeed {line text : List Char} {lines : List (List Char)} (hline : '\n' ∉ line) :
    Lined text lines → Lined (line ++ '\r' :: '\n' :: text) (line :: lines)

lemma pieces_of_not_mem {α : Type} [DecidableEq α] {sep : α} {xs : List α} (h : sep ∉ xs) :
    pieces (· = sep) xs = [xs] :=
  pieces_of_none fun _ ha => decide_eq_false fun heq => h (heq ▸ ha)

lemma dropReturn_of_ne (h : line.getLast? ≠ some '\r') : dropReturn line = line := if_neg h

lemma dropReturn_concat (line : List Char) : dropReturn (line ++ ['\r']) = line := by
  simp [dropReturn]

/-! ## Behind a line feed -/

/-- Up to a line feed all pieces are lines, and behind it are the lines of the rest. -/
lemma textLines_append_cons (text rest : List Char) :
    textLines (text ++ '\n' :: rest) =
      (pieces (· = '\n') text).map dropReturn ++ textLines rest := by
  have hrest := pieces_ne_nil (· = '\n') rest
  rw [textLines, textLines, pieces_append_sep (by simp)]
  simp [List.dropLast_append_of_ne_nil hrest, List.getLast?_append_of_ne_nil _ hrest]

lemma textLines_append_feed (text rest : List Char) :
    textLines (text ++ '\n' :: rest) = textLines (text ++ ['\n']) ++ textLines rest := by
  have hnil : textLines [] = [] := rfl
  rw [textLines_append_cons, textLines_append_cons, hnil, List.append_nil]

lemma textLines_cons (h : '\n' ∉ line) (rest : List Char) :
    textLines (line ++ '\n' :: rest) = dropReturn line :: textLines rest := by
  rw [textLines_append_cons, pieces_of_not_mem h]
  rfl

lemma textLines_of_not_mem (h : '\n' ∉ line) (hne : line ≠ []) : textLines line = [line] := by
  rw [textLines, pieces_of_not_mem h]
  simpa using hne

/-! ## All lines and no others -/

namespace Lined

lemma textLines_eq (h : Lined text lines) : textLines text = lines := by
  induction h with
  | nil => rfl
  | last hne hline => exact textLines_of_not_mem hline hne
  | feed hline hreturn _ ih => rw [textLines_cons hline, dropReturn_of_ne hreturn, ih]
  | @returnFeed line text _ hline _ ih =>
    have hsplit : line ++ '\r' :: '\n' :: text = line ++ ['\r'] ++ '\n' :: text := by simp
    rw [hsplit, textLines_cons (by simpa using hline), dropReturn_concat, ih]

lemma exists_lines (text : List Char) : ∃ lines, Lined text lines := by
  -- The text behind the first line feed is shorter.
  induction hlength : text.length using Nat.strong_induction_on generalizing text with
  | _ length ih =>
    by_cases hfeed : '\n' ∈ text
    · obtain ⟨line, rest, rfl, hline⟩ := List.eq_append_cons_of_mem hfeed
      obtain ⟨lines, hrest⟩ := ih rest.length (by simp at hlength; omega) rest rfl
      by_cases hreturn : line.getLast? = some '\r'
      · obtain ⟨front, rfl⟩ := List.getLast?_eq_some_iff.1 hreturn
        have hfront : '\n' ∉ front := fun hmem => hline (List.mem_append_left _ hmem)
        exact ⟨front :: lines, by simpa using returnFeed hfront hrest⟩
      · exact ⟨line :: lines, feed hline hreturn hrest⟩
    · by_cases hne : text = []
      · exact ⟨[], hne ▸ nil⟩
      · exact ⟨[text], last hne hfeed⟩

end Lined

lemma lined_iff : Lined text lines ↔ textLines text = lines := by
  constructor
  · intro h
    exact h.textLines_eq
  · rintro rfl
    obtain ⟨lines, h⟩ := Lined.exists_lines text
    rwa [h.textLines_eq]

/-- Lines with a line feed behind each, the last one perhaps without. -/
lemma lined_intercalate (hne : lines ≠ [])
    (hfree : ∀ line ∈ lines, line ≠ [] ∧ '\n' ∉ line ∧ line.getLast? ≠ some '\r') (closed : Bool) :
    Lined (['\n'].intercalate lines ++ if closed then ['\n'] else []) lines := by
  induction lines with
  | nil => exact absurd rfl hne
  | cons line rest ih =>
    obtain ⟨hsome, hline, hreturn⟩ := hfree line List.mem_cons_self
    cases rest with
    | nil =>
      cases closed with
      | false => simpa [List.intercalate] using Lined.last hsome hline
      | true => simpa [List.intercalate] using Lined.feed hline hreturn .nil
    | cons next rest =>
      have hbelow := ih (List.cons_ne_nil next rest) fun other hother =>
        hfree other (List.mem_cons_of_mem line hother)
      simpa [List.intercalate, List.intersperse] using Lined.feed hline hreturn hbelow

/-! ## Carriage returns -/

/-- The text with a carriage return in front of every line feed. -/
def withReturns (text : List Char) : List Char :=
  text.flatMap fun c => if c = '\n' then ['\r', '\n'] else [c]

lemma withReturns_of_not_mem (h : '\n' ∉ line) : withReturns line = line := by
  induction line with
  | nil => rfl
  | cons c line ih =>
    rw [List.mem_cons, not_or] at h
    rw [withReturns, List.flatMap_cons, if_neg (Ne.symm h.1), ← withReturns, ih h.2]
    rfl

lemma withReturns_cons (h : '\n' ∉ line) (text : List Char) :
    withReturns (line ++ '\n' :: text) = line ++ '\r' :: '\n' :: withReturns text := by
  rw [withReturns, List.flatMap_append, ← withReturns, withReturns_of_not_mem h, List.flatMap_cons]
  rfl

lemma Lined.withReturns (h : Lined text lines) (hreturn : '\r' ∉ text) :
    Lined (BootVolume.withReturns text) lines := by
  induction h with
  | nil => exact nil
  | last hne hline => exact (withReturns_of_not_mem hline).symm ▸ last hne hline
  | feed hline _ _ ih =>
    rw [withReturns_cons hline]
    exact returnFeed hline (ih fun hmem => hreturn (by simp [hmem]))
  | returnFeed => exact absurd (by simp) hreturn

lemma textLines_withReturns (h : '\r' ∉ text) : textLines (withReturns text) = textLines text := by
  obtain ⟨lines, hlines⟩ := Lined.exists_lines text
  rw [hlines.textLines_eq, (hlines.withReturns h).textLines_eq]

/-! ## Words in lines -/

lemma mentions_iff : mentions word line = true ↔ word <:+: line := by
  induction line with
  | nil => simp [mentions]
  | cons c line ih =>
    rw [mentions, Bool.or_eq_true, List.isPrefixOf_iff_prefix, ih, List.infix_cons_iff]

end BootVolume
