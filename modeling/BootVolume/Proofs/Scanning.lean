import Mathlib.Data.List.Infix
import BootVolume.Proofs.Lines
import BootVolume.Proofs.Removing

/-!
# Reading a package name by its look

The literal scan looks for the first line of a manifest that mentions `name` and takes what is
quoted there. So nothing but this line matters, wherever the text is cut and however its lines end
(`scanName_of_cut`). What it takes stands between the first two double quotes of the line, or behind
the only one: a quote that is never closed gives a name as well (`scanName_quoted`).
-/

namespace BootVolume.Manifest

variable {text : String} {line token : List Char} {lines : List (List Char)}

/-! ## The line that counts -/

/-- A line is the first of some lines that mentions the name. -/
def FirstMention (lines : List (List Char)) (line : List Char) : Prop :=
  ∃ before after, lines = before ++ line :: after ∧ "name".toList <:+: line ∧
    ∀ other ∈ before, ¬"name".toList <:+: other

lemma firstMention_iff :
    FirstMention lines line ↔ lines.find? (mentions "name".toList) = some line := by
  rw [List.find?_eq_some_iff_append, mentions_iff]
  constructor
  · rintro ⟨before, after, hlines, hmention, hbefore⟩
    refine ⟨hmention, before, after, hlines, fun other hother => ?_⟩
    simpa [← mentions_iff] using hbefore other hother
  · rintro ⟨hmention, before, after, hlines, hbefore⟩
    refine ⟨before, after, hlines, hmention, fun other hother => ?_⟩
    simpa [← mentions_iff] using hbefore other hother

lemma FirstMention.unique {line' : List Char} (h : FirstMention lines line)
    (h' : FirstMention lines line') : line = line' :=
  Option.some.inj ((firstMention_iff.1 h).symm.trans (firstMention_iff.1 h'))

lemma find?_eq_none_iff :
    lines.find? (mentions "name".toList) = none ↔ ¬∃ line ∈ lines, "name".toList <:+: line := by
  rw [List.find?_eq_none]
  simp only [mentions_iff, not_exists, not_and]

lemma scanName_eq (h : Lined text.toList lines) :
    scanName text =
      ((lines.find? (mentions "name".toList)).bind firstQuoted?).map String.ofList := by
  rw [scanName, scanChars, h.textLines_eq]

lemma scanName_eq_some_iff (h : Lined text.toList lines) {name : String} :
    scanName text = some name ↔
      ∃ line, FirstMention lines line ∧ firstQuoted? line = some name.toList := by
  rw [scanName_eq h, Option.map_eq_some_iff]
  constructor
  · rintro ⟨token, htoken, rfl⟩
    obtain ⟨line, hline, hquoted⟩ := Option.bind_eq_some_iff.1 htoken
    exact ⟨line, firstMention_iff.2 hline, by rwa [String.toList_ofList]⟩
  · rintro ⟨line, hline, hquoted⟩
    refine ⟨name.toList, ?_, String.ofList_toList⟩
    rw [firstMention_iff.1 hline, Option.bind_some, hquoted]

/-! ## What is quoted on a line -/

/-- The first two double quotes of a line enclose a text. -/
def Encloses (line token : List Char) : Prop :=
  ∃ front back, line = front ++ '"' :: (token ++ '"' :: back) ∧ '"' ∉ front ∧ '"' ∉ token

/-- The only double quote of a line has a text behind it. -/
def LeavesOpen (line token : List Char) : Prop :=
  ∃ front, line = front ++ '"' :: token ∧ '"' ∉ front ∧ '"' ∉ token

lemma firstQuoted?_of_not_mem (h : '"' ∉ line) : firstQuoted? line = none := by
  rw [firstQuoted?, pieces_of_not_mem h]
  rfl

lemma LeavesOpen.firstQuoted?_eq (h : LeavesOpen line token) : firstQuoted? line = some token := by
  obtain ⟨front, rfl, hfront, htoken⟩ := h
  rw [firstQuoted?, pieces_append_sep (by simp), pieces_of_not_mem hfront, pieces_of_not_mem htoken]
  rfl

lemma Encloses.firstQuoted?_eq (h : Encloses line token) : firstQuoted? line = some token := by
  obtain ⟨front, back, rfl, hfront, htoken⟩ := h
  rw [firstQuoted?, pieces_append_sep (by simp), pieces_append_sep (by simp),
    pieces_of_not_mem hfront, pieces_of_not_mem htoken]
  rfl

/-- A line has no double quote, or one, or more. -/
lemma quotes_cases (line : List Char) :
    '"' ∉ line ∨ (∃ token, LeavesOpen line token) ∨ ∃ token, Encloses line token := by
  by_cases hfirst : '"' ∈ line
  · obtain ⟨front, rest, rfl, hfront⟩ := List.eq_append_cons_of_mem hfirst
    by_cases hsecond : '"' ∈ rest
    · obtain ⟨token, back, rfl, htoken⟩ := List.eq_append_cons_of_mem hsecond
      exact .inr (.inr ⟨token, front, back, rfl, hfront, htoken⟩)
    · exact .inr (.inl ⟨rest, front, rfl, hfront, hsecond⟩)
  · exact .inl hfirst

lemma firstQuoted?_eq_some_iff :
    firstQuoted? line = some token ↔ Encloses line token ∨ LeavesOpen line token := by
  constructor
  · intro h
    rcases quotes_cases line with hnone | ⟨other, hopen⟩ | ⟨other, hclosed⟩
    · rw [firstQuoted?_of_not_mem hnone] at h
      cases h
    · rw [hopen.firstQuoted?_eq] at h
      cases h
      exact .inr hopen
    · rw [hclosed.firstQuoted?_eq] at h
      cases h
      exact .inl hclosed
  · rintro (h | h)
    · exact h.firstQuoted?_eq
    · exact h.firstQuoted?_eq

lemma firstQuoted?_eq_none_iff : firstQuoted? line = none ↔ '"' ∉ line := by
  constructor
  · intro h
    rcases quotes_cases line with hnone | ⟨token, hopen⟩ | ⟨token, hclosed⟩
    · exact hnone
    · rw [hopen.firstQuoted?_eq] at h
      cases h
    · rw [hclosed.firstQuoted?_eq] at h
      cases h
  · exact firstQuoted?_of_not_mem

lemma LeavesOpen.count_eq (h : LeavesOpen line token) : line.count '"' = 1 := by
  obtain ⟨front, rfl, hfront, htoken⟩ := h
  rw [List.count_append, List.count_cons_self, List.count_eq_zero.2 hfront,
    List.count_eq_zero.2 htoken]

lemma Encloses.two_le_count (h : Encloses line token) : 2 ≤ line.count '"' := by
  obtain ⟨front, back, rfl, -, -⟩ := h
  rw [List.count_append, List.count_cons_self, List.count_append, List.count_cons_self]
  omega

lemma exists_leavesOpen_iff : (∃ token, LeavesOpen line token) ↔ line.count '"' = 1 := by
  constructor
  · rintro ⟨token, h⟩
    exact h.count_eq
  · intro h
    rcases quotes_cases line with hnone | hopen | ⟨token, hclosed⟩
    · rw [List.count_eq_zero.2 hnone] at h
      omega
    · exact hopen
    · have hcount := hclosed.two_le_count
      omega

/-! ## What the scan finds -/

lemma scanName_eq_none_iff (h : Lined text.toList lines) :
    scanName text = none ↔ ∀ line, FirstMention lines line → '"' ∉ line := by
  rw [scanName_eq h, Option.map_eq_none_iff, Option.bind_eq_none_iff]
  simp only [firstMention_iff, firstQuoted?_eq_none_iff]

lemma scanName_eq_of_quotes (h : Lined text.toList lines) {name : String} :
    scanName text = some name ↔ ∃ line, FirstMention lines line ∧
      (Encloses line name.toList ∨ LeavesOpen line name.toList) := by
  rw [scanName_eq_some_iff h]
  simp only [firstQuoted?_eq_some_iff]

/-- The lines of a text that is cut at a line feed are those up to it and those behind it. -/
lemma scanName_append {a b : String} (h : Lined (a ++ "\n").toList lines) :
    scanName (a ++ "\n" ++ b) =
      if ∃ line ∈ lines, "name".toList <:+: line then scanName (a ++ "\n") else scanName b := by
  obtain ⟨below, hbelow⟩ := Lined.exists_lines b.toList
  have hall : Lined (a ++ "\n" ++ b).toList (lines ++ below) := by
    have hsplit : (a ++ "\n" ++ b).toList = a.toList ++ '\n' :: b.toList := by simp
    have hfront : (a ++ "\n").toList = a.toList ++ ['\n'] := by simp
    rw [lined_iff, hsplit, textLines_append_feed, ← hfront, h.textLines_eq, hbelow.textLines_eq]
  rw [scanName_eq hall, scanName_eq h, scanName_eq hbelow, List.find?_append]
  split
  case isTrue hmention =>
    have hsome : lines.find? (mentions "name".toList) ≠ none := mt find?_eq_none_iff.1 (by simpa)
    rw [Option.or_of_isSome (Option.isSome_iff_ne_none.2 hsome)]
  case isFalse hmention =>
    rw [find?_eq_none_iff.2 hmention, Option.none_or]

lemma load_literal {site : Site} {dir : String} {w : World}
    (h : w.tree.readText site.here (site.path (App.manifest dir)) = .ok text) :
    (App.load site dir .literal w).1 =
      (scanName text).elim (.error (.missingPackageName (App.manifest dir)))
        fun package => .ok { dir, package } := by
  rw [App.load_apply]
  dsimp only
  rw [h]
  dsimp only [readName]
  cases scanName text with
  | none => rfl
  | some package => rfl

/-- The lines of a text up to a line feed decide alone if one of them mentions the name, and
otherwise those behind it do. If the line that counts has no quote, nothing is found, whatever
follows. Carriage returns in front of the line feeds make no difference. -/
theorem scanName_of_cut :
    (∀ (a b : String) (lines : List (List Char)), Lined (a ++ "\n").toList lines →
      scanName (a ++ "\n" ++ b) =
        if ∃ line ∈ lines, "name".toList <:+: line then scanName (a ++ "\n") else scanName b) ∧
    (∀ (a b : String) (lines : List (List Char)) (line : List Char),
      Lined (a ++ "\n").toList lines → FirstMention lines line → '"' ∉ line →
        scanName (a ++ "\n" ++ b) = none) ∧
    ∀ text : String, '\r' ∉ text.toList →
      scanName (String.ofList (withReturns text.toList)) = scanName text := by
  refine ⟨fun a b lines h => scanName_append h, fun a b lines line h hline hquote => ?_,
    fun text htext => ?_⟩
  · have hmention : ∃ line ∈ lines, "name".toList <:+: line := by
      obtain ⟨before, after, rfl, hmention, -⟩ := hline
      exact ⟨line, by simp, hmention⟩
    rw [scanName_append h, if_pos hmention, scanName_eq_none_iff h]
    intro other hother
    rwa [← hline.unique hother]
  · have hreturns : textLines (String.ofList (withReturns text.toList)).toList =
        textLines text.toList := by
      rw [String.toList_ofList, textLines_withReturns htext]
    rw [scanName, scanChars, hreturns, ← scanChars, ← scanName]

/-- A comment that mentions the name hides it, and a header does not. -/
theorem scanName_of_cut_comment :
    let comment := "# renamed"
    let header := "[package]"
    let rest := "name = \"tool\"\n"
    (Lined (comment ++ "\n").toList [comment.toList] ∧
      FirstMention [comment.toList] comment.toList ∧ '"' ∉ comment.toList ∧
      scanName (comment ++ "\n" ++ rest) = none) ∧
    (Lined (header ++ "\n").toList [header.toList] ∧
      scanName (header ++ "\n" ++ rest) = scanName rest) ∧
    '\r' ∉ rest.toList ∧ scanName (String.ofList (withReturns rest.toList)) = scanName rest := by
  intro comment header rest
  obtain ⟨hcut, hhidden, hreturns⟩ := scanName_of_cut
  have hcomment : Lined (comment ++ "\n").toList [comment.toList] := lined_iff.2 (by decide +kernel)
  have hheader : Lined (header ++ "\n").toList [header.toList] := lined_iff.2 (by decide +kernel)
  have hline : FirstMention [comment.toList] comment.toList :=
    firstMention_iff.2 (by decide +kernel)
  have hquote : '"' ∉ comment.toList := by decide +kernel
  have hreturn : '\r' ∉ rest.toList := by decide +kernel
  refine ⟨⟨hcomment, hline, hquote, hhidden _ _ _ _ hcomment hline hquote⟩, ⟨hheader, ?_⟩, hreturn,
    hreturns _ hreturn⟩
  rw [hcut _ _ _ hheader, if_neg (by decide +kernel)]

/-- A name is found if and only if the first line that mentions it has a quote, and it is what the
first two quotes enclose, or what stands behind the only one. So it is always enclosed by two quotes
if and only if this line, should there be one, has not exactly one quote. An application whose
manifest has no name that is found is not loaded. -/
theorem scanName_quoted (h : Lined text.toList lines) :
    ((∀ name : String, scanName text = some name ↔
        ∃ line, FirstMention lines line ∧ Encloses line name.toList) ↔
      ∀ line, FirstMention lines line → line.count '"' ≠ 1) ∧
    (∀ name : String, scanName text = some name ↔ ∃ line, FirstMention lines line ∧
      (Encloses line name.toList ∨ LeavesOpen line name.toList)) ∧
    (scanName text = none ↔ ∀ line, FirstMention lines line → '"' ∉ line) ∧
    ∀ (site : Site) (dir : String) (w : World),
      w.tree.readText site.here (site.path (App.manifest dir)) = .ok text →
      (App.load site dir .literal w).1 =
        (scanName text).elim (.error (.missingPackageName (App.manifest dir)))
          fun package => .ok { dir, package } := by
  refine ⟨⟨fun hclosed line hline hone => ?_, fun hnot name => ?_⟩,
    fun name => scanName_eq_of_quotes h, scanName_eq_none_iff h, fun site dir w => load_literal⟩
  · -- The text behind the only quote is found, so it would have to be enclosed.
    obtain ⟨token, hopen⟩ := exists_leavesOpen_iff.2 hone
    have hopen : LeavesOpen line (String.ofList token).toList := by rwa [String.toList_ofList]
    have hfound := (scanName_eq_of_quotes h).2 ⟨line, hline, .inr hopen⟩
    obtain ⟨other, hother, henclosed⟩ := (hclosed (String.ofList token)).1 hfound
    have hcount := henclosed.two_le_count
    rw [← hline.unique hother, hone] at hcount
    omega
  · rw [scanName_eq_of_quotes h]
    constructor
    · rintro ⟨line, hline, hclosed | hopen⟩
      · exact ⟨line, hline, hclosed⟩
      · exact absurd hopen.count_eq (hnot line hline)
    · rintro ⟨line, hline, hclosed⟩
      exact ⟨line, hline, .inl hclosed⟩

/-! ## Two manifests -/

/-- Nothing but one application. -/
def lone (manifest : String) : World where
  tree := Build.Twins.filled [("pkg", .dir), ("pkg/app", .dir), ("pkg/app/tool", .dir),
    ("pkg/app/tool/Cargo.toml", .file (Utf8.encode manifest) false)]

open Build.Twins (site)

/-- What two quotes enclose is found. -/
theorem scanName_quoted_tool :
    let text := "[package]\nname = \"tool\"\n"
    let lines := ["[package]".toList, "name = \"tool\"".toList]
    Lined text.toList lines ∧
      (lone text).tree.readText site.here (site.path (App.manifest "tool")) = .ok text ∧
      (∀ line, FirstMention lines line → line.count '"' ≠ 1) ∧ scanName text = some "tool" ∧
      (App.load site "tool" .literal (lone text)).1 = .ok { dir := "tool", package := "tool" } := by
  intro text lines
  have hlines : Lined text.toList lines := lined_iff.2 (by decide +kernel)
  have hread : (lone text).tree.readText site.here (site.path (App.manifest "tool")) = .ok text :=
    Build.Twins.eq_ok_of_toOption (by decide +kernel)
  have hline : FirstMention lines "name = \"tool\"".toList := firstMention_iff.2 (by decide +kernel)
  have hcount : ∀ line, FirstMention lines line → line.count '"' ≠ 1 := by
    intro line h
    rw [← hline.unique h]
    decide +kernel
  obtain ⟨hclosed, -, -, hload⟩ := scanName_quoted hlines
  have hfound : scanName text = some "tool" := by
    refine (hclosed.2 hcount "tool").2 ⟨_, hline, "name = ".toList, [], ?_, ?_, ?_⟩
    all_goals decide +kernel
  refine ⟨hlines, hread, hcount, hfound, ?_⟩
  rw [hload site "tool" (lone text) hread, hfound]
  rfl

/-- A quote that is never closed gives a name, and the application is loaded with it. -/
theorem scanName_takes_open :
    let text := "[package]\nname = \"tool\n"
    let lines := ["[package]".toList, "name = \"tool".toList]
    let line := "name = \"tool".toList
    Lined text.toList lines ∧ FirstMention lines line ∧ line.count '"' = 1 ∧
      scanName text = some "tool" ∧
      (¬∃ line, FirstMention lines line ∧ Encloses line "tool".toList) ∧
      (App.load site "tool" .literal (lone text)).1 = .ok { dir := "tool", package := "tool" } := by
  intro text lines line
  have hlines : Lined text.toList lines := lined_iff.2 (by decide +kernel)
  have hread : (lone text).tree.readText site.here (site.path (App.manifest "tool")) = .ok text :=
    Build.Twins.eq_ok_of_toOption (by decide +kernel)
  have hline : FirstMention lines line := firstMention_iff.2 (by decide +kernel)
  have hcount : line.count '"' = 1 := by decide +kernel
  have hfound : scanName text = some "tool" := by decide +kernel
  refine ⟨hlines, hline, hcount, hfound, ?_, ?_⟩
  · rintro ⟨other, hother, henclosed⟩
    have htwo := henclosed.two_le_count
    rw [← hline.unique hother, hcount] at htwo
    omega
  · rw [load_literal hread, hfound]
    rfl

end BootVolume.Manifest
