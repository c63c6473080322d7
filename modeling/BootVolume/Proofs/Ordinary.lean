import BootVolume.Proofs.Scanning

/-!
# Ordinary manifests

A manifest that says of its package nothing but texts under bare keys, one on each line. As a
document it is read line by line to just these entries (`parse_packageText`); by its look the name
is found if no earlier line mentions one. So both ways of reading give the same package
(`load_ordinary`).
-/

namespace BootVolume

namespace Toml

/-- A character that stands for itself between double quotes. -/
def IsVerbatim (c : Char) : Prop :=
  c ≠ '"' ∧ c ≠ '\\' ∧ (c = '\t' ∨ 0x20 ≤ c.toNat ∧ c.toNat ≠ 0x7F)

instance : DecidablePred IsVerbatim := fun _ => inferInstanceAs (Decidable (_ ∧ _ ∧ _))

/-- A bare key with a text for its value. -/
structure TextPair where
  key : String
  value : String
  key_ne : key ≠ ""
  bare : ∀ c ∈ key.toList, c.isAlphanum = true ∨ c = '_' ∨ c = '-'
  verbatim : ∀ c ∈ value.toList, IsVerbatim c

/-- The pair that gives a package its name. -/
def TextPair.naming (value : String) (verbatim : ∀ c ∈ value.toList, IsVerbatim c) : TextPair where
  key := "name"
  value
  key_ne := by decide
  bare := List.forall_iff_forall_mem.1 (by decide +kernel)
  verbatim

def TextPair.line (pair : TextPair) : String := pair.key ++ " = \"" ++ pair.value ++ "\""

/-- A document that gives a package some pairs, one on each line; a line feed may close it. -/
def packageText (pairs : List TextPair) (closed : Bool) : String :=
  "\n".intercalate ("[package]" :: pairs.map TextPair.line) ++ if closed then "\n" else ""

variable {pair : TextPair} {pairs done before after : List TextPair} {text rest below : List Char}
  {key : String} {node : Node} {entries : Entries}

/-! ## Words -/

lemma IsVerbatim.isPlain {c : Char} (h : IsVerbatim c) : isPlain c = true := by
  obtain ⟨-, -, rfl | hrange⟩ := h
  · rfl
  · simp [Toml.isPlain, hrange]

lemma basicBody_append (h : ∀ c ∈ text, IsVerbatim c) (rest : List Char) :
    basicBody (text ++ '"' :: rest) = .ok (text, rest) := by
  induction text with
  | nil => rw [List.nil_append, basicBody]
  | cons c text ih =>
    have hc := h c List.mem_cons_self
    have ih := ih fun b hb => h b (List.mem_cons_of_mem c hb)
    rw [List.cons_append, basicBody, if_pos hc.isPlain, ih]
    · rfl
    all_goals simp [hc.1, hc.2.1]

/-- Behind the closing quote there is none that would make three of an empty text's two. -/
lemma string?_append (h : ∀ c ∈ text, IsVerbatim c) (hrest : rest.head? ≠ some '"') :
    string? ('"' :: (text ++ '"' :: rest)) = some (basicBody (text ++ '"' :: rest)) := by
  rw [string?.eq_def]
  cases text with
  | nil => split <;> simp_all
  | cons c text =>
    have hc := h c List.mem_cons_self
    split <;> simp_all [IsVerbatim]

lemma value_append (h : ∀ c ∈ text, IsVerbatim c) (hrest : rest.head? ≠ some '"') (depth : Nat) :
    value depth ('"' :: (text ++ '"' :: rest)) = .ok (.string (String.ofList text), rest) := by
  unfold value
  rw [string?_append h hrest, basicBody_append h]
  rfl

namespace TextPair

lemma isBare (pair : TextPair) : ∀ c ∈ pair.key.toList, Toml.isBare c = true := by
  intro c hc
  rcases pair.bare c hc with h | rfl | rfl
  · simp [Toml.isBare, h]
  · rfl
  · rfl

lemma exists_key (pair : TextPair) : ∃ c cs, pair.key.toList = c :: cs := by
  apply List.exists_cons_of_ne_nil
  simpa using pair.key_ne

lemma toList_line (pair : TextPair) :
    pair.line.toList =
      pair.key.toList ++ ' ' :: '=' :: ' ' :: '"' :: (pair.value.toList ++ ['"']) := by
  simp [line]

end TextPair

lemma ne_of_isBare {c d : Char} (hc : isBare c = true) (hd : isBare d = false) : c ≠ d := by
  rintro rfl
  rw [hc] at hd
  cases hd

lemma skipSpace_of_not {c : Char} (h : isSpace c = false) (cs : List Char) :
    skipSpace (c :: cs) = c :: cs := by
  rw [skipSpace, List.dropWhile_cons_of_neg (by simp [h])]

lemma skipSpace_blank (cs : List Char) : skipSpace (' ' :: cs) = skipSpace cs := by
  rw [skipSpace, skipSpace, List.dropWhile_cons_of_pos rfl]

lemma isSpace_of_isBare {c : Char} (h : isBare c = true) : isSpace c = false := by
  rw [isSpace, Bool.or_eq_false_iff, decide_eq_false_iff_not, decide_eq_false_iff_not]
  exact ⟨ne_of_isBare h rfl, ne_of_isBare h rfl⟩

lemma keyPart_append (pair : TextPair) (rest : List Char) :
    keyPart (pair.key.toList ++ ' ' :: rest) = .ok (pair.key.toList, ' ' :: rest) := by
  have htake : (pair.key.toList ++ ' ' :: rest).takeWhile isBare = pair.key.toList := by
    rw [List.takeWhile_append_of_pos pair.isBare, List.takeWhile_cons_of_neg (by decide),
      List.append_nil]
  have hdrop : (pair.key.toList ++ ' ' :: rest).dropWhile isBare = ' ' :: rest := by
    rw [List.dropWhile_append_of_pos pair.isBare, List.dropWhile_cons_of_neg (by decide)]
  obtain ⟨c, cs, hkey⟩ := pair.exists_key
  have hc : isBare c = true := pair.isBare c (by simp [hkey])
  rw [keyPart.eq_def]
  split
  case h_1 heq =>
    rw [hkey] at heq
    exact absurd (List.cons.inj heq).1 (ne_of_isBare hc rfl)
  case h_2 heq =>
    rw [hkey] at heq
    exact absurd (List.cons.inj heq).1 (ne_of_isBare hc rfl)
  case h_3 =>
    rw [htake, hdrop, if_neg (by simp [hkey])]

lemma key_append (pair : TextPair) (rest : List Char) :
    Toml.key (pair.key.toList ++ ' ' :: '=' :: rest) = .ok ([pair.key], '=' :: rest) := by
  obtain ⟨c, cs, hkey⟩ := pair.exists_key
  have hc : isBare c = true := pair.isBare c (by simp [hkey])
  have hfront : skipSpace (pair.key.toList ++ ' ' :: '=' :: rest) =
      pair.key.toList ++ ' ' :: '=' :: rest := by
    rw [hkey, List.cons_append, skipSpace_of_not (isSpace_of_isBare hc)]
  have hback : skipSpace (' ' :: '=' :: rest) = '=' :: rest := by
    rw [skipSpace_blank, skipSpace_of_not rfl]
  rw [Toml.key, depthLimit, keyParts, hfront, keyPart_append]
  simp only [bind, Except.bind, hback]
  rw [String.ofList_toList]
  rfl

/-- A line is read as its pair, up to its closing quote. -/
lemma pair_append (pair : TextPair) (hrest : rest.head? ≠ some '"') :
    Toml.pair (value depthLimit) (pair.line.toList ++ rest) =
      .ok ([pair.key], .string pair.value, rest) := by
  have hline : pair.line.toList ++ rest =
      pair.key.toList ++ ' ' :: '=' :: ' ' :: '"' :: (pair.value.toList ++ '"' :: rest) := by
    simp [pair.toList_line]
  have hvalue : skipSpace (' ' :: '"' :: (pair.value.toList ++ '"' :: rest)) =
      '"' :: (pair.value.toList ++ '"' :: rest) := by
    rw [skipSpace_blank, skipSpace_of_not rfl]
  rw [hline, Toml.pair, key_append]
  simp only [bind, Except.bind, hvalue, value_append pair.verbatim hrest, String.ofList_toList]
  rfl

/-! ## Entries -/

namespace Entries

lemma get?_eq_none_iff : entries.get? key = none ↔ key ∉ entries.map Prod.fst := by
  rw [get?, Option.map_eq_none_iff, List.find?_eq_none]
  constructor
  · intro h hkey
    obtain ⟨entry, hentry, rfl⟩ := List.mem_map.1 hkey
    simpa using h entry hentry
  · intro h entry hentry hkey
    apply h
    rw [← of_decide_eq_true hkey]
    exact List.mem_map_of_mem hentry

lemma set_of_not_mem (h : key ∉ entries.map Prod.fst) (node : Node) :
    entries.set key node = entries ++ [(key, node)] := by
  induction entries with
  | nil => rfl
  | cons entry entries ih =>
    rw [List.map_cons, List.mem_cons, not_or] at h
    rw [set, if_neg (Ne.symm h.1), ih h.2]
    rfl

end Entries

/-- The entries that pairs make. -/
def textEntries (pairs : List TextPair) : Entries :=
  pairs.map fun pair => (pair.key, .string pair.value)

lemma keys_textEntries (pairs : List TextPair) :
    (textEntries pairs).map Prod.fst = pairs.map TextPair.key := by
  rw [textEntries, List.map_map]
  rfl

/-- Where all keys are different, none before a pair is its own. -/
lemma key_not_mem_of_nodup (h : ((before ++ pair :: after).map TextPair.key).Nodup) :
    pair.key ∉ before.map TextPair.key := by
  rw [List.map_append, List.nodup_append] at h
  intro hmem
  exact h.2.2 _ hmem _ List.mem_cons_self rfl

lemma get?_textEntries (h : pair.key ∉ before.map TextPair.key) (after : List TextPair) :
    (textEntries (before ++ pair :: after)).get? pair.key = some (.string pair.value) := by
  have hbefore : (textEntries before).find? (·.1 = pair.key) = none := by
    rw [← keys_textEntries, ← Entries.get?_eq_none_iff] at h
    exact Option.map_eq_none_iff.1 h
  rw [Entries.get?, textEntries, List.map_append, ← textEntries, List.find?_append, hbefore,
    Option.none_or, List.map_cons, List.find?_cons_of_pos (by simp)]
  rfl

/-! ## Lines -/

/-- What stands behind a line: the end of the document, or a line feed and the lines below. -/
def linesBelow (closed : Bool) : List TextPair → List Char
  | [] => if closed then ['\n'] else []
  | pair :: pairs => '\n' :: (pair.line.toList ++ linesBelow closed pairs)

lemma toList_packageText (pairs : List TextPair) (closed : Bool) :
    (packageText pairs closed).toList =
      ['\n'].intercalate ("[package]".toList :: pairs.map fun pair => pair.line.toList) ++
        if closed then ['\n'] else [] := by
  rw [packageText, String.toList_append, String.toList_intercalate, List.map_cons, List.map_map]
  cases closed with
  | false => rfl
  | true => rfl

lemma packageText_eq_append (pairs : List TextPair) (closed : Bool) :
    (packageText pairs closed).toList = "[package]".toList ++ linesBelow closed pairs := by
  rw [toList_packageText]
  generalize "[package]".toList = first
  induction pairs generalizing first with
  | nil => simp [linesBelow, List.intercalate]
  | cons pair pairs ih =>
    rw [linesBelow, ← ih]
    simp [List.intercalate]

lemma head?_linesBelow (closed : Bool) (pairs : List TextPair) :
    (linesBelow closed pairs).head? ≠ some '"' := by
  cases pairs with
  | nil => cases closed <;> simp [linesBelow]
  | cons pair pairs => simp [linesBelow]

lemma restOfLine_linesBelow (closed : Bool) (pairs : List TextPair) :
    restOfLine (linesBelow closed pairs) = .ok (linesBelow closed pairs).tail := by
  cases pairs with
  | nil => cases closed <;> rfl
  | cons pair pairs => rfl

lemma length_le_linesBelow (closed : Bool) (pairs : List TextPair) :
    pairs.length ≤ (linesBelow closed pairs).length := by
  induction pairs with
  | nil => simp
  | cons pair pairs ih =>
    rw [linesBelow, List.length_cons, List.length_cons, List.length_append]
    omega

/-- What has been read once some pairs of the package have been. -/
def packageDraft (pairs : List TextPair) : Draft where
  entries := [("package", .table .header (textEntries pairs))]
  current := ["package"]

lemma line_header (closed : Bool) (pairs : List TextPair) :
    line {} ("[package]".toList ++ linesBelow closed pairs) =
      .ok (packageDraft [], some (linesBelow closed pairs).tail) := by
  have hkey : Toml.key ("package]".toList ++ linesBelow closed pairs) =
      .ok (["package"], ']' :: linesBelow closed pairs) := rfl
  have hheader : ({} : Draft).header Entries.openTable ["package"] = .ok (packageDraft []) := rfl
  have hsplit : "[package]".toList = '[' :: "package]".toList := rfl
  rw [hsplit, List.cons_append, line.eq_def, skipSpace_of_not rfl]
  split
  case h_2 heq =>
    rw [List.cons.injEq] at heq
    cases heq.2
  case h_3 heq =>
    obtain rfl := (List.cons.inj heq).2
    rw [hkey]
    simp only [bind, Except.bind, hheader, restOfLine_linesBelow]
    rfl
  case h_1 heq => cases heq
  case h_4 hsingle heq => exact (hsingle (List.cons.inj heq).1.symm).elim

/-- The key is new to the package. -/
lemma packageDraft_pair (h : pair.key ∉ done.map TextPair.key) :
    (packageDraft done).pair [pair.key] (.string pair.value) =
      .ok (packageDraft (done ++ [pair])) := by
  have hnew : pair.key ∉ (textEntries done).map Prod.fst := by rwa [keys_textEntries]
  have hdefine : (textEntries done).define (.string pair.value) [pair.key] .header true =
      .ok (textEntries (done ++ [pair])) := by
    rw [Entries.define, Entries.get?_eq_none_iff.2 hnew, if_neg (by simp),
      Entries.set_of_not_mem hnew, textEntries, textEntries, List.map_append]
    rfl
  rw [Draft.pair]
  simp only [packageDraft, Entries.inTable, Entries.get?, List.find?_cons, decide_true,
    Option.map_some, hdefine]
  rfl

/-- A line that begins with a bare key is a pair. -/
lemma line_of_isBare {c : Char} (hc : isBare c = true) (draft : Draft) (cs : List Char) :
    line draft (c :: cs) = do
      let (parts, node, rest) ← Toml.pair (value depthLimit) (c :: cs)
      return (← draft.pair parts node, some (← restOfLine rest)) := by
  have hne (d : Char) (hd : isBare d = false) : c ≠ d := ne_of_isBare hc hd
  rw [line.eq_def, skipSpace_of_not (isSpace_of_isBare hc)]
  split
  case h_1 heq => cases heq
  case h_2 heq => exact absurd (List.cons.inj heq).1 (hne '[' rfl)
  case h_3 heq => exact absurd (List.cons.inj heq).1 (hne '[' rfl)
  case h_4 heq =>
    obtain ⟨rfl, rfl⟩ := List.cons.inj heq
    rw [if_neg (by simp [hne '#' rfl, hne '\n' rfl, hne '\r' rfl])]

lemma line_pair (h : pair.key ∉ done.map TextPair.key) (closed : Bool) (pairs : List TextPair) :
    line (packageDraft done) (pair.line.toList ++ linesBelow closed pairs) =
      .ok (packageDraft (done ++ [pair]), some (linesBelow closed pairs).tail) := by
  obtain ⟨c, cs, hkey⟩ := pair.exists_key
  have hpair := pair_append pair (head?_linesBelow closed pairs)
  obtain ⟨front, hfront⟩ : ∃ front, pair.line.toList ++ linesBelow closed pairs = c :: front := by
    simp [pair.toList_line, hkey]
  rw [hfront] at hpair ⊢
  rw [line_of_isBare (pair.isBare c (by simp [hkey])), hpair]
  simp only [bind, Except.bind, packageDraft_pair h, restOfLine_linesBelow]
  rfl

lemma lines_pairs (closed : Bool) (hkeys : ((done ++ pairs).map TextPair.key).Nodup) {count : Nat}
    (hcount : pairs.length < count) :
    lines count (packageDraft done) (linesBelow closed pairs).tail =
      .ok (packageDraft (done ++ pairs)) := by
  induction pairs generalizing done count with
  | nil =>
    obtain ⟨count, rfl⟩ := Nat.exists_eq_succ_of_ne_zero (Nat.ne_of_gt hcount)
    have hend : (linesBelow closed []).tail = [] := by cases closed <;> rfl
    rw [hend, List.append_nil]
    rfl
  | cons pair pairs ih =>
    obtain ⟨count, rfl⟩ := Nat.exists_eq_succ_of_ne_zero (Nat.ne_zero_of_lt hcount)
    have hnew := key_not_mem_of_nodup hkeys
    have hrest := @ih (done ++ [pair]) (by simpa using hkeys) count (by simpa using hcount)
    rw [linesBelow, List.tail_cons, lines, line_pair hnew]
    rw [List.append_assoc] at hrest
    exact hrest

/-- The document has the package and nothing else, with its pairs in their order. -/
lemma parse_packageText (hkeys : (pairs.map TextPair.key).Nodup) (closed : Bool) :
    parse (packageText pairs closed) =
      .ok [("package", .table .header (textEntries pairs))] := by
  have hmark : skipMark (packageText pairs closed).toList = (packageText pairs closed).toList := by
    rw [packageText_eq_append]
    rfl
  have hlength := length_le_linesBelow closed pairs
  have hlines := @lines_pairs pairs [] closed hkeys
    ((packageText pairs closed).toList.length + 1) (by simp [packageText_eq_append]; omega)
  rw [parse, hmark, lines, packageText_eq_append, line_header, ← packageText_eq_append]
  simp only [bind, Except.bind, hlines]
  rfl

/-! ## The lines of the document as a text -/

lemma newline_not_mem_line (pair : TextPair) : '\n' ∉ pair.line.toList := by
  intro hmem
  rw [pair.toList_line, List.mem_append] at hmem
  rcases hmem with hkey | hvalue
  · exact ne_of_isBare (pair.isBare _ hkey) rfl rfl
  · have hvalue : '\n' ∈ pair.value.toList := by simpa using hvalue
    have hplain := (pair.verbatim _ hvalue).isPlain
    cases hplain

lemma lined_packageText (pairs : List TextPair) (closed : Bool) :
    Lined (packageText pairs closed).toList
      ("[package]".toList :: pairs.map fun pair => pair.line.toList) := by
  have hlined := lined_intercalate (List.cons_ne_nil "[package]".toList
    (pairs.map fun pair => pair.line.toList)) ?_ closed
  · rwa [toList_packageText]
  · intro line hline
    rcases List.mem_cons.1 hline with rfl | hline
    · decide +kernel
    · obtain ⟨pair, -, rfl⟩ := List.mem_map.1 hline
      refine ⟨?_, newline_not_mem_line pair, ?_⟩
      · simp [pair.toList_line]
      · have hlast : pair.line.toList =
            (pair.key.toList ++ " = \"".toList ++ pair.value.toList) ++ ['"'] := by
          simp [pair.toList_line]
        rw [hlast, List.getLast?_concat]
        simp

end Toml

namespace Manifest

open Toml (TextPair packageText)

variable {before after : List TextPair} {name : TextPair}

lemma parseName_packageText (hname : name.key = "name")
    (hkeys : ((before ++ name :: after).map TextPair.key).Nodup) (closed : Bool) :
    parseName (packageText (before ++ name :: after) closed) = .ok (some name.value) := by
  have hget := Toml.get?_textEntries (Toml.key_not_mem_of_nodup hkeys) after
  rw [hname] at hget
  have hpackage : packageName (.table .header (Toml.textEntries (before ++ name :: after))) =
      .ok name.value := by
    rw [packageName, nameIn, hget]
    rfl
  have hentry (node : Toml.Node) :
      Toml.Entries.get? [("package", node)] "package" = some node := rfl
  rw [parseName, Toml.parse_packageText hkeys]
  dsimp only
  rw [hentry]
  dsimp only
  rw [hpackage]
  rfl

lemma scanName_packageText (hname : name.key = "name")
    (hbefore : ∀ pair ∈ before, ¬"name".toList <:+: pair.line.toList) (closed : Bool) :
    scanName (packageText (before ++ name :: after) closed) = some name.value := by
  rw [scanName_eq_some_iff (Toml.lined_packageText _ closed)]
  refine ⟨name.line.toList, ?_, Encloses.firstQuoted?_eq ?_⟩
  · refine ⟨"[package]".toList :: before.map fun pair => pair.line.toList,
      after.map fun pair => pair.line.toList, ?_, ?_, ?_⟩
    · simp
    · rw [name.toList_line, hname]
      exact (List.prefix_append _ _).isInfix
    · intro other hother
      rcases List.mem_cons.1 hother with rfl | hother
      · decide +kernel
      · obtain ⟨pair, hpair, rfl⟩ := List.mem_map.1 hother
        exact hbefore pair hpair
  · refine ⟨"name".toList ++ [' ', '=', ' '], [], ?_, by decide +kernel, ?_⟩
    · rw [name.toList_line, hname]
      simp
    · intro hmem
      exact (name.verbatim _ hmem).1 rfl

lemma readName_packageText (hname : name.key = "name")
    (hkeys : ((before ++ name :: after).map TextPair.key).Nodup)
    (hbefore : ∀ pair ∈ before, ¬"name".toList <:+: pair.line.toList) (closed : Bool)
    (scan : ManifestScan) :
    readName scan (packageText (before ++ name :: after) closed) = .ok (some name.value) := by
  cases scan with
  | literal => rw [readName, scanName_packageText hname hbefore]
  | strict => rw [readName, parseName_packageText hname hkeys]

/-- An application with an ordinary manifest is loaded with the package that is named there, by its
look as by parsing it, unless an earlier line looks as if it named one. -/
theorem load_ordinary (hname : name.key = "name")
    (hkeys : ((before ++ name :: after).map TextPair.key).Nodup)
    (hbefore : ∀ pair ∈ before, ¬"name".toList <:+: pair.line.toList) (closed : Bool)
    {site : Site} {dir : String} {w : World} {executable : Bool}
    (hfile : w.tree.HasFile site.here (site.path (App.manifest dir))
      (Utf8.encode (packageText (before ++ name :: after) closed)) executable)
    (scan : ManifestScan) :
    (App.load site dir scan w).1 = .ok { dir, package := name.value } := by
  obtain ⟨place, hfind⟩ := hfile
  have hread : w.tree.readText site.here (site.path (App.manifest dir)) =
      .ok (packageText (before ++ name :: after) closed) := by
    rw [FileTree.readText, hfind]
    dsimp only
    rw [Utf8.decode?_encode]
  rw [App.load_apply]
  dsimp only
  rw [hread]
  dsimp only
  rw [readName_packageText hname hkeys hbefore]

namespace Sample

def edition : TextPair where
  key := "edition"
  value := "2021"
  key_ne := by decide
  bare := List.forall_iff_forall_mem.1 (by decide +kernel)
  verbatim := List.forall_iff_forall_mem.1 (by decide +kernel)

def title : TextPair := .naming "ysos_shell" (List.forall_iff_forall_mem.1 (by decide +kernel))

/-- A pair that looks as if it named the package. -/
def nickname : TextPair where
  key := "nick-name"
  value := "name = a\tö"
  key_ne := by decide
  bare := List.forall_iff_forall_mem.1 (by decide +kernel)
  verbatim := List.forall_iff_forall_mem.1 (by decide +kernel)

end Sample

open Build.Twins (site) in
/-- A package with a line in front of its name and one behind it. -/
theorem load_ordinary_shell :
    let before := [Sample.edition]
    let after := [Sample.nickname]
    let text := packageText (before ++ Sample.title :: after) true
    Sample.title.key = "name" ∧ ((before ++ Sample.title :: after).map TextPair.key).Nodup ∧
      (∀ pair ∈ before, ¬"name".toList <:+: pair.line.toList) ∧
      (lone text).tree.HasFile site.here (site.path (App.manifest "tool"))
        (Utf8.encode text) false ∧
      ∀ scan, (App.load site "tool" scan (lone text)).1 =
        .ok { dir := "tool", package := "ysos_shell" } := by
  intro before after text
  have hkeys : ((before ++ Sample.title :: after).map TextPair.key).Nodup := by decide +kernel
  have hbefore : ∀ pair ∈ before, ¬"name".toList <:+: pair.line.toList := by decide +kernel
  have hfile : (lone text).tree.HasFile site.here (site.path (App.manifest "tool"))
      (Utf8.encode text) false :=
    ⟨Build.Twins.place "pkg/app/tool/Cargo.toml",
      Build.Twins.eq_ok_of_toOption (by decide +kernel)⟩
  exact ⟨rfl, hkeys, hbefore, hfile, load_ordinary rfl hkeys hbefore true hfile⟩

end Manifest
end BootVolume
