import Mathlib.Data.List.DropRight
import Mathlib.Tactic.Lemma
import BootVolume.Files.Resolve

/-!
# Spelling places

The names on a path are its segments that are not idle. An absolute path whose names are those of a
place, without any step upwards, spells that place, and wherever links do not interfere it leads
nowhere else. Joining appends names (`names_join`), and the parent lacks the last one
(`names_of_parent?`).
-/

namespace BootVolume

section Pieces

variable {α : Type} {p : α → Bool}

lemma pieces_append_sep {sep : α} (hsep : p sep = true) (xs ys : List α) :
    pieces p (xs ++ sep :: ys) = pieces p xs ++ pieces p ys := by
  induction xs with
  | nil => simp [pieces, hsep]
  | cons a xs ih =>
    rw [List.cons_append, pieces, pieces, ih]
    split
    · rfl
    · obtain ⟨first, rest, h⟩ := List.exists_cons_of_ne_nil (pieces_ne_nil p xs)
      rw [h]
      rfl

lemma of_mem_pieces {xs piece : List α} (h : piece ∈ pieces p xs) :
    ∀ a ∈ piece, a ∈ xs ∧ p a = false := by
  induction xs generalizing piece with
  | nil =>
    rw [pieces, List.mem_singleton] at h
    simp [h]
  | cons a xs ih =>
    have later {piece : List α} (h : piece ∈ pieces p xs) :
        ∀ b ∈ piece, b ∈ a :: xs ∧ p b = false :=
      fun b hb => ⟨List.mem_cons_of_mem _ (ih h b hb).1, (ih h b hb).2⟩
    rw [pieces] at h
    split at h
    · rcases List.mem_cons.1 h with rfl | h
      · simp
      · exact later h
    · rename_i ha
      obtain ⟨first, rest, hxs⟩ := List.exists_cons_of_ne_nil (pieces_ne_nil p xs)
      rw [hxs] at h later
      rcases List.mem_cons.1 h with rfl | h
      · exact List.forall_mem_cons.2 ⟨by simpa using ha, later List.mem_cons_self⟩
      · exact later (List.mem_cons_of_mem _ h)

lemma pieces_intercalate {sep : α} (hsep : p sep = true) {segs : List (List α)} (hne : segs ≠ [])
    (h : ∀ seg ∈ segs, ∀ a ∈ seg, p a = false) : pieces p ([sep].intercalate segs) = segs := by
  induction segs with
  | nil => exact absurd rfl hne
  | cons seg rest ih =>
    have hseg : pieces p seg = [seg] := pieces_of_none (h seg List.mem_cons_self)
    cases rest with
    | nil => simpa [List.intercalate] using hseg
    | cons next rest =>
      have ih := ih (by simp) fun seg hmem => h seg (List.mem_cons_of_mem _ hmem)
      have split : [sep].intercalate (seg :: next :: rest) =
          seg ++ sep :: [sep].intercalate (next :: rest) := by
        simp [List.intercalate, List.intersperse]
      rw [split, pieces_append_sep hsep, hseg, ih]
      rfl

end Pieces

namespace Path

def names (p : Path) : List Bytes := p.segments.filter (!isIdle ·)

lemma isAbsolute_join {p q : Path} (hp : p.isAbsolute = true) (hq : q.isAbsolute = false) :
    (p.join q).isAbsolute = true := by
  rw [join, if_neg (by simp [hq])]
  obtain ⟨_ | ⟨first, rest⟩⟩ := p
  · simp [isAbsolute] at hp
  · split <;> exact hp

lemma pieces_append_slash (xs ys : Bytes) :
    pieces (· = slash) (xs ++ slash :: ys) = pieces (· = slash) xs ++ pieces (· = slash) ys :=
  pieces_append_sep (by simp) xs ys

lemma relative_join {p q : Path} (hp : p.isAbsolute = false) (hq : q.isAbsolute = false) :
    (p.join q).isAbsolute = false := by
  obtain ⟨_ | ⟨first, rest⟩⟩ := p
  · rwa [join, if_neg (by simp [hq])]
  · rw [join, if_neg (by simp [hq])]
    split <;> exact hp

lemma zero_not_mem_of_route? {p : Path} {route : Route} (h : p.route? = .ok route) :
    0 ∉ p.bytes := by
  intro hmem
  rw [route?, if_pos hmem] at h
  cases h

lemma zero_not_mem_of_join {p q : Path} (hq : q.isAbsolute = false) (h : 0 ∉ (p.join q).bytes) :
    0 ∉ p.bytes ∧ 0 ∉ q.bytes := by
  rw [join, if_neg (by simp [hq])] at h
  split at h
  · simpa using h
  · simp at h
    exact ⟨h.1, h.2.2⟩

lemma names_append_slash (xs ys : Bytes) :
    names ⟨xs ++ slash :: ys⟩ = names ⟨xs⟩ ++ names ⟨ys⟩ := by
  rw [names, segments, pieces_append_slash, List.filter_append]
  rfl

/-- Joining appends segments, but for empty ones. -/
lemma filter_segments_join {keep : Bytes → Bool} (hkeep : keep [] = false) {p q : Path}
    (hq : q.isAbsolute = false) :
    (p.join q).segments.filter keep = p.segments.filter keep ++ q.segments.filter keep := by
  rw [join, if_neg (by simp [hq])]
  simp only [segments]
  split
  case isTrue hlast =>
    rcases List.eq_nil_or_concat p.bytes with hp | ⟨front, last, hp⟩
    · simp [hp, pieces, hkeep]
    · obtain rfl : last = slash := by simpa [hp] using hlast
      rw [hp, List.concat_eq_append, List.append_assoc, List.singleton_append,
        pieces_append_slash, pieces_append_slash]
      simp [pieces, hkeep]
  case isFalse =>
    rw [pieces_append_slash, List.filter_append]

lemma names_join {p q : Path} (hq : q.isAbsolute = false) :
    (p.join q).names = p.names ++ q.names :=
  filter_segments_join (by simp [isIdle]) hq

lemma filter_trim (segs : List Bytes) :
    (segs.rdropWhile isIdle).filter (!isIdle ·) = segs.filter (!isIdle ·) := by
  induction segs using List.reverseRecOn with
  | nil => rfl
  | append_singleton segs last ih =>
    by_cases h : isIdle last = true
    · rw [List.rdropWhile_concat_pos _ _ _ h, ih, List.filter_append]
      simp [h]
    · rw [List.rdropWhile_concat_neg _ _ _ h]

lemma segments_of_isAbsolute {p : Path} (hp : p.isAbsolute = true) :
    ∃ rest, p.segments = [] :: rest := by
  obtain ⟨_ | ⟨first, rest⟩⟩ := p
  · simp [isAbsolute] at hp
  · obtain rfl : first = slash := by simpa [isAbsolute] using hp
    exact ⟨pieces (· = slash) rest, by simp [segments, pieces]⟩

lemma trimIdle_cons (first : Bytes) (rest : List Bytes) :
    trimIdle (first :: rest) = first :: rest.rdropWhile isIdle := rfl

/-- A path that begins with an empty segment and goes on is absolute, and its segments are those
that it was made of. -/
lemma ofSegments_spec {segs : List Bytes} (hne : segs ≠ []) (h : ∀ seg ∈ segs, slash ∉ seg) :
    (ofSegments ([] :: segs)).isAbsolute = true ∧
      (ofSegments ([] :: segs)).segments = [] :: segs := by
  obtain ⟨first, rest, rfl⟩ := List.exists_cons_of_ne_nil hne
  refine ⟨by simp [ofSegments, isAbsolute, List.intercalate, List.intersperse], ?_⟩
  refine pieces_intercalate (by simp) (by simp) fun seg hseg a ha => ?_
  rcases List.mem_cons.1 hseg with rfl | hseg
  · cases ha
  · exact decide_eq_false fun heq => h seg hseg (heq ▸ ha)

lemma names_of_parent? {p q : Path} (hp : p.isAbsolute = true) (h : p.parent? = some q) :
    q.isAbsolute = true ∧ q.names = p.names.dropLast := by
  obtain ⟨rest, hsegs⟩ := segments_of_isAbsolute hp
  have free : ∀ seg ∈ rest, slash ∉ seg := by
    intro seg hseg hmem
    have := (of_mem_pieces (show seg ∈ p.segments by simp [hsegs, hseg]) slash hmem).2
    simp at this
  have hnames : p.names = rest.filter (!isIdle ·) := by simp [names, hsegs, isIdle]
  rw [parent?, hsegs, trimIdle_cons] at h
  rcases List.eq_nil_or_concat (rest.rdropWhile isIdle) with hrest | ⟨front, last, hrest⟩
  · rw [hrest] at h
    cases h
  rw [List.concat_eq_append] at hrest
  have hlast : isIdle last = false := by
    have := List.rdropWhile_last_not isIdle rest (by simp [hrest])
    simpa [hrest] using this
  have hfront : p.names.dropLast = (front.rdropWhile isIdle).filter (!isIdle ·) := by
    rw [hnames, ← filter_trim, hrest, List.filter_append, filter_trim]
    simp [hlast]
  have trim : trimIdle ([] :: (front ++ [last])).dropLast = [] :: front.rdropWhile isIdle := by
    rw [← List.cons_append, List.dropLast_concat, trimIdle_cons]
  rw [hrest] at h
  rw [hfront]
  split at h
  case h_1 heq => cases heq
  case h_2 only heq =>
    obtain ⟨-, heq⟩ := List.cons.inj heq
    simp at heq
  case h_3 =>
    rw [trim] at h
    split at h
    case h_1 heq =>
      cases h
      rw [(List.cons.inj heq).2]
      exact ⟨rfl, rfl⟩
    case h_2 hne =>
      cases h
      have hne : front.rdropWhile isIdle ≠ [] := fun heq => hne (by rw [heq])
      have mem : ∀ seg ∈ front.rdropWhile isIdle, seg ∈ rest := fun seg hseg =>
        (List.rdropWhile_prefix isIdle rest).subset <| hrest ▸ List.mem_append_left _
          ((List.rdropWhile_prefix isIdle front).subset hseg)
      obtain ⟨absolute, segments⟩ := ofSegments_spec hne fun seg hseg => free seg (mem seg hseg)
      exact ⟨absolute, by simp [names, segments, isIdle]⟩

/-- Every ancestor is absolute and has names that the path begins with. -/
lemma names_of_mem_ancestors {p q : Path} (hp : p.isAbsolute = true) (h : q ∈ p.ancestors) :
    q.isAbsolute = true ∧ q.names <+: p.names := by
  rw [ancestors] at h
  generalize p.segments.length = steps at h
  induction steps generalizing p with
  | zero =>
    rw [ancestors.climb, List.mem_singleton] at h
    exact ⟨h ▸ hp, h ▸ List.prefix_refl _⟩
  | succ steps ih =>
    rw [ancestors.climb] at h
    rcases List.mem_cons.1 h with rfl | h
    · exact ⟨hp, List.prefix_refl _⟩
    · cases hparent : p.parent? with
      | none => simp [hparent] at h
      | some parent =>
        rw [hparent] at h
        obtain ⟨habs, hnames⟩ := names_of_parent? hp hparent
        obtain ⟨habs, hfront⟩ := ih habs h
        exact ⟨habs, hfront.trans (hnames ▸ List.dropLast_prefix _)⟩

/-- The path spells the place: it is absolute and goes through the names of the place, never
up. -/
structure Spells (p : Path) (place : Place) : Prop where
  absolute : p.isAbsolute = true
  names : p.names = place.map (·.bytes)

/-- The path leads from anywhere through the names, never up. -/
structure Leads (p : Path) (way : Place) : Prop where
  relative : p.isAbsolute = false
  names : p.names = way.map (·.bytes)

variable {p q : Path} {place way : Place}

lemma Leads.join (h : p.Leads place) (hq : q.Leads way) : (p.join q).Leads (place ++ way) where
  relative := relative_join h.relative hq.relative
  names := by rw [names_join hq.relative, h.names, hq.names, List.map_append]

namespace Spells

lemma unique {place' : Place} (h : p.Spells place) (h' : p.Spells place') : place = place' := by
  refine List.map_injective_iff.2 (fun a b hab => ?_) (h.names.symm.trans h'.names)
  cases a
  cases b
  simpa using hab

lemma join (h : p.Spells place) (hq : q.Leads way) : (p.join q).Spells (place ++ way) where
  absolute := isAbsolute_join h.absolute hq.relative
  names := by rw [names_join hq.relative, h.names, hq.names, List.map_append]

lemma parent? (h : p.Spells place) (hq : p.parent? = some q) : q.Spells place.dropLast := by
  obtain ⟨absolute, names⟩ := names_of_parent? h.absolute hq
  exact ⟨absolute, by rw [names, h.names, List.map_dropLast]⟩

lemma of_mem_ancestors (h : p.Spells place) (hq : q ∈ p.ancestors) :
    ∃ front, front <+: place ∧ q.Spells front := by
  obtain ⟨absolute, names⟩ := names_of_mem_ancestors h.absolute hq
  rw [h.names] at names
  obtain ⟨front, hfront, hnames⟩ := List.prefix_map_iff.1 names
  exact ⟨front, hfront, absolute, hnames⟩

end Spells

/-! ## Normal components -/

def Normal (p : Path) : Prop := ∀ c ∈ p.components, ∃ bytes, c = .name bytes

lemma normal_of_components {names : List Bytes} (h : p.components = names.map .name) :
    p.Normal := by
  intro c hc
  rw [h] at hc
  obtain ⟨bytes, -, rfl⟩ := List.mem_map.1 hc
  exact ⟨bytes, rfl⟩

lemma Normal.relative (h : p.Normal) : p.isAbsolute = false := by
  by_contra hp
  obtain ⟨first, rest, hsegs⟩ := List.exists_cons_of_ne_nil (pieces_ne_nil (· = slash) p.bytes)
  obtain ⟨bytes, hroot⟩ := h .root (by simp [components, segments, hsegs, hp])
  cases hroot

lemma Normal.dotDot_not_mem (h : p.Normal) : dotDot ∉ p.names := by
  intro hmem
  obtain ⟨first, rest, hsegs⟩ := List.exists_cons_of_ne_nil (pieces_ne_nil (· = slash) p.bytes)
  change p.segments = first :: rest at hsegs
  have hup : Component.up ∈ p.components := by
    rw [names, hsegs] at hmem
    rw [components, hsegs]
    rcases List.mem_cons.1 (List.mem_filter.1 hmem).1 with hfirst | hrest
    · simp [h.relative, ← hfirst, dotDot, dot, Component.ofSegment]
    · refine List.mem_append_right _ (List.mem_map.2 ⟨dotDot, ?_, rfl⟩)
      exact List.mem_filter.2 ⟨hrest, rfl⟩
  obtain ⟨bytes, hname⟩ := h .up hup
  cases hname

/-- A path that never goes up and holds no NUL has names of entries. -/
lemma exists_names (hup : dotDot ∉ p.names) (hzero : 0 ∉ p.bytes) :
    ∃ way : Place, p.names = way.map (·.bytes) := by
  have isName : ∀ seg ∈ p.names, IsName seg := by
    intro seg hseg
    obtain ⟨hmem, hidle⟩ := List.mem_filter.1 hseg
    have inside := of_mem_pieces hmem
    rw [Bool.not_eq_true', isIdle, Bool.or_eq_false_iff] at hidle
    refine ⟨by simpa using hidle.1, by simpa using hidle.2, ?_, ?_, fun h => hzero (inside 0 h).1⟩
    · rintro rfl
      exact hup hseg
    · intro h
      simpa using (inside slash h).2
  refine ⟨p.names.pmap Name.mk isName, ?_⟩
  rw [List.map_pmap]
  simp

lemma Normal.exists_leads (h : p.Normal) (hzero : 0 ∉ p.bytes) : ∃ way : Place, p.Leads way := by
  obtain ⟨way, hway⟩ := exists_names h.dotDot_not_mem hzero
  exact ⟨way, h.relative, hway⟩

lemma segments_name (name : Name) : segments ⟨name.bytes⟩ = [name.bytes] := by
  obtain ⟨-, -, -, hslash, -⟩ := name.isName
  exact pieces_of_none fun a ha => decide_eq_false fun heq => hslash (heq ▸ ha)

lemma leads_name (name : Name) : (⟨name.bytes⟩ : Path).Leads [name] := by
  obtain ⟨hempty, hdot, -, hslash, -⟩ := name.isName
  constructor
  · refine decide_eq_false fun h => hslash ?_
    exact List.mem_of_mem_head? h
  · simp [names, segments_name, isIdle, hempty, hdot]

end Path
end BootVolume
