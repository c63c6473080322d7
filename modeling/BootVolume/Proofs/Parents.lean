import BootVolume.Proofs.Spelling

/-!
# The bytes of parents

How the segments of a path make its bytes, and what taking the parent leaves of them: the bytes of a
parent are some that the path begins with (`Path.exists_parent?`).
-/

namespace BootVolume

section Pieces

variable {α : Type} {p : α → Bool} {sep : α}

/-- Pieces put together again are what they were cut from. -/
lemma intercalate_pieces (hp : ∀ a, p a = true → a = sep) (xs : List α) :
    [sep].intercalate (pieces p xs) = xs := by
  induction xs with
  | nil => rfl
  | cons a xs ih =>
    obtain ⟨first, rest, hpieces⟩ := List.exists_cons_of_ne_nil (pieces_ne_nil p xs)
    rw [pieces]
    rw [hpieces] at ih ⊢
    split
    · rename_i ha
      rw [hp a ha]
      conv_rhs => rw [← ih]
      simp [List.intercalate, List.intersperse]
    · conv_rhs => rw [← ih]
      cases rest <;> simp [List.intercalate, List.intersperse, List.modifyHead]

lemma intercalate_prefix (sep : α) {front segs : List (List α)} (hfront : front <+: segs) :
    [sep].intercalate front <+: [sep].intercalate segs := by
  obtain ⟨rest, rfl⟩ := hfront
  induction front with
  | nil => exact List.nil_prefix
  | cons seg front ih =>
    cases front with
    | nil =>
      cases rest with
      | nil => simp
      | cons next rest => simp [List.intercalate, List.intersperse]
    | cons next front =>
      have split (others : List (List α)) : [sep].intercalate (seg :: next :: others) =
          seg ++ sep :: [sep].intercalate (next :: others) := by
        simp [List.intercalate, List.intersperse]
      rw [List.cons_append, List.cons_append, split, split, List.prefix_append_right_inj,
        List.cons_prefix_cons]
      exact ⟨rfl, ih⟩

lemma exists_mem_pieces {xs : List α} {a : α} (ha : a ∈ xs) (hsep : p a = false) :
    ∃ piece ∈ pieces p xs, a ∈ piece := by
  induction xs with
  | nil => cases ha
  | cons b xs ih =>
    obtain ⟨first, rest, hpieces⟩ := List.exists_cons_of_ne_nil (pieces_ne_nil p xs)
    rw [hpieces] at ih
    rw [pieces, hpieces]
    split
    · rename_i hb
      obtain rfl | ha := List.mem_cons.1 ha
      · rw [hb] at hsep
        cases hsep
      · obtain ⟨piece, hpiece, hmem⟩ := ih ha
        exact ⟨piece, List.mem_cons_of_mem _ hpiece, hmem⟩
    · obtain rfl | ha := List.mem_cons.1 ha
      · exact ⟨a :: first, List.mem_cons_self, List.mem_cons_self⟩
      · obtain ⟨piece, hpiece, hmem⟩ := ih ha
        obtain rfl | hpiece := List.mem_cons.1 hpiece
        · exact ⟨b :: piece, List.mem_cons_self, List.mem_cons_of_mem _ hmem⟩
        · exact ⟨piece, List.mem_cons_of_mem _ hpiece, hmem⟩

end Pieces

namespace Path

variable {p q : Path}

lemma ofSegments_segments (p : Path) : ofSegments p.segments = p := by
  rw [ofSegments, segments, intercalate_pieces fun a ha => by simpa using ha]

lemma bytes_prefix_of_segments (h : p.segments <+: q.segments) : p.bytes <+: q.bytes := by
  have hbytes := intercalate_prefix slash h
  rwa [show [slash].intercalate p.segments = p.bytes from
      congrArg Path.bytes (ofSegments_segments p),
    show [slash].intercalate q.segments = q.bytes from
      congrArg Path.bytes (ofSegments_segments q)] at hbytes

lemma zero_mem_of_names {seg : Bytes} (hseg : seg ∈ p.names) (hzero : 0 ∈ seg) :
    0 ∈ p.bytes :=
  (of_mem_pieces (List.mem_filter.1 hseg).1 0 hzero).1

lemma exists_zero_mem_names (hzero : 0 ∈ p.bytes) : ∃ seg ∈ p.names, 0 ∈ seg := by
  obtain ⟨seg, hseg, hmem⟩ := exists_mem_pieces (p := (· = slash)) hzero (by decide)
  refine ⟨seg, List.mem_filter.2 ⟨hseg, ?_⟩, hmem⟩
  rw [Bool.not_eq_true', isIdle, Bool.or_eq_false_iff]
  refine ⟨by simpa using List.ne_nil_of_mem hmem, decide_eq_false ?_⟩
  rintro rfl
  exact absurd hmem (by decide)

/-- What is joined to a path comes after segments that are always the same. -/
lemma exists_segments_join (p : Path) :
    ∃ front, ∀ q : Path, q.isAbsolute = false → (p.join q).segments = front ++ q.segments := by
  by_cases hlast : p.bytes.getLast?.all (· = slash) = true
  · rcases List.eq_nil_or_concat p.bytes with hp | ⟨front, last, hp⟩
    · refine ⟨[], fun q hq => ?_⟩
      rw [join, if_neg (by simp [hq]), if_pos hlast, hp]
      rfl
    · obtain rfl : last = slash := by simpa [hp] using hlast
      refine ⟨segments ⟨front⟩, fun q hq => ?_⟩
      rw [join, if_neg (by simp [hq]), if_pos hlast, segments, hp, List.concat_eq_append,
        List.append_assoc, List.singleton_append, pieces_append_slash]
      rfl
  · refine ⟨p.segments, fun q hq => ?_⟩
    rw [join, if_neg (by simp [hq]), if_neg hlast, segments, pieces_append_slash]
    rfl

lemma bytes_prefix_join (p : Path) (hq : q.isAbsolute = false) : p.bytes <+: (p.join q).bytes := by
  rw [join, if_neg (by simp [hq])]
  split <;> exact List.prefix_append _ _

lemma length_join_le (p q : Path) :
    (p.join q).bytes.length ≤ p.bytes.length + (q.bytes.length + 1) := by
  unfold join
  split_ifs
  · omega
  · simp
  · simp

lemma exists_ancestors (p : Path) : ∃ above, p.ancestors = p :: above := by
  rw [ancestors]
  cases p.segments.length <;> exact ⟨_, rfl⟩

/-- The path ends in the name of an entry, with neither a slash nor a dot behind it. -/
def Pointed (p : Path) : Prop := ∃ front last, p.segments = front ++ [last] ∧ isIdle last = false

lemma Pointed.join (p : Path) (hq : q.isAbsolute = false) (h : q.Pointed) :
    (p.join q).Pointed := by
  obtain ⟨start, hstart⟩ := exists_segments_join p
  obtain ⟨front, last, hsegs, hlast⟩ := h
  exact ⟨start ++ front, last, by rw [hstart q hq, hsegs, List.append_assoc], hlast⟩

lemma pointed_name (name : Name) : (⟨name.bytes⟩ : Path).Pointed := by
  obtain ⟨hempty, hdot, -⟩ := name.isName
  exact ⟨[], name.bytes, segments_name name, by simp [isIdle, hempty, hdot]⟩

lemma Pointed.getLast?_ne_slash (h : p.Pointed) : p.bytes.getLast? ≠ some slash := by
  obtain ⟨front, last, hsegs, hlast⟩ := h
  intro hslash
  obtain ⟨start, hp⟩ := List.getLast?_eq_some_iff.1 hslash
  have hsplit : p.segments = segments ⟨start⟩ ++ [[]] := by
    rw [segments, hp, pieces_append_slash]
    rfl
  have hsame : front ++ [last] = segments ⟨start⟩ ++ [[]] := hsegs.symm.trans hsplit
  obtain ⟨-, hempty⟩ := List.append_inj' hsame rfl
  rw [(List.cons.inj hempty).1] at hlast
  cases hlast

/-- The parent of an absolute path, as soon as its last name is known. -/
lemma parent?_of_segments {rest front : List Bytes} {last : Bytes}
    (hsegs : p.segments = [] :: rest) (hrest : rest.rdropWhile isIdle = front ++ [last]) :
    p.parent? = some (if front.rdropWhile isIdle = [] then ⟨[slash]⟩
      else ofSegments ([] :: front.rdropWhile isIdle)) := by
  have trim : trimIdle ([] :: (front ++ [last])).dropLast = [] :: front.rdropWhile isIdle := by
    rw [← List.cons_append, List.dropLast_concat, trimIdle_cons]
  rw [parent?, hsegs, trimIdle_cons, hrest]
  split
  case h_1 heq => cases heq
  case h_2 only heq => simp at heq
  case h_3 =>
    rw [trim]
    split
    · rename_i heq
      rw [if_pos (List.cons.inj heq).2]
    · rename_i hne
      rw [if_neg fun heq => hne (by rw [heq])]

/-- An absolute path with names has a parent. Its bytes are some that the path begins with, and it
ends in a name, unless it has none. -/
lemma exists_parent? (hp : p.isAbsolute = true) (hnames : p.names ≠ []) :
    ∃ q, p.parent? = some q ∧ q.bytes <+: p.bytes ∧ (q.Pointed ∨ q.names = []) := by
  obtain ⟨rest, hsegs⟩ := segments_of_isAbsolute hp
  have hrest : rest.rdropWhile isIdle ≠ [] := by
    intro heq
    refine hnames ?_
    rw [names, hsegs, List.filter_cons_of_neg (by simp [isIdle]), ← filter_trim, heq]
    rfl
  obtain ⟨front, last, htrim⟩ := (List.eq_nil_or_concat _).resolve_left hrest
  rw [List.concat_eq_append] at htrim
  refine ⟨_, parent?_of_segments hsegs htrim, ?_⟩
  split
  · refine ⟨?_, .inr rfl⟩
    obtain ⟨tail, hbytes⟩ := List.head?_eq_some_iff.1 (of_decide_eq_true hp)
    exact ⟨tail, hbytes.symm⟩
  · rename_i hne
    have hfront : front.rdropWhile isIdle <+: rest :=
      (List.rdropWhile_prefix isIdle front).trans
        ((List.prefix_append front [last]).trans (htrim ▸ List.rdropWhile_prefix isIdle rest))
    have hfree : ∀ seg ∈ front.rdropWhile isIdle, slash ∉ seg := by
      intro seg hseg hmem
      have hmem' : seg ∈ p.segments := by
        rw [hsegs]
        exact List.mem_cons_of_mem _ (hfront.subset hseg)
      have := (of_mem_pieces hmem' slash hmem).2
      simp at this
    obtain ⟨-, hsegs'⟩ := ofSegments_spec hne hfree
    refine ⟨bytes_prefix_of_segments ?_, .inl ?_⟩
    · rw [hsegs', hsegs, List.cons_prefix_cons]
      exact ⟨rfl, hfront⟩
    · obtain ⟨start, final, hlast⟩ := (List.eq_nil_or_concat _).resolve_left hne
      rw [List.concat_eq_append] at hlast
      refine ⟨[] :: start, final, by rw [hsegs', hlast]; rfl, ?_⟩
      have := List.rdropWhile_last_not isIdle front hne
      simpa [hlast] using this

/-- A path that ends in a name is the parent of what has one more. -/
lemma parent?_of_pointed (hq : q.isAbsolute = true) (h : q.Pointed) {last : Bytes}
    (hlast : isIdle last = false) (hsegs : p.segments = q.segments ++ [last]) :
    p.parent? = some q := by
  obtain ⟨rest, hrest⟩ := segments_of_isAbsolute hq
  obtain ⟨front, final, hfinal, hidle⟩ := h
  have hne : rest ≠ [] := by
    rintro rfl
    have heq : front ++ [final] = [] ++ [[]] := hfinal.symm.trans hrest
    obtain ⟨-, hempty⟩ := List.append_inj' heq rfl
    rw [(List.cons.inj hempty).1] at hidle
    cases hidle
  obtain ⟨start, end', hsplit⟩ := (List.eq_nil_or_concat rest).resolve_left hne
  rw [List.concat_eq_append] at hsplit
  have hend : isIdle end' = false := by
    have heq : front ++ [final] = ([] :: start) ++ [end'] := by
      rw [← hfinal, hrest, hsplit]
      rfl
    obtain ⟨-, hsame⟩ := List.append_inj' heq rfl
    rw [← (List.cons.inj hsame).1]
    exact hidle
  have htrim : rest.rdropWhile isIdle = rest := by
    rw [hsplit, List.rdropWhile_concat_neg _ _ _ (by simp [hend])]
  have hwhole : (rest ++ [last]).rdropWhile isIdle = rest ++ [last] :=
    List.rdropWhile_concat_neg _ _ _ (by simp [hlast])
  rw [hrest, List.cons_append] at hsegs
  rw [parent?_of_segments hsegs hwhole, htrim, if_neg hne, ← hrest, ofSegments_segments]

end Path
end BootVolume
