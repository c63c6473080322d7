import BootVolume.Files.Name

/-!
# Listings

What a directory lists: names with what they lead to, in strict order. Main statement: two listings
in order with the same look-ups are the same list (`eq_of_lookup`), so equal contents are equal
values.
-/

namespace BootVolume.Listing

variable {α : Type}

/-- In order, and no name twice. -/
def Ordered (entries : List (Name × α)) : Prop :=
  entries.Pairwise fun x y => x.1 < y.1

def lookup (name : Name) : List (Name × α) → Option α
  | [] => none
  | (other, entry) :: rest => if other = name then some entry else lookup name rest

/-- The listing with another entry under a name. -/
def insert (name : Name) (entry : α) : List (Name × α) → List (Name × α)
  | [] => [(name, entry)]
  | (other, old) :: rest =>
    if other = name then (name, entry) :: rest
    else if name < other then (name, entry) :: (other, old) :: rest
    else (other, old) :: insert name entry rest

def remove (name : Name) (entries : List (Name × α)) : List (Name × α) :=
  entries.filter fun x => x.1 ≠ name

theorem lookup_eq_none {name : Name} {entries : List (Name × α)}
    (h : ∀ x ∈ entries, x.1 ≠ name) : lookup name entries = none := by
  induction entries with
  | nil => rfl
  | cons x rest ih =>
    rw [lookup, if_neg (h x List.mem_cons_self)]
    exact ih fun y hy => h y (List.mem_cons_of_mem _ hy)

theorem mem_of_lookup {name : Name} {entry : α} {entries : List (Name × α)}
    (h : lookup name entries = some entry) : (name, entry) ∈ entries := by
  induction entries with
  | nil => simp [lookup] at h
  | cons x rest ih =>
    rw [lookup] at h
    split at h
    · rename_i hx
      obtain rfl := Option.some.inj h
      exact hx ▸ List.mem_cons_self
    · exact List.mem_cons_of_mem _ (ih h)

theorem lookup_ne_none_iff {name : Name} {entries : List (Name × α)} :
    lookup name entries ≠ none ↔ name ∈ entries.map (·.1) := by
  induction entries with
  | nil => simp [lookup]
  | cons x rest ih =>
    by_cases hx : x.1 = name
    · simp [lookup, hx]
    · simp [lookup, hx, ih, Ne.symm hx]

theorem lookup_insert (name other : Name) (entry : α) (entries : List (Name × α)) :
    lookup other (insert name entry entries) =
      if other = name then some entry else lookup other entries := by
  induction entries with
  | nil => simp [insert, lookup, eq_comm]
  | cons x rest ih =>
    obtain ⟨p, old⟩ := x
    simp only [insert]
    split
    · subst p
      by_cases ho : name = other <;> simp [lookup, ho, eq_comm]
    split
    · by_cases ho : name = other <;> simp [lookup, ho, eq_comm]
    · rename_i hne _
      by_cases ho : p = other
      · subst ho
        simp [lookup, hne]
      · simp [lookup, ho, ih]

theorem lookup_remove (name other : Name) (entries : List (Name × α)) :
    lookup other (remove name entries) = if other = name then none else lookup other entries := by
  induction entries with
  | nil => simp [remove, lookup]
  | cons x rest ih =>
    by_cases hn : x.1 = name
    · have hr : remove name (x :: rest) = remove name rest := by simp [remove, hn]
      rw [hr, ih]
      by_cases ho : other = name
      · simp [ho]
      · simp [lookup, hn, ho, Ne.symm ho]
    · have hr : remove name (x :: rest) = x :: remove name rest := by simp [remove, hn]
      rw [hr]
      by_cases ho : x.1 = other
      · subst ho
        simp [lookup, hn]
      · simp [lookup, ho, ih]

theorem mem_insert {name : Name} {entry : α} {entries : List (Name × α)} {x : Name × α}
    (h : x ∈ insert name entry entries) : x = (name, entry) ∨ x ∈ entries := by
  induction entries with
  | nil => simpa [insert] using h
  | cons y rest ih =>
    obtain ⟨p, old⟩ := y
    simp only [insert] at h
    split at h
    · rcases List.mem_cons.1 h with h | h <;> simp [h]
    split at h
    · rcases List.mem_cons.1 h with h | h
      · exact .inl h
      · exact .inr h
    · rcases List.mem_cons.1 h with h | h
      · simp [h]
      · rcases ih h with h | h <;> simp [h]

theorem mem_of_mem_remove {name : Name} {entries : List (Name × α)} {x : Name × α}
    (h : x ∈ remove name entries) : x ∈ entries :=
  (List.mem_filter.1 h).1

theorem ordered_insert {name : Name} {entry : α} {entries : List (Name × α)}
    (ordered : Ordered entries) : Ordered (insert name entry entries) := by
  induction entries with
  | nil => simp [Ordered, insert]
  | cons x rest ih =>
    have ⟨before, later⟩ := List.pairwise_cons.1 ordered
    rw [insert]
    split
    · rename_i hx
      exact List.pairwise_cons.2 ⟨fun y hy => hx ▸ before y hy, later⟩
    split
    · rename_i hlt
      refine List.pairwise_cons.2 ⟨fun y hy => ?_, ordered⟩
      rcases List.mem_cons.1 hy with rfl | hy
      · exact hlt
      · exact Name.lt_trans hlt (before y hy)
    · rename_i hne hnlt
      refine List.pairwise_cons.2 ⟨fun y hy => ?_, ih later⟩
      rcases mem_insert hy with rfl | hy
      · rcases Name.lt_trichotomy x.1 name with h | h | h
        · exact h
        · exact absurd h hne
        · exact absurd h hnlt
      · exact before y hy

theorem ordered_remove {name : Name} {entries : List (Name × α)} (ordered : Ordered entries) :
    Ordered (remove name entries) :=
  List.Pairwise.filter _ ordered

theorem eq_of_lookup {entries entries' : List (Name × α)} (ordered : Ordered entries)
    (ordered' : Ordered entries') (h : ∀ n, lookup n entries = lookup n entries') :
    entries = entries' := by
  induction entries generalizing entries' with
  | nil =>
    cases entries' with
    | nil => rfl
    | cons y rest' => simpa [lookup] using h y.1
  | cons x rest ih =>
    cases entries' with
    | nil => simpa [lookup] using h x.1
    | cons y rest' =>
      have ⟨before, later⟩ := List.pairwise_cons.1 ordered
      have ⟨before', later'⟩ := List.pairwise_cons.1 ordered'
      have hx := mem_of_lookup ((h x.1).symm.trans (by simp [lookup] : _ = some x.2))
      have hy := mem_of_lookup ((h y.1).trans (by simp [lookup] : _ = some y.2))
      have same : x = y := by
        rcases List.mem_cons.1 hx with hx | hx
        · exact hx
        rcases List.mem_cons.1 hy with hy | hy
        · exact hy.symm
        · exact absurd (Name.lt_trans (before _ hy) (before' _ hx)) (Name.lt_irrefl _)
      subst same
      congr 1
      refine ih later later' fun n => ?_
      by_cases hn : x.1 = n
      · rw [lookup_eq_none, lookup_eq_none]
        · exact fun z hz he => Name.lt_irrefl n (by simpa [hn, he] using before' z hz)
        · exact fun z hz he => Name.lt_irrefl n (by simpa [hn, he] using before z hz)
      · simpa [lookup, hn] using h n

end BootVolume.Listing
