/-!
# Pieces of a list between separators

`pieces p xs` cuts `xs` at every element that satisfies `p`, so there is always one piece more
than there are separators.
-/

namespace BootVolume

/-- The stretches between the elements that satisfy `p`. -/
def pieces {α : Type} (p : α → Bool) : List α → List (List α)
  | [] => [[]]
  | a :: rest => if p a then [] :: pieces p rest else (pieces p rest).modifyHead (a :: ·)

theorem pieces_ne_nil {α : Type} (p : α → Bool) (xs : List α) : pieces p xs ≠ [] := by
  induction xs with
  | nil => simp [pieces]
  | cons a rest ih =>
    rw [pieces]
    split
    · simp
    · cases h : pieces p rest with
      | nil => exact absurd h ih
      | cons => simp

theorem pieces_of_none {α : Type} {p : α → Bool} {xs : List α} (h : ∀ a ∈ xs, p a = false) :
    pieces p xs = [xs] := by
  induction xs with
  | nil => rfl
  | cons a rest ih =>
    rw [pieces, if_neg (by simp [h a]), ih fun b hb => h b (List.mem_cons_of_mem _ hb)]
    rfl

end BootVolume
