import BootVolume.Path

/-!
# Names and places

A name is what one entry of a directory can be called; a place is the list of names that leads from
the root to an entry. Names are ordered by their bytes and places by their names.
-/

namespace BootVolume

/-- Whether bytes can name an entry: they are not empty, `.` or `..`, and hold neither a slash nor
a NUL. -/
def IsName (bytes : Bytes) : Prop :=
  bytes ≠ [] ∧ bytes ≠ Path.dot ∧ bytes ≠ Path.dotDot ∧ Path.slash ∉ bytes ∧ 0 ∉ bytes

instance (bytes : Bytes) : Decidable (IsName bytes) :=
  inferInstanceAs (Decidable (_ ∧ _ ∧ _ ∧ _ ∧ _))

structure Name where
  bytes : Bytes
  isName : IsName bytes
  deriving DecidableEq

namespace Name

def ofBytes? (bytes : Bytes) : Option Name :=
  if h : IsName bytes then some ⟨bytes, h⟩ else none

instance : LT Name := ⟨fun a b => a.bytes < b.bytes⟩

instance : DecidableLT Name := fun a b => inferInstanceAs (Decidable (a.bytes < b.bytes))

theorem lt_irrefl (a : Name) : ¬ a < a := List.lt_irrefl a.bytes

theorem lt_trans {a b c : Name} (h : a < b) (h' : b < c) : a < c :=
  show a.bytes < c.bytes from List.lt_trans h h'

theorem lt_trichotomy (a b : Name) : a < b ∨ a = b ∨ b < a := by
  by_cases h : a.bytes < b.bytes
  · exact .inl h
  · rcases List.le_iff_lt_or_eq.1 (List.not_lt.1 h) with h | h
    · exact .inr (.inr h)
    · right; left
      cases a; cases b; simp_all

instance : Std.Irrefl (· < · : Name → Name → Prop) := ⟨lt_irrefl⟩
instance : Std.Asymm (· < · : Name → Name → Prop) :=
  ⟨fun _ _ h h' => lt_irrefl _ (lt_trans h h')⟩
instance : Std.Trichotomous (· < · : Name → Name → Prop) :=
  ⟨fun a b h h' => by rcases lt_trichotomy a b with h₁ | h₁ | h₁ <;> simp_all⟩
instance : Trans (· < · : Name → Name → Prop) (· < ·) (· < ·) := ⟨lt_trans⟩

end Name

/-- The names on the way from the root. -/
abbrev Place := List Name

end BootVolume
