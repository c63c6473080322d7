import Mathlib.Tactic.Lemma
import Mathlib.Tactic.SplitIfs
import BootVolume.Files.Name

/-!
# Names as they are shown

A name that is no text is shown with replacement characters. What is shown can still name an entry
(`isName_lossy`): it has the same bytes below 0x80 in the same order, and no others only if the name
has no others (`filter_encode_lossy`, `encode_lossy_of_ascii`).
-/

namespace BootVolume.Utf8

/-- The bytes of the character that is shown for one that was read, or for an ill-formed piece. -/
def shown (read : Option Char) : Bytes := encodeChar (read.getD '\uFFFD')

lemma encode_lossy (bytes : Bytes) : encode (lossy bytes) = (scan bytes).flatMap shown := by
  rw [encode, lossy, String.toList_ofList, List.flatMap_map]
  rfl

def isAscii (b : UInt8) : Bool := b.toNat < 0x80

lemma not_isAscii_of_mem {c : Char} (hc : 0x80 ≤ c.toNat) :
    ∀ b ∈ encodeChar c, isAscii b = false := by
  have valid : c.toNat < 0xD800 ∨ 0xDFFF < c.toNat ∧ c.toNat < 0x110000 := c.valid
  have high {n : Nat} (low : 0x80 ≤ n) (hn : n < 256) : isAscii (.ofNat n) = false := by
    rw [isAscii, toNat_ofNat_of_lt hn]
    exact decide_eq_false (by omega)
  rw [encodeChar, if_neg (by omega)]
  split
  · simp only [List.forall_mem_cons]
    exact ⟨high (by omega) (by omega), high (by omega) (by omega), by simp⟩
  split
  · simp only [List.forall_mem_cons]
    exact ⟨high (by omega) (by omega), high (by omega) (by omega), high (by omega) (by omega),
      by simp⟩
  · simp only [List.forall_mem_cons]
    exact ⟨high (by omega) (by omega), high (by omega) (by omega), high (by omega) (by omega),
      high (by omega) (by omega), by simp⟩

/-- Whatever bytes come, a reader that is inside a character will read one beyond ASCII. -/
def Beyond : Nat → Nat → Nat → Nat → Prop
  | 0, value, low, high => 0x80 ≤ low ∧ ∀ n, low ≤ n → n ≤ high →
    0x80 ≤ value * 0x40 + (n - 0x80) ∧ (value * 0x40 + (n - 0x80)).isValidChar
  | owed + 1, value, low, high => 0x80 ≤ low ∧ ∀ n, low ≤ n → n ≤ high →
    Beyond owed (value * 0x40 + (n - 0x80)) 0x80 0xBF

lemma toNat_ofNat {n : Nat} (h : n.isValidChar) : (Char.ofNat n).toNat = n := by
  rw [Char.ofNat, dif_pos h]
  rfl

lemma encodeChar_ne_nil (c : Char) : encodeChar c ≠ [] := by
  rw [encodeChar]
  split_ifs <;> simp

lemma encodeChar_ofNat {n : Nat} (h : n < 0x80) : encodeChar (.ofNat n) = [.ofNat n] := by
  rw [encodeChar, toNat_ofNat (.inl (by omega)), if_pos h]

lemma filter_shown_of_beyond {read : Option Char} (h : 0x80 ≤ (read.getD '\uFFFD').toNat) :
    (shown read).filter isAscii = [] :=
  List.filter_eq_nil_iff.2 fun b hb => by simp [not_isAscii_of_mem h b hb]

lemma filter_shown_none : (shown none).filter isAscii = [] :=
  filter_shown_of_beyond (by decide)

lemma begin?_of_ascii {b : Nat} (h : b < 0x80) : begin? b = ([some (.ofNat b)], .between) := by
  rw [begin?, if_pos h]

/-- A byte beyond ASCII is an ill-formed piece or begins a character beyond ASCII. -/
lemma begin?_of_not_ascii {b : Nat} (h : 0x80 ≤ b) (hb : b < 256) :
    begin? b = ([none], .between) ∨ ∃ owed value low high,
      begin? b = ([], .inside owed value low high) ∧ Beyond owed value low high := by
  by_cases htwo : 0xC2 ≤ b ∧ b < 0xE0
  · refine .inr ⟨0, _, _, _, begin?_two htwo.1 htwo.2, ?_⟩
    simp only [Beyond, Nat.isValidChar]
    exact ⟨by omega, fun n _ _ => by omega⟩
  by_cases hthree : 0xE0 ≤ b ∧ b < 0xF0
  · refine .inr ⟨1, _, _, _, begin?_three hthree.1 hthree.2, ?_⟩
    simp only [Beyond, Nat.isValidChar]
    refine ⟨by split <;> omega, fun n _ _ => ⟨by omega, fun m _ _ => ?_⟩⟩
    split at * <;> split at * <;> omega
  by_cases hfour : 0xF0 ≤ b ∧ b ≤ 0xF4
  · refine .inr ⟨2, _, _, _, begin?_four hfour.1 hfour.2, ?_⟩
    simp only [Beyond, Nat.isValidChar]
    refine ⟨by split <;> omega, fun n _ _ => ⟨by omega, fun m _ _ => ⟨by omega, fun k _ _ => ?_⟩⟩⟩
    split at * <;> split at * <;> omega
  · left
    grind [begin?]

/-- What is read inside a character begins with one beyond ASCII or an ill-formed piece. -/
lemma scanFrom_inside_spec (bytes : Bytes) {owed value low high : Nat}
    (h : Beyond owed value low high) :
    ∃ read rest, scanFrom (.inside owed value low high) bytes = read :: rest ∧
      0x80 ≤ (read.getD '\uFFFD').toNat := by
  induction bytes generalizing owed value low high with
  | nil => exact ⟨none, [], rfl, by decide⟩
  | cons b bytes ih =>
    rw [scanFrom]
    split
    · rename_i hrange
      cases owed with
      | zero =>
        obtain ⟨hbeyond, hvalid⟩ := h.2 _ hrange.1 hrange.2
        exact ⟨_, _, rfl, by rwa [Option.getD_some, toNat_ofNat hvalid]⟩
      | succ owed => exact ih (h.2 _ hrange.1 hrange.2)
    · exact ⟨none, _, rfl, by decide⟩

/-- The bytes of ASCII are shown as they are, and in their order. -/
lemma filter_encode_lossy (bytes : Bytes) :
    (encode (lossy bytes)).filter isAscii = bytes.filter isAscii := by
  have main (bytes : Bytes) : (∀ owed value low high, Beyond owed value low high →
      ((scanFrom (.inside owed value low high) bytes).flatMap shown).filter isAscii =
        bytes.filter isAscii) ∧
      ((scanFrom .between bytes).flatMap shown).filter isAscii = bytes.filter isAscii := by
    induction bytes with
    | nil => exact ⟨fun _ _ _ _ _ => filter_shown_none, rfl⟩
    | cons b bytes ih =>
      have hb : b.toNat < 256 := b.toNat_lt
      have first : (((begin? b.toNat).1 ++ scanFrom (begin? b.toNat).2 bytes).flatMap shown).filter
          isAscii = (b :: bytes).filter isAscii := by
        by_cases hascii : b.toNat < 0x80
        · rw [begin?_of_ascii hascii, List.singleton_append, List.flatMap_cons, List.filter_append,
            ih.2, shown, Option.getD_some, encodeChar_ofNat hascii, UInt8.ofNat_toNat]
          rw [List.filter_cons_of_pos (by simpa [isAscii] using hascii),
            List.filter_cons_of_pos (by simpa [isAscii] using hascii)]
          rfl
        · rw [List.filter_cons_of_neg (by simpa [isAscii] using hascii)]
          rcases begin?_of_not_ascii (Nat.not_lt.1 hascii) hb with
            heq | ⟨owed, value, low, high, heq, beyond⟩
          · rw [heq, List.singleton_append, List.flatMap_cons, List.filter_append,
              filter_shown_none, ih.2]
            rfl
          · rw [heq, List.nil_append, ih.1 _ _ _ _ beyond]
      refine ⟨fun owed value low high h => ?_, first⟩
      rw [scanFrom]
      split
      · rename_i hrange
        have hlow : 0x80 ≤ low := by cases owed <;> exact h.1
        rw [List.filter_cons_of_neg (by simpa [isAscii] using Nat.le_trans hlow hrange.1)]
        cases owed with
        | zero =>
          obtain ⟨hbeyond, hvalid⟩ := h.2 _ hrange.1 hrange.2
          rw [List.flatMap_cons, List.filter_append, ih.2, filter_shown_of_beyond]
          · rfl
          · rwa [Option.getD_some, toNat_ofNat hvalid]
        | succ owed => exact ih.1 _ _ _ _ (h.2 _ hrange.1 hrange.2)
      · rw [List.flatMap_cons, List.filter_append, filter_shown_none, first]
        rfl
  rw [encode_lossy]
  exact (main bytes).2

/-- Nothing but ASCII is shown only of bytes that are no others. -/
lemma isAscii_of_lossy {bytes : Bytes} (h : ∀ b ∈ encode (lossy bytes), isAscii b = true) :
    ∀ b ∈ bytes, isAscii b = true := by
  rw [encode_lossy, scan] at h
  have no (read : Option Char) (rest : List (Option Char))
      (hread : 0x80 ≤ (read.getD '\uFFFD').toNat)
      (h : ∀ b ∈ (read :: rest).flatMap shown, isAscii b = true) : False := by
    obtain ⟨b, tail, hbytes⟩ := List.exists_cons_of_ne_nil (encodeChar_ne_nil (read.getD '\uFFFD'))
    have hmem : b ∈ shown read := by simp [shown, hbytes]
    have hascii := h b (List.mem_flatMap.2 ⟨read, List.mem_cons_self, hmem⟩)
    rw [not_isAscii_of_mem hread b hmem] at hascii
    cases hascii
  induction bytes with
  | nil => simp
  | cons b bytes ih =>
    rw [scanFrom] at h
    by_cases hascii : b.toNat < 0x80
    · rw [begin?_of_ascii hascii, List.singleton_append, List.flatMap_cons] at h
      exact List.forall_mem_cons.2 ⟨decide_eq_true hascii,
        ih fun c hc => h c (List.mem_append_right _ hc)⟩
    · rcases begin?_of_not_ascii (Nat.not_lt.1 hascii) b.toNat_lt with
        heq | ⟨owed, value, low, high, heq, beyond⟩
      · rw [heq, List.singleton_append] at h
        exact (no none _ (by decide) h).elim
      · rw [heq, List.nil_append] at h
        obtain ⟨read, rest, hscan, hread⟩ := scanFrom_inside_spec bytes beyond
        rw [hscan] at h
        exact (no read rest hread h).elim

theorem isName_lossy {bytes : Bytes} (h : IsName bytes) : IsName (encode (lossy bytes)) := by
  obtain ⟨hempty, hdot, hdotDot, hslash, hzero⟩ := h
  have same {text : Bytes} (hall : text.all isAscii = true) (heq : encode (lossy bytes) = text) :
      bytes = text := by
    have htext := List.all_eq_true.1 hall
    have hbytes := isAscii_of_lossy (heq ▸ htext)
    calc
      bytes = bytes.filter isAscii := (List.filter_eq_self.2 hbytes).symm
      _ = text.filter isAscii := by rw [← filter_encode_lossy, heq]
      _ = text := List.filter_eq_self.2 htext
  have kept {b : UInt8} (hb : isAscii b = true) (hmem : b ∈ encode (lossy bytes)) : b ∈ bytes := by
    have hfilter := List.mem_filter.2 ⟨hmem, hb⟩
    rw [filter_encode_lossy] at hfilter
    exact (List.mem_filter.1 hfilter).1
  exact ⟨fun heq => hempty (same (by decide) heq), fun heq => hdot (same (by decide) heq),
    fun heq => hdotDot (same (by decide) heq), fun hmem => hslash (kept (by decide) hmem),
    fun hmem => hzero (kept (by decide) hmem)⟩

end BootVolume.Utf8
