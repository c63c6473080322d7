/-!
# UTF-8

Byte strings and the text they stand for. `encode` writes a text, `scan` reads bytes back one
character at a time and marks every ill-formed piece, `decode?` accepts well-formed bytes only
and `lossy` shows any bytes at all, with one U+FFFD for each ill-formed piece.

Main statements: `scan_encode`, `decode?_encode` and `lossy_encode` say that reading undoes
writing, so two texts with the same bytes are the same (`encode_injective`).
-/

namespace BootVolume

/-- A string of bytes: file names, arguments and file contents need not be text. -/
abbrev Bytes := List UInt8

namespace Utf8

def encodeChar (c : Char) : Bytes :=
  let n := c.toNat
  if n < 0x80 then
    [.ofNat n]
  else if n < 0x800 then
    [.ofNat (0xC0 + n / 0x40), .ofNat (0x80 + n % 0x40)]
  else if n < 0x10000 then
    [.ofNat (0xE0 + n / 0x1000), .ofNat (0x80 + n / 0x40 % 0x40), .ofNat (0x80 + n % 0x40)]
  else
    [.ofNat (0xF0 + n / 0x40000), .ofNat (0x80 + n / 0x1000 % 0x40),
      .ofNat (0x80 + n / 0x40 % 0x40), .ofNat (0x80 + n % 0x40)]

def encode (s : String) : Bytes :=
  s.toList.flatMap encodeChar

/-- Where a reader stands: between characters, or inside one of which `owed + 1` bytes are still
to come, the next of them between `low` and `high`, and `value` has been read so far. -/
inductive State where
  | between
  | inside (owed value low high : Nat)
  deriving DecidableEq

/-- What the first byte of a character begins. A byte that begins none is an ill-formed piece of
its own. The narrowed ranges leave out overlong forms, surrogates and values above U+10FFFF. -/
def begin? (b : Nat) : List (Option Char) × State :=
  if b < 0x80 then ([some (.ofNat b)], .between)
  else if b < 0xC2 then ([none], .between)
  else if b < 0xE0 then ([], .inside 0 (b - 0xC0) 0x80 0xBF)
  else if b = 0xE0 then ([], .inside 1 0 0xA0 0xBF)
  else if b = 0xED then ([], .inside 1 0xD 0x80 0x9F)
  else if b < 0xF0 then ([], .inside 1 (b - 0xE0) 0x80 0xBF)
  else if b = 0xF0 then ([], .inside 2 0 0x90 0xBF)
  else if b < 0xF4 then ([], .inside 2 (b - 0xF0) 0x80 0xBF)
  else if b = 0xF4 then ([], .inside 2 4 0x80 0x8F)
  else ([none], .between)

/-- Reads bytes as characters, with `none` for each maximal piece that is no beginning of a
well-formed character. -/
def scanFrom : State → Bytes → List (Option Char)
  | .between, [] => []
  | .inside .., [] => [none]
  | .between, b :: rest =>
    (begin? b.toNat).1 ++ scanFrom (begin? b.toNat).2 rest
  | .inside owed value low high, b :: rest =>
    if low ≤ b.toNat ∧ b.toNat ≤ high then
      let value := value * 0x40 + (b.toNat - 0x80)
      match owed with
      | 0 => some (.ofNat value) :: scanFrom .between rest
      | owed + 1 => scanFrom (.inside owed value 0x80 0xBF) rest
    else
      none :: ((begin? b.toNat).1 ++ scanFrom (begin? b.toNat).2 rest)

def scan (bytes : Bytes) : List (Option Char) :=
  scanFrom .between bytes

/-- The text of well-formed bytes. -/
def decode? (bytes : Bytes) : Option String :=
  ((scan bytes).mapM id).map String.ofList

/-- The text shown for any bytes. -/
def lossy (bytes : Bytes) : String :=
  String.ofList ((scan bytes).map (·.getD '\uFFFD'))

theorem toNat_ofNat_of_lt {n : Nat} (h : n < 256) : (UInt8.ofNat n).toNat = n := by
  simpa using Nat.mod_eq_of_lt h

theorem scanFrom_inside {owed value low high n : Nat} (rest : Bytes) (hn : n < 256)
    (h : low ≤ n ∧ n ≤ high) :
    scanFrom (.inside owed value low high) (.ofNat n :: rest) =
      match owed with
      | 0 => some (.ofNat (value * 0x40 + (n - 0x80))) :: scanFrom .between rest
      | owed + 1 => scanFrom (.inside owed (value * 0x40 + (n - 0x80)) 0x80 0xBF) rest := by
  cases owed <;> simp only [scanFrom, toNat_ofNat_of_lt hn, if_pos h]

theorem scanFrom_between {n : Nat} (rest : Bytes) (hn : n < 256) :
    scanFrom .between (.ofNat n :: rest) =
      (begin? n).1 ++ scanFrom (begin? n).2 rest := by
  rw [scanFrom, toNat_ofNat_of_lt hn]

theorem begin?_two {n : Nat} (low : 0xC2 ≤ n) (high : n < 0xE0) :
    begin? n = ([], .inside 0 (n - 0xC0) 0x80 0xBF) := by
  simp [begin?, show ¬ n < 0x80 by omega, show ¬ n < 0xC2 by omega, high]

/-- The first byte of a character of three bytes, with what it says about the second one. -/
theorem begin?_three {n : Nat} (low : 0xE0 ≤ n) (high : n < 0xF0) :
    begin? n = ([], .inside 1 (n - 0xE0) (if n = 0xE0 then 0xA0 else 0x80)
      (if n = 0xED then 0x9F else 0xBF)) := by
  by_cases h0 : n = 0xE0
  · subst h0; rfl
  by_cases hd : n = 0xED
  · subst hd; rfl
  simp [begin?, show ¬ n < 0x80 by omega, show ¬ n < 0xC2 by omega, show ¬ n < 0xE0 by omega,
    h0, hd, high]

theorem begin?_four {n : Nat} (low : 0xF0 ≤ n) (high : n ≤ 0xF4) :
    begin? n = ([], .inside 2 (n - 0xF0) (if n = 0xF0 then 0x90 else 0x80)
      (if n = 0xF4 then 0x8F else 0xBF)) := by
  by_cases h0 : n = 0xF0
  · subst h0; rfl
  by_cases h4 : n = 0xF4
  · subst h4; rfl
  simp [begin?, show ¬ n < 0x80 by omega, show ¬ n < 0xC2 by omega, show ¬ n < 0xE0 by omega,
    show ¬ n < 0xF0 by omega, show n ≠ 0xE0 by omega, show n ≠ 0xED by omega, h0,
    h4, show n < 0xF4 by omega]

theorem scanFrom_encodeChar (c : Char) (rest : Bytes) :
    scanFrom .between (encodeChar c ++ rest) = some c :: scanFrom .between rest := by
  have valid : c.toNat < 0xD800 ∨ 0xDFFF < c.toNat ∧ c.toNat < 0x110000 := c.valid
  have back := Char.ofNat_toNat c
  rw [encodeChar]
  generalize c.toNat = n at *
  split
  · rename_i h
    rw [List.singleton_append, scanFrom_between _ (by omega), begin?, if_pos h, back]
    rfl
  split
  · rename_i h1 h2
    rw [List.cons_append, scanFrom_between _ (by omega), begin?_two (by omega) (by omega),
      List.nil_append, List.singleton_append, scanFrom_inside _ (by omega) (by omega)]
    dsimp only
    rw [show (0xC0 + n / 0x40 - 0xC0) * 0x40 + (0x80 + n % 0x40 - 0x80) = n by omega, back]
  split
  · rename_i h1 h2 h3
    rw [List.cons_append, scanFrom_between _ (by omega), begin?_three (by omega) (by omega),
      List.nil_append, List.cons_append,
      scanFrom_inside _ (by omega) (by split <;> split <;> omega)]
    dsimp only
    rw [List.singleton_append, scanFrom_inside _ (by omega) (by omega)]
    dsimp only
    rw [show ((0xE0 + n / 0x1000 - 0xE0) * 0x40 + (0x80 + n / 0x40 % 0x40 - 0x80)) * 0x40 +
      (0x80 + n % 0x40 - 0x80) = n by omega, back]
  · rename_i h1 h2 h3
    rw [List.cons_append, scanFrom_between _ (by omega), begin?_four (by omega) (by omega),
      List.nil_append, List.cons_append,
      scanFrom_inside _ (by omega) (by split <;> split <;> omega)]
    dsimp only
    rw [List.cons_append, scanFrom_inside _ (by omega) (by omega)]
    dsimp only
    rw [List.singleton_append, scanFrom_inside _ (by omega) (by omega)]
    dsimp only
    rw [show (((0xF0 + n / 0x40000 - 0xF0) * 0x40 + (0x80 + n / 0x1000 % 0x40 - 0x80)) * 0x40 +
      (0x80 + n / 0x40 % 0x40 - 0x80)) * 0x40 + (0x80 + n % 0x40 - 0x80) = n by omega, back]

theorem scan_encode (s : String) : scan (encode s) = s.toList.map some := by
  rw [scan, encode]
  induction s.toList with
  | nil => rfl
  | cons c cs ih => rw [List.flatMap_cons, scanFrom_encodeChar, ih]; rfl

theorem decode?_encode (s : String) : decode? (encode s) = some s := by
  have all (cs : List Char) : (cs.map some).mapM id = some cs := by
    induction cs with
    | nil => rfl
    | cons c cs ih => simp [List.mapM_cons, ih]
  simp [decode?, scan_encode, all]

theorem lossy_encode (s : String) : lossy (encode s) = s := by
  simp [lossy, scan_encode, Function.comp_def]

theorem encode_injective {s t : String} (h : encode s = encode t) : s = t :=
  Option.some.inj ((decode?_encode s).symm.trans ((congrArg decode? h).trans (decode?_encode t)))

end Utf8
end BootVolume
