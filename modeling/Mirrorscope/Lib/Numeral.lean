import Mirrorscope.Lib.Text

/-! # Numerals

Reading a numeral in a base up to 36 into a number below a bound, and that what
is written in the same base, with any number of zeros before it, is read back.
-/

namespace Numeral

open Text

/-- The value of a digit in `base`, of either case. -/
def digit (base : Nat) (c : Char) : Option Nat :=
  let n := c.toNat
  let d :=
    if 0x30 ≤ n ∧ n ≤ 0x39 then n - 0x30
    else if 0x61 ≤ n ∧ n ≤ 0x7A then n - 0x61 + 10
    else if 0x41 ≤ n ∧ n ≤ 0x5A then n - 0x41 + 10
    else base
  if d < base then some d else none

/-- A number that stays below the bound of its type. -/
def checked (bound n : Nat) : Option Nat := if n < bound then some n else none

/-- The digits `ds` after a number `acc`; a step that leaves the bound ends it. -/
def digitsFrom (base bound : Nat) : (acc : Nat) → List Char → Option Nat
  | acc, [] => some acc
  | acc, c :: ds => do
    let d ← digit base c
    let shifted ← checked bound (acc * base)
    let next ← checked bound (shifted + d)
    digitsFrom base bound next ds

/-- An unsigned number below `bound` written in `base`: digits, at least one, after
a plus sign or without one. -/
def parse (base bound : Nat) : List Char → Option Nat
  | [] => none
  | ['+'] => none
  | '+' :: ds => digitsFrom base bound 0 ds
  | ds => digitsFrom base bound 0 ds

theorem digitsFrom_append {base bound : Nat} (ds es : List Char) (acc : Nat) :
    digitsFrom base bound acc (ds ++ es) =
      (digitsFrom base bound acc ds).bind fun n => digitsFrom base bound n es := by
  induction ds generalizing acc with
  | nil => rfl
  | cons c ds ih => simp [digitsFrom, ih, Option.bind_assoc]

theorem digitsFrom_lt {base bound acc n : Nat} {ds : List Char} (hacc : acc < bound)
    (h : digitsFrom base bound acc ds = some n) : n < bound := by
  induction ds generalizing acc with
  | nil =>
    rcases Option.some.inj h with rfl
    exact hacc
  | cons c ds ih =>
    obtain ⟨d, -, h⟩ := Option.bind_eq_some_iff.mp h
    obtain ⟨shifted, -, h⟩ := Option.bind_eq_some_iff.mp h
    obtain ⟨next, hnext, h⟩ := Option.bind_eq_some_iff.mp h
    rw [checked] at hnext
    split at hnext
    · rename_i hlt
      rcases Option.some.inj hnext with rfl
      exact ih hlt h
    · cases hnext

/-- The digit a number below the base is written with is read as that number. -/
theorem digit_digitChar {base d : Nat} (hbase : base ≤ 16) (hd : d < base) :
    digit base d.digitChar = some d := by
  have hval : ∀ e < 16, digit 16 e.digitChar = some e := by decide
  have h16 := hval d (by omega)
  revert h16
  simp only [digit]
  intro h16
  grind

theorem digitsFrom_zeros {base bound : Nat} (hbase : 0 < base) (hbound : 0 < bound) (k : Nat) :
    digitsFrom base bound 0 (List.replicate k '0') = some 0 := by
  have hzero : digit base '0' = some 0 := by simp [digit, hbase]
  induction k with
  | zero => rfl
  | succ k ih => simpa [List.replicate_succ, digitsFrom, hzero, checked, hbound] using ih

theorem digitsFrom_toDigits {base bound n : Nat} (h2 : 1 < base) (hbase : base ≤ 16)
    (hn : n < bound) : digitsFrom base bound 0 (Nat.toDigits base n) = some n := by
  induction n using Nat.strongRecOn with
  | ind n ih =>
    by_cases hlt : n < base
    · rw [Nat.toDigits_of_lt_base hlt]
      have hpos : 0 < bound := by omega
      simp [digitsFrom, digit_digitChar hbase hlt, checked, hn, hpos]
    · have hdiv : n / base < n := Nat.div_lt_self (by omega) h2
      have hmod : n % base < base := Nat.mod_lt n (by omega)
      have hsum : n / base * base + n % base = n := Nat.div_add_mod' n base
      have hhigh : n / base * base < bound := by omega
      rw [Nat.toDigits_of_base_le h2 (by omega), digitsFrom_append,
        ih (n / base) hdiv (by omega)]
      simp [digitsFrom, digit_digitChar hbase hmod, checked, hhigh, hsum, hn]

/-- Numbers are written with the digits of the base. -/
theorem mem_toDigits {base n : Nat} {c : Char} (h2 : 1 < base) (hc : c ∈ Nat.toDigits base n) :
    ∃ d < base, c = d.digitChar := by
  induction n using Nat.strongRecOn with
  | ind n ih =>
    by_cases hlt : n < base
    · rw [Nat.toDigits_of_lt_base hlt, List.mem_singleton] at hc
      exact ⟨n, hlt, hc⟩
    · rw [Nat.toDigits_of_base_le h2 (by omega), List.mem_append, List.mem_singleton] at hc
      rcases hc with hc | hc
      · exact ih (n / base) (Nat.div_lt_self (by omega) h2) hc
      · exact ⟨n % base, Nat.mod_lt n (by omega), hc⟩

/-- Written numbers have no whitespace and no sign in them. -/
theorem toDigits_plain {base n : Nat} (h2 : 1 < base) (hbase : base ≤ 16) :
    ∀ c ∈ Nat.toDigits base n, isWhitespace c = false ∧ c ≠ '+' ∧ c ≠ '-' := by
  intro c hc
  obtain ⟨d, hd, rfl⟩ := mem_toDigits h2 hc
  have hall : ∀ e < 16, isWhitespace (Nat.digitChar e) = false ∧ Nat.digitChar e ≠ '+' ∧
      Nat.digitChar e ≠ '-' := by decide
  exact hall d (by omega)

/-- `n` in `base`, with zeros before it up to `width` characters. -/
def padded (base width n : Nat) : List Char := List.leftpad width '0' (Nat.toDigits base n)

theorem padded_ne_nil {base width n : Nat} : padded base width n ≠ [] := by
  simp [padded, List.leftpad, Nat.toDigits_ne_nil]

theorem padded_plain {base width n : Nat} (h2 : 1 < base) (hbase : base ≤ 16) :
    ∀ c ∈ padded base width n, isWhitespace c = false ∧ c ≠ '+' ∧ c ≠ '-' := by
  intro c hc
  rw [padded, List.leftpad, List.mem_append] at hc
  rcases hc with hc | hc
  · rw [List.eq_of_mem_replicate hc]
    decide
  · exact toDigits_plain h2 hbase c hc

theorem parse_of_ne_plus {base bound : Nat} {c : Char} {ds : List Char} (h : c ≠ '+') :
    parse base bound (c :: ds) = digitsFrom base bound 0 (c :: ds) := by
  unfold parse
  split <;> simp_all

theorem parse_toDigits {base bound n : Nat} (h2 : 1 < base) (hbase : base ≤ 16)
    (hn : n < bound) : parse base bound (Nat.toDigits base n) = some n := by
  cases hds : Nat.toDigits base n with
  | nil => exact absurd hds Nat.toDigits_ne_nil
  | cons c ds =>
    have hplain := toDigits_plain (n := n) h2 hbase c (by simp [hds])
    rw [parse_of_ne_plus hplain.2.1, ← hds]
    exact digitsFrom_toDigits h2 hbase hn

/-- A number in range is read back from its padded numeral. -/
theorem parse_padded {base bound width n : Nat} (h2 : 1 < base) (hbase : base ≤ 16)
    (hn : n < bound) : parse base bound (padded base width n) = some n := by
  have hplain := @padded_plain base width n h2 hbase
  have hread : digitsFrom base bound 0 (padded base width n) = some n := by
    rw [padded, List.leftpad, digitsFrom_append, digitsFrom_zeros (by omega) (by omega)]
    exact digitsFrom_toDigits h2 hbase hn
  cases hds : padded base width n with
  | nil => exact absurd hds padded_ne_nil
  | cons c ds =>
    rw [parse_of_ne_plus (hplain c (by simp [hds])).2.1, ← hds]
    exact hread

end Numeral
