import Mathlib.Data.List.Basic
import Mathlib.Data.List.Infix
import Mathlib.Data.Nat.Find
import Mathlib.Logic.Relator

/-! # First occurrences

What is found at the first place of a list where there is something to find, said of a
function, of a relation and of the loop that searches for a word and goes on behind it where
what it found will not do. The loop misses no place if the word does not overlap itself.
-/

namespace Occurrence

open Relator (RightUnique)

variable {α β : Type}

/-! ## The first place -/

/-- `b` is at the first place of the list where there is anything. -/
def FirstAt (P : List α → β → Prop) (as : List α) (b : β) : Prop :=
  ∃ i, P (as.drop i) b ∧ ∀ j < i, ∀ c, ¬ P (as.drop j) c

section FirstAt

variable {P Q : List α → β → Prop} {as : List α} {b c : β}

theorem firstAt_congr (h : ∀ as b, P as b ↔ Q as b) : FirstAt P as b ↔ FirstAt Q as b := by
  have heq : P = Q := by
    funext as b
    exact propext (h as b)
  rw [heq]

/-- With something at the head, that is it. -/
theorem firstAt_of_head (hP : RightUnique P) (h : P as b) : FirstAt P as c ↔ c = b := by
  constructor
  · rintro ⟨i, hc, hno⟩
    cases i with
    | zero => exact hP hc h
    | succ i => exact absurd h (hno 0 (by omega) b)
  · rintro rfl
    exact ⟨0, h, fun j hj => absurd hj (Nat.not_lt_zero j)⟩

/-- With nothing before place `n`, it may be skipped to. -/
theorem firstAt_drop {n : Nat} (h : ∀ j < n, ∀ c, ¬ P (as.drop j) c) :
    FirstAt P as b ↔ FirstAt P (as.drop n) b := by
  constructor
  · rintro ⟨i, hb, hno⟩
    have hle : n ≤ i := by
      by_contra hlt
      exact h i (by omega) b hb
    obtain ⟨k, rfl⟩ : ∃ k, i = n + k := ⟨i - n, by omega⟩
    refine ⟨k, by rwa [List.drop_drop], ?_⟩
    intro j hj c
    rw [List.drop_drop]
    exact hno (n + j) (by omega) c
  · rintro ⟨k, hb, hno⟩
    rw [List.drop_drop] at hb
    refine ⟨n + k, hb, ?_⟩
    intro j hj c
    by_cases hlt : j < n
    · exact h j hlt c
    · obtain ⟨l, rfl⟩ : ∃ l, j = n + l := ⟨j - n, by omega⟩
      have hno' := hno l (by omega) c
      rwa [List.drop_drop] at hno'

/-- Where there is anything, there is a first place. -/
theorem exists_firstAt {i : Nat} (h : P (as.drop i) b) : ∃ c, FirstAt P as c := by
  classical
  have hex : ∃ i c, P (as.drop i) c := ⟨i, b, h⟩
  obtain ⟨c, hc⟩ := Nat.find_spec hex
  refine ⟨c, Nat.find hex, hc, ?_⟩
  intro j hj d hd
  exact Nat.find_min hex hj ⟨d, hd⟩

/-- Only one thing is at the first place. -/
theorem FirstAt.rightUnique (hP : RightUnique P) : RightUnique (FirstAt P) := by
  rintro as b c ⟨i, hb, hno⟩ ⟨j, hc, hno'⟩
  rcases Nat.lt_trichotomy i j with hlt | rfl | hlt
  · exact absurd hb (hno' i hlt b)
  · exact hP hb hc
  · exact absurd hc (hno j hlt c)

/-- Two relations have the same thing first, or both have nothing. -/
def SameFirst (P Q : List α → β → Prop) (as : List α) : Prop :=
  ∀ b, FirstAt P as b ↔ FirstAt Q as b

theorem SameFirst.symm (h : SameFirst P Q as) : SameFirst Q P as := fun b => (h b).symm

/-- With something at the head of the one, the other has the same there, or nothing there and
the same first later on. -/
theorem sameFirst_of_head (hP : RightUnique P) (hQ : RightUnique Q) (hb : P as b) :
    SameFirst P Q as ↔ Q as b ∨ (∀ c, ¬ Q as c) ∧ FirstAt Q (as.drop 1) b := by
  have hskip : (∀ c, ¬ Q as c) → ∀ c, FirstAt Q as c ↔ FirstAt Q (as.drop 1) c := by
    intro hno c
    apply firstAt_drop
    intro j hj
    obtain rfl : j = 0 := by omega
    exact hno
  constructor
  · intro h
    have hfirst := (h b).mp ((firstAt_of_head hP hb).mpr rfl)
    by_cases hex : ∃ c, Q as c
    · obtain ⟨c, hc⟩ := hex
      rw [(firstAt_of_head hQ hc).mp hfirst]
      exact .inl hc
    · have hno := not_exists.mp hex
      exact .inr ⟨hno, (hskip hno b).mp hfirst⟩
  · rintro (hb' | ⟨hno, hfirst⟩) c
    · rw [firstAt_of_head hP hb, firstAt_of_head hQ hb']
    · rw [firstAt_of_head hP hb, hskip hno c]
      constructor
      · rintro rfl
        exact hfirst
      · intro hc
        exact FirstAt.rightUnique hQ hc hfirst

/-- The first place of either relation decides: what the one has there the other has there too,
or else has nothing there, and the same first later on. -/
theorem sameFirst_iff (hP : RightUnique P) (hQ : RightUnique Q) :
    SameFirst P Q as ↔
      ∀ i, (∀ j < i, ∀ c, ¬ P (as.drop j) c ∧ ¬ Q (as.drop j) c) → ∀ b,
        (P (as.drop i) b →
          Q (as.drop i) b ∨ (∀ c, ¬ Q (as.drop i) c) ∧ FirstAt Q (as.drop (i + 1)) b) ∧
        (Q (as.drop i) b →
          P (as.drop i) b ∨ (∀ c, ¬ P (as.drop i) c) ∧ FirstAt P (as.drop (i + 1)) b) := by
  have hskip : ∀ i, (∀ j < i, ∀ c, ¬ P (as.drop j) c ∧ ¬ Q (as.drop j) c) →
      (SameFirst P Q as ↔ SameFirst P Q (as.drop i)) := by
    intro i hquiet
    apply forall_congr'
    intro c
    rw [firstAt_drop fun j hj c => (hquiet j hj c).1, firstAt_drop fun j hj c => (hquiet j hj c).2]
  constructor
  · intro h i hquiet b
    have hi := (hskip i hquiet).mp h
    constructor
    · intro hb
      have hhead := (sameFirst_of_head hP hQ hb).mp hi
      rwa [List.drop_drop] at hhead
    · intro hb
      have hhead := (sameFirst_of_head hQ hP hb).mp hi.symm
      rwa [List.drop_drop] at hhead
  · intro h
    classical
    by_cases hex : ∃ i c, P (as.drop i) c ∨ Q (as.drop i) c
    · -- nothing is before the first place of either
      have hquiet : ∀ j < Nat.find hex, ∀ c, ¬ P (as.drop j) c ∧ ¬ Q (as.drop j) c := by
        intro j hj c
        have hno := not_exists.mp (Nat.find_min hex hj) c
        exact not_or.mp hno
      rw [hskip _ hquiet]
      obtain ⟨c, hc | hc⟩ := Nat.find_spec hex
      · apply (sameFirst_of_head hP hQ hc).mpr
        rw [List.drop_drop]
        exact (h _ hquiet c).1 hc
      · apply SameFirst.symm
        apply (sameFirst_of_head hQ hP hc).mpr
        rw [List.drop_drop]
        exact (h _ hquiet c).2 hc
    · intro b
      constructor
      · rintro ⟨i, hb, -⟩
        exact absurd ⟨i, b, .inl hb⟩ hex
      · rintro ⟨i, hb, -⟩
        exact absurd ⟨i, b, .inr hb⟩ hex

end FirstAt

/-! ## Searching for a word -/

section Search

variable [DecidableEq α]

/-- The first place where the word stands. -/
def findSlice (word as : List α) : Option Nat :=
  if word = [] ∨ as.length < word.length then none
  else (List.range (as.length - word.length + 1)).find? fun i =>
    (as.drop i).take word.length = word

theorem findSlice_eq_some {word as : List α} {i : Nat} (h : findSlice word as = some i) :
    word ≠ [] ∧ word <+: as.drop i ∧ ∀ j < i, ¬ word <+: as.drop j := by
  unfold findSlice at h
  split at h
  · cases h
  · rename_i hcond
    have hne : word ≠ [] := fun hnil => hcond (.inl hnil)
    have hfind := List.find?_range_eq_some.mp h
    refine ⟨hne, ?_, ?_⟩
    · rw [List.prefix_iff_eq_take]
      exact (of_decide_eq_true hfind.1).symm
    · intro j hj hpre
      rw [List.prefix_iff_eq_take] at hpre
      have hno := hfind.2.2 j hj
      simp [← hpre] at hno

theorem findSlice_eq_none {word as : List α} (hne : word ≠ []) (h : findSlice word as = none)
    (i : Nat) : ¬ word <+: as.drop i := by
  intro hpre
  have hlen := hpre.length_le
  rw [List.length_drop] at hlen
  have hpos : 0 < word.length := List.length_pos_iff.mpr hne
  have hcond : ¬ (word = [] ∨ as.length < word.length) := by
    rintro (hnil | hlt)
    · exact hne hnil
    · omega
  rw [findSlice, if_neg hcond, List.find?_range_eq_none] at h
  have hno := h i (by omega)
  rw [List.prefix_iff_eq_take] at hpre
  simp [← hpre] at hno

/-- Search from a place on, and go on behind the word while `parse` makes nothing of what
begins with it. -/
def scanFrom (word : List α) (parse : List α → Option β) (as : List α) (start : Nat) : Option β :=
  match _h : findSlice word (as.drop start) with
  | none => none
  | some rel =>
    match parse (as.drop (start + rel)) with
    | some b => some b
    | none => scanFrom word parse as (start + rel + word.length)
termination_by as.length - start
decreasing_by
  -- the word is not empty and stands within the list
  obtain ⟨hne, hpre, -⟩ := findSlice_eq_some _h
  have hlen := hpre.length_le
  have hpos : 0 < word.length := List.length_pos_iff.mpr hne
  rw [List.length_drop, List.length_drop] at hlen
  omega

/-- No end of the word is a beginning of it. -/
def Unbordered (word : List α) : Prop :=
  ∀ k < word.length, 0 < k → ¬ word.drop k <+: word

instance (word : List α) : Decidable (Unbordered word) :=
  inferInstanceAs (Decidable (∀ k < word.length, 0 < k → ¬ word.drop k <+: word))

omit [DecidableEq α] in
/-- Where the word stands it does not begin again before its end. -/
theorem Unbordered.not_prefix {word as : List α} (h : Unbordered word) (hpre : word <+: as) {k : Nat}
    (hk : k < word.length) (hpos : 0 < k) : ¬ word <+: as.drop k := by
  intro hagain
  refine h k hk hpos ?_
  obtain ⟨rest, rfl⟩ := hpre
  rw [List.drop_append_of_le_length (by omega)] at hagain
  exact List.prefix_of_prefix_length_le (List.prefix_append _ _) hagain (by simp)

/-- What the search may stop at: the word, and what is made of it. -/
def Hit (word : List α) (parse : List α → Option β) (as : List α) (b : β) : Prop :=
  word <+: as ∧ parse as = some b

omit [DecidableEq α] in
theorem Hit.rightUnique (word : List α) (parse : List α → Option β) :
    RightUnique (Hit word parse) := by
  rintro as b c ⟨-, hb⟩ ⟨-, hc⟩
  exact Option.some.inj (hb.symm.trans hc)

/-- The search gives what is at the first place it may stop at. -/
theorem scanFrom_eq_some {word : List α} {parse : List α → Option β} (hne : word ≠ [])
    (hword : Unbordered word) {as : List α} {start : Nat} {b : β} :
    scanFrom word parse as start = some b ↔ FirstAt (Hit word parse) (as.drop start) b := by
  fun_induction scanFrom word parse as start with
  | case1 start hfind =>
    constructor
    · intro h
      cases h
    · rintro ⟨i, ⟨hpre, -⟩, -⟩
      exact absurd hpre (findSlice_eq_none hne hfind i)
  | case2 start rel hfind c hparse =>
    obtain ⟨-, hpre, hno⟩ := findSlice_eq_some hfind
    have hhit : Hit word parse ((as.drop start).drop rel) c := ⟨hpre, by rwa [List.drop_drop]⟩
    rw [firstAt_drop fun j hj d hd => hno j hj hd.1,
      firstAt_of_head (Hit.rightUnique word parse) hhit, Option.some.injEq, eq_comm]
  | case3 start rel hfind hparse ih =>
    obtain ⟨-, hpre, hno⟩ := findSlice_eq_some hfind
    -- before the end of the word there is nothing to stop at
    have hskip : ∀ j < rel + word.length, ∀ d, ¬ Hit word parse ((as.drop start).drop j) d := by
      rintro j hj d ⟨hpre', hd⟩
      rcases Nat.lt_trichotomy j rel with hlt | rfl | hgt
      · exact hno j hlt hpre'
      · rw [List.drop_drop, hparse] at hd
        cases hd
      · obtain ⟨k, rfl⟩ : ∃ k, j = rel + k := ⟨j - rel, by omega⟩
        rw [← List.drop_drop] at hpre'
        exact hword.not_prefix hpre (by omega) (by omega) hpre'
    rw [ih, firstAt_drop hskip, List.drop_drop, Nat.add_assoc]

end Search

end Occurrence
