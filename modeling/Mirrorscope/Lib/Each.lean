import Mathlib.Data.List.Induction

/-! # Lists that grow at the end

A condition on every element of a list and what came before it, as for the events of a
run.
-/

namespace List

variable {α : Type} {P : List α → α → Prop} {l : List α} {a : α}

/-- Every element satisfies `P` with the elements before it. -/
def Each (P : List α → α → Prop) (l : List α) : Prop :=
  ∀ before a after, l = before ++ a :: after → P before a

theorem each_nil : Each P [] := by
  intro before a after h
  simp at h

theorem each_snoc : Each P (l ++ [a]) ↔ Each P l ∧ P l a := by
  constructor
  · intro h
    refine ⟨?_, h l a [] rfl⟩
    intro before b after heq
    exact h before b (after ++ [a]) (by rw [heq]; simp)
  · rintro ⟨hl, ha⟩ before b after heq
    rcases List.eq_nil_or_concat after with rfl | ⟨after, last, rfl⟩
    · obtain ⟨rfl, hlast⟩ := List.append_inj' heq rfl
      rcases List.singleton_inj.mp hlast with rfl
      exact ha
    · refine hl before b after ?_
      rw [List.concat_eq_append, ← List.cons_append, ← List.append_assoc] at heq
      exact (List.append_inj' heq rfl).1

/-- What holds of a list holds of how it began. -/
theorem each_of_append {l' : List α} (h : Each P (l ++ l')) : Each P l := by
  intro before a after heq
  refine h before a (after ++ l') ?_
  rw [heq, List.append_assoc, List.cons_append]

/-- The elements of the second list come after those of the first. -/
theorem each_append {l' : List α} :
    Each P (l ++ l') ↔ Each P l ∧ Each (fun before a => P (l ++ before) a) l' := by
  induction l' using List.reverseRecOn with
  | nil => simp [each_nil]
  | append_singleton l' a ih => rw [← List.append_assoc, each_snoc, each_snoc, ih, and_assoc]

theorem each_cons :
    Each P (a :: l) ↔ P [] a ∧ Each (fun before b => P (a :: before) b) l := by
  have hone : Each P [a] ↔ P [] a := by
    have hsnoc : Each P ([] ++ [a]) ↔ Each P [] ∧ P [] a := each_snoc
    rw [List.nil_append] at hsnoc
    rw [hsnoc]
    exact and_iff_right each_nil
  have happend : Each P ([a] ++ l) ↔ Each P [a] ∧ Each (fun before b => P ([a] ++ before) b) l :=
    each_append
  rw [hone] at happend
  exact happend

theorem Each.imp {Q : List α → α → Prop} (h : Each P l)
    (hPQ : ∀ before a, P before a → Q before a) : Each Q l :=
  fun before a after heq => hPQ before a (h before a after heq)

end List
