import Mathlib.Logic.Relation

/-! # Paths with a length

Paths along a relation, counted. A path of some length exists wherever the reflexive and
transitive closure holds, and a path splits at any of its steps.
-/

open Relation (ReflTransGen)

/-- A path of `k` steps. -/
inductive Chain {α : Type} (r : α → α → Prop) : Nat → α → α → Prop where
  | refl (a : α) : Chain r 0 a a
  | head {k : Nat} {a b c : α} : r a b → Chain r k b c → Chain r (k + 1) a c

namespace Chain

variable {α : Type} {r s : α → α → Prop} {a b c : α}

theorem mono (hrs : ∀ a b, r a b → s a b) {k : Nat} (h : Chain r k a b) : Chain s k a b := by
  induction h with
  | refl a => exact .refl a
  | head hstep _ ih => exact .head (hrs _ _ hstep) ih

theorem reflTransGen {k : Nat} (h : Chain r k a b) : ReflTransGen r a b := by
  induction h with
  | refl a => exact .refl
  | head hstep _ ih => exact .head hstep ih

theorem of_reflTransGen (h : ReflTransGen r a b) : ∃ k, Chain r k a b := by
  induction h using Relation.ReflTransGen.head_induction_on with
  | refl => exact ⟨0, .refl b⟩
  | head hstep _ ih =>
    obtain ⟨k, hk⟩ := ih
    exact ⟨k + 1, .head hstep hk⟩

/-- The first `m` steps of a longer path. -/
theorem take {m n : Nat} (h : Chain r n a c) (hle : m ≤ n) : ∃ b, Chain r m a b := by
  induction m generalizing n a with
  | zero => exact ⟨a, .refl a⟩
  | succ m ih =>
    cases h with
    | refl => omega
    | head hstep hrest =>
      obtain ⟨b, hb⟩ := ih hrest (by omega)
      exact ⟨b, .head hstep hb⟩

/-- Where no path has `n` steps, everything is reached in fewer. -/
theorem lt_of_not_chain {n : Nat} (hnone : ¬ ∃ b, Chain r n a b) (h : ReflTransGen r a b) :
    ∃ k < n, Chain r k a b := by
  obtain ⟨k, hk⟩ := of_reflTransGen h
  rcases Nat.lt_or_ge k n with hlt | hge
  · exact ⟨k, hlt, hk⟩
  · exact absurd (hk.take hge) hnone

/-- The nodes of a path that goes on as long as it can, cut off after `n` nodes. -/
inductive Path {α : Type} (r : α → α → Prop) : Nat → α → List α → Prop where
  | cut {a : α} : Path r 0 a []
  | stop {n : Nat} {a : α} : (∀ b, ¬ r a b) → Path r (n + 1) a [a]
  | step {n : Nat} {a b : α} {as : List α} : r a b → Path r n b as → Path r (n + 1) a (a :: as)

theorem Path.length_le {n : Nat} {as : List α} (h : Path r n a as) : as.length ≤ n := by
  induction h with
  | cut => exact Nat.le_refl 0
  | stop => exact Nat.succ_le_succ (Nat.zero_le _)
  | step _ _ ih => exact Nat.succ_le_succ ih

end Chain
