import Mirrorscope.Lib.Effect

/-! # Stateful computations in lockstep

Two `EStateM` programs over different states that cannot be told apart: from related
states they give the same answer or the same error, and leave related states.
-/

namespace Effect

variable {ε σ τ α β : Type} {R : σ → τ → Prop}

/-- Two outcomes that differ in their states only, which are related. -/
inductive Matching (R : σ → τ → Prop) :
    EStateM.Result ε σ α → EStateM.Result ε τ α → Prop where
  | ok {a : α} {s : σ} {t : τ} (h : R s t) : Matching R (.ok a s) (.ok a t)
  | error {e : ε} {s : σ} {t : τ} (h : R s t) : Matching R (.error e s) (.error e t)

/-- From states related by `R` the two programs have matching outcomes. -/
def Lockstep (R : σ → τ → Prop) (m : EStateM ε σ α) (m' : EStateM ε τ α) : Prop :=
  ∀ s t, R s t → Matching R (m s) (m' t)

namespace Lockstep

theorem pure {a : α} : Lockstep R (pure a : EStateM ε σ α) (pure a) := by
  intro s t hst
  exact .ok hst

theorem throw {e : ε} : Lockstep R (throw e : EStateM ε σ α) (throw e) := by
  intro s t hst
  exact .error hst

theorem modify {f : σ → σ} {g : τ → τ} (h : ∀ s t, R s t → R (f s) (g t)) :
    Lockstep R (modify f : EStateM ε σ PUnit) (modify g) := by
  intro s t hst
  exact .ok (h s t hst)

theorem bind {m : EStateM ε σ α} {m' : EStateM ε τ α} {f : α → EStateM ε σ β}
    {f' : α → EStateM ε τ β} (hm : Lockstep R m m') (hf : ∀ a, Lockstep R (f a) (f' a)) :
    Lockstep R (m >>= f) (m' >>= f') := by
  intro s t hst
  have hfirst := hm s t hst
  rw [run_bind, run_bind]
  generalize m s = x, m' t = x' at hfirst ⊢
  cases hfirst with
  | ok h => exact hf _ _ _ h
  | error h => exact .error h

theorem map {m : EStateM ε σ α} {m' : EStateM ε τ α} (f : α → β) (hm : Lockstep R m m') :
    Lockstep R (f <$> m) (f <$> m') := by
  intro s t hst
  have hfirst := hm s t hst
  rw [run_map, run_map]
  generalize m s = x, m' t = x' at hfirst ⊢
  cases hfirst with
  | ok h => exact .ok h
  | error h => exact .error h

/-- What the programs do next may depend on the states they read. -/
theorem get_bind {f : σ → EStateM ε σ β} {f' : τ → EStateM ε τ β}
    (h : ∀ s t, R s t → Lockstep R (f s) (f' t)) : Lockstep R (get >>= f) (get >>= f') := by
  intro s t hst
  exact h s t hst s t hst

end Lockstep

end Effect
