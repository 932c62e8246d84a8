import Mirrorscope.Lib.Hoare

/-! # Two runs side by side

A computation follows another: from related states, whenever the first answers,
so does the second, and their answers and states are related again. A failure of
the first is not matched, but its state has a postcondition. The rules follow the
ways computations are put together, as those for one run do.
-/

namespace Run

variable {ε σ τ α α' β β' : Type}

/-- From states related by `R`, an answer of `m` is matched by an answer of `m'`, and
`S` relates the two answers and the states after them; a failure of `m` has `E`. -/
def Sim (R : σ → τ → Prop) (m : Run ε σ α) (m' : Run ε τ α') (S : α → α' → σ → τ → Prop)
    (E : ε → σ → Prop) : Prop :=
  ∀ s t, R s t → ∀ r s', exec m s = some (r, s') →
    match r with
    | .ok a => ∃ a' t', exec m' t = some (.ok a', t') ∧ S a a' s' t'
    | .error e => E e s'

/-- The matched ends of one round of two loops. -/
inductive BothRound (R : σ → τ → Prop) (S : α → α' → σ → τ → Prop) :
    Option α → Option α' → σ → τ → Prop where
  | again {s : σ} {t : τ} (h : R s t) : BothRound R S none none s t
  | leave {a : α} {a' : α'} {s : σ} {t : τ} (h : S a a' s t) : BothRound R S (some a) (some a') s t

variable {R R' : σ → τ → Prop} {S S' : α → α' → σ → τ → Prop} {E E' : ε → σ → Prop}

namespace Sim

theorem ok {m : Run ε σ α} {m' : Run ε τ α'} (h : Sim R m m' S E) {s s' : σ} {t : τ} {a : α}
    (hst : R s t) (hexec : exec m s = some (.ok a, s')) :
    ∃ a' t', exec m' t = some (.ok a', t') ∧ S a a' s' t' :=
  h s t hst _ s' hexec

theorem error {m : Run ε σ α} {m' : Run ε τ α'} (h : Sim R m m' S E) {s s' : σ} {t : τ} {e : ε}
    (hst : R s t) (hexec : exec m s = some (.error e, s')) : E e s' :=
  h s t hst _ s' hexec

theorem mono {m : Run ε σ α} {m' : Run ε τ α'} (h : Sim R m m' S E) (hR : ∀ s t, R' s t → R s t)
    (hS : ∀ a a' s t, S a a' s t → S' a a' s t) (hE : ∀ e s, E e s → E' e s) :
    Sim R' m m' S' E' := by
  intro s t hst r s' hexec
  cases r with
  | ok a =>
    rcases h.ok (hR s t hst) hexec with ⟨a', t', hexec', hpost⟩
    exact ⟨a', t', hexec', hS a a' s' t' hpost⟩
  | error e => exact hE e s' (h.error (hR s t hst) hexec)

theorem pre {m : Run ε σ α} {m' : Run ε τ α'} (h : Sim R m m' S E)
    (hR : ∀ s t, R' s t → R s t) : Sim R' m m' S E :=
  h.mono hR (fun _ _ _ _ h => h) fun _ _ h => h

theorem post {m : Run ε σ α} {m' : Run ε τ α'} (h : Sim R m m' S E)
    (hS : ∀ a a' s t, S a a' s t → S' a a' s t) : Sim R m m' S' E :=
  h.mono (fun _ _ h => h) hS fun _ _ h => h

theorem pure {a : α} {a' : α'} (h : ∀ s t, R s t → S a a' s t) :
    Sim R (pure a : Run ε σ α) (pure a' : Run ε τ α') S E := by
  intro s t hst r s' hexec
  rcases Prod.mk.inj (Option.some.inj hexec) with ⟨rfl, rfl⟩
  exact ⟨a', t, rfl, h s t hst⟩

theorem update {f : σ → σ} {g : τ → τ} {S : Unit → Unit → σ → τ → Prop}
    (h : ∀ s t, R s t → S () () (f s) (g t)) :
    Sim R (update f : Run ε σ Unit) (update g : Run ε τ Unit) S E := by
  intro s t hst r s' hexec
  rcases Prod.mk.inj (Option.some.inj hexec) with ⟨rfl, rfl⟩
  exact ⟨(), g t, rfl, h s t hst⟩

theorem fail {e : ε} {m' : Run ε τ α'} (h : ∀ s t, R s t → E e s) :
    Sim R (fail e : Run ε σ α) m' S E := by
  intro s t hst r s' hexec
  rcases Prod.mk.inj (Option.some.inj hexec) with ⟨rfl, rfl⟩
  exact h s t hst

theorem never {m' : Run ε τ α'} : Sim R (never : Run ε σ α) m' S E := by
  intro s t _ r s' hexec
  cases hexec

theorem bind {m : Run ε σ α} {m' : Run ε τ α'} {f : α → Run ε σ β} {f' : α' → Run ε τ β'}
    {T : β → β' → σ → τ → Prop} (hm : Sim R m m' S E)
    (hf : ∀ a a', Sim (S a a') (f a) (f' a') T E) : Sim R (m >>= f) (m' >>= f') T E := by
  intro s t hst r s' hexec
  rcases bind_inv hexec with ⟨e, he, rfl⟩ | ⟨a, u, ha, hb⟩
  · exact hm.error hst he
  rcases hm.ok hst ha with ⟨a', v, ha', hmid⟩
  have hrest := hf a a' u v hmid r s' hb
  cases r with
  | error e => exact hrest
  | ok b =>
    rcases hrest with ⟨b', t', hb', hpost⟩
    exact ⟨b', t', by rw [bind_ok ha', hb'], hpost⟩

/-- What the first run does by itself is also so beside the second. -/
theorem also {P : σ → Prop} {Q : α → σ → Prop} {F : ε → σ → Prop} {m : Run ε σ α}
    {m' : Run ε τ α'} (h : Sim R m m' S E) (hm : Spec P m Q F) :
    Sim (fun s t => P s ∧ R s t) m m' (fun a a' s t => Q a s ∧ S a a' s t) E := by
  rintro s t ⟨hs, hst⟩ r s' hexec
  cases r with
  | ok a =>
    rcases h.ok hst hexec with ⟨a', t', hexec', hpost⟩
    exact ⟨a', t', hexec', hm.ok hs hexec, hpost⟩
  | error e => exact h.error hst hexec

/-- The runs from one pair of related states. -/
theorem here {m : Run ε σ α} {m' : Run ε τ α'} (h : Sim R m m' S E) {s : σ} {t : τ} (hst : R s t) :
    Sim (fun s' t' => s' = s ∧ t' = t) m m' S E := by
  rintro _ _ ⟨rfl, rfl⟩
  exact h _ _ hst

/-- A fact in the relation that is not about the states. -/
theorem assume {p : Prop} {m : Run ε σ α} {m' : Run ε τ α'} (h : p → Sim R m m' S E) :
    Sim (fun s t => p ∧ R s t) m m' S E :=
  fun s t hst => h hst.1 s t hst.2

/-- Something the relation only says to exist. -/
theorem ofExists {ι : Type} {R : ι → σ → τ → Prop} {m : Run ε σ α} {m' : Run ε τ α'}
    (h : ∀ x, Sim (R x) m m' S E) : Sim (fun s t => ∃ x, R x s t) m m' S E :=
  fun s t ⟨x, hst⟩ => h x s t hst

theorem when {c : Bool} {m : Run ε σ Unit} {m' : Run ε τ Unit} {S : Unit → Unit → σ → τ → Prop}
    (hm : c = true → Sim R m m' S E) (hskip : c = false → ∀ s t, R s t → S () () s t) :
    Sim R (when c m) (when c m') S E := by
  cases c with
  | true => exact hm rfl
  | false => exact pure (hskip rfl)

/-- Rounds of a loop are followed one by one. -/
theorem rounds {body : Run ε σ (Option α)} {body' : Run ε τ (Option α')}
    (h : Sim R body body' (BothRound R S) E) {n : Nat} {s s' : σ} {t : τ} (hst : R s t)
    (hrounds : Rounds body n s s') : ∃ t', Rounds body' n t t' ∧ R s' t' := by
  induction hrounds generalizing t with
  | zero s => exact ⟨t, .zero t, hst⟩
  | succ first _ ih =>
    rcases h.ok hst first with ⟨r', u, hfirst, hround⟩
    cases hround with
    | again hu =>
      rcases ih hu with ⟨t', hrest, hpost⟩
      exact ⟨t', .succ hfirst hrest, hpost⟩

theorem loop {body : Run ε σ (Option α)} {body' : Run ε τ (Option α')}
    (h : Sim R body body' (BothRound R S) E) : Sim R (loop body) (loop body') S E := by
  intro s t hst r s' hexec
  rcases loop_inv hexec with ⟨n, u, hrounds, hleaves⟩
  rcases h.rounds hst hrounds with ⟨v, hrounds', huv⟩
  rcases hleaves with ⟨a, ha, rfl⟩ | ⟨e, he, rfl⟩
  · rcases h.ok huv ha with ⟨r', t', hb', hround⟩
    cases hround with
    | leave hpost => exact ⟨_, t', loop_returns hrounds' (.inl ⟨_, hb', rfl⟩), hpost⟩
  · exact h.error huv he

end Sim

end Run
