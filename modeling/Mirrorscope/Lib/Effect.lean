import Mathlib.Data.List.Basic

/-! # Fallible and stateful computations

Rules for taking `Except` and `EStateM` programs apart. `EStateM` keeps the state
when it fails, which is what a method on `&mut self` does when it returns early.
-/

namespace Effect

/-- A successful bind passes through a successful first half. -/
theorem except_bind_ok {ε α β : Type} {x : Except ε α} {f : α → Except ε β} {b : β}
    (h : x >>= f = .ok b) : ∃ a, x = .ok a ∧ f a = .ok b := by
  cases x with
  | error e => cases h
  | ok a => exact ⟨a, rfl, h⟩

/-- A bind succeeds just where both halves do. -/
theorem except_bind_eq_ok {ε α β : Type} {x : Except ε α} {f : α → Except ε β} {b : β} :
    x >>= f = .ok b ↔ ∃ a, x = .ok a ∧ f a = .ok b := by
  constructor
  · exact except_bind_ok
  · rintro ⟨a, rfl, h⟩
    exact h

/-- A first half that has succeeded. -/
theorem except_ok_bind {ε α β : Type} (a : α) (f : α → Except ε β) :
    (Except.ok a >>= f) = f a := rfl

variable {ε σ α β : Type}

/-! ## Results that may be missing -/

theorem optionT_bind_eq_some {x : OptionT (Except ε) α} {f : α → OptionT (Except ε) β} {b : β} :
    (x >>= f).run = .ok (some b) ↔ ∃ a, x.run = .ok (some a) ∧ (f a).run = .ok (some b) := by
  rw [OptionT.run_bind]
  cases x.run with
  | error e => simp [Option.elimM, bind, Except.bind]
  | ok o => cases o <;> simp [Option.elimM, bind, Except.bind, pure, Except.pure]

theorem optionT_pure_eq_some {o : Option α} {a : α} :
    (OptionT.mk (pure o : Except ε (Option α))).run = .ok (some a) ↔ o = some a := by
  simp [OptionT.run, OptionT.mk, pure, Except.pure]

/-- A bind does not fail where neither half does. -/
theorem optionT_bind_ok {x : OptionT (Except ε) α} {f : α → OptionT (Except ε) β}
    (hx : ∃ o, x.run = .ok o) (hf : ∀ a, x.run = .ok (some a) → ∃ o, (f a).run = .ok o) :
    ∃ o, (x >>= f).run = .ok o := by
  obtain ⟨o, hx⟩ := hx
  rw [OptionT.run_bind, hx]
  cases o with
  | none => exact ⟨none, rfl⟩
  | some a => exact hf a hx

/-! ## Folds that may fail -/

/-- What every step over an element of the list keeps, the fold keeps. -/
theorem foldlM_ok_of_mem {f : σ → α → Except ε σ} {I : σ → Prop} {as : List α}
    (hstep : ∀ s, ∀ a ∈ as, ∀ s', I s → f s a = .ok s' → I s') {s s' : σ} (hs : I s)
    (h : as.foldlM f s = .ok s') : I s' := by
  induction as generalizing s with
  | nil =>
    rcases Except.ok.inj h with rfl
    exact hs
  | cons a as ih =>
    rw [List.foldlM_cons] at h
    rcases except_bind_ok h with ⟨s₁, hfirst, hrest⟩
    have hs₁ := hstep s a List.mem_cons_self s₁ hs hfirst
    exact ih (fun s b hb => hstep s b (List.mem_cons_of_mem a hb)) hs₁ hrest

/-- What every step keeps, a fold keeps. -/
theorem foldlM_ok {f : σ → α → Except ε σ} {I : σ → Prop}
    (hstep : ∀ s a s', I s → f s a = .ok s' → I s') {as : List α} {s s' : σ} (hs : I s)
    (h : as.foldlM f s = .ok s') : I s' :=
  foldlM_ok_of_mem (fun s a _ => hstep s a) hs h

/-- A fold that gathers a list: it adds what its steps add. -/
theorem mem_foldlM {f : List β → α → Except ε (List β)} {R : α → β → Prop}
    (hstep : ∀ s a s', f s a = .ok s' → ∀ b, b ∈ s' ↔ b ∈ s ∨ R a b) {as : List α}
    {s s' : List β} (h : as.foldlM f s = .ok s') (b : β) :
    b ∈ s' ↔ b ∈ s ∨ ∃ a ∈ as, R a b := by
  induction as generalizing s with
  | nil =>
    rcases Except.ok.inj h with rfl
    simp
  | cons a as ih =>
    rw [List.foldlM_cons] at h
    rcases except_bind_ok h with ⟨s₁, hfirst, hrest⟩
    rw [ih hrest, hstep s a s₁ hfirst, List.exists_mem_cons_iff, or_assoc]

/-- Two folds agree where their steps agree on all they reach. -/
theorem foldlM_congr {f g : σ → α → Except ε σ} {I : σ → Prop}
    (heq : ∀ s a, I s → f s a = g s a) (hstep : ∀ s a s', I s → f s a = .ok s' → I s')
    {as : List α} {s : σ} (hs : I s) : as.foldlM f s = as.foldlM g s := by
  induction as generalizing s with
  | nil => rfl
  | cons a as ih =>
    rw [List.foldlM_cons, List.foldlM_cons, ← heq s a hs]
    cases hfirst : f s a with
    | error e => rfl
    | ok s₁ => exact ih (hstep s a s₁ hs hfirst)

/-! ## How a computation may fail -/

/-- Every error of `x` is of the kind `F`. -/
def FailsAs (F : ε → Prop) (x : Except ε α) : Prop := ∀ e, x = .error e → F e

section FailsAs

variable {F : ε → Prop}

theorem FailsAs.pure {a : α} : FailsAs F (pure a) := by
  intro e h
  cases h

theorem FailsAs.throw {e : ε} (h : F e) : FailsAs F (throw e : Except ε α) := by
  intro e' he
  rw [← Except.error.inj he]
  exact h

theorem FailsAs.bind {x : Except ε α} {f : α → Except ε β} (hx : FailsAs F x)
    (hf : ∀ a, FailsAs F (f a)) : FailsAs F (x >>= f) := by
  cases x with
  | error e =>
    intro e' h
    rw [← Except.error.inj h]
    exact hx e rfl
  | ok a => exact hf a

theorem FailsAs.foldlM {f : σ → α → Except ε σ} (hf : ∀ s a, FailsAs F (f s a)) {as : List α}
    {s : σ} : FailsAs F (as.foldlM f s) := by
  induction as generalizing s with
  | nil => exact .pure
  | cons a as ih =>
    rw [List.foldlM_cons]
    exact .bind (hf s a) fun s' => ih

end FailsAs

/-! ## Computations that fail where a read fails

`Needs readable failed reads P x` says of `x` what it reads: it fails, in the way reads do,
exactly where one of `reads` fails, and otherwise its result satisfies `P`.
-/

section Needs

variable {ρ : Type} {readable : ρ → Prop} {failed : ε → Prop} {reads reads' : List ρ}
  {P : α → Prop}

def Needs (readable : ρ → Prop) (failed : ε → Prop) (reads : List ρ) (P : α → Prop) :
    Except ε α → Prop
  | .ok a => P a ∧ ∀ r ∈ reads, readable r
  | .error e => failed e ∧ ∃ r ∈ reads, ¬ readable r

theorem Needs.pure {a : α} (h : P a) : Needs readable failed [] P (pure a) :=
  ⟨h, fun _ hr => absurd hr List.not_mem_nil⟩

theorem Needs.imp {Q : α → Prop} {x : Except ε α} (h : Needs readable failed reads P x)
    (hPQ : ∀ a, P a → Q a) : Needs readable failed reads Q x := by
  cases x with
  | error e => exact h
  | ok a => exact ⟨hPQ a h.1, h.2⟩

theorem Needs.error_iff {x : Except ε α} (h : Needs readable failed reads P x) :
    (∃ e, x = .error e) ↔ ∃ r ∈ reads, ¬ readable r := by
  cases x with
  | error e => exact ⟨fun _ => h.2, fun _ => ⟨e, rfl⟩⟩
  | ok a =>
    constructor
    · rintro ⟨e, he⟩
      cases he
    · rintro ⟨r, hr, hfails⟩
      exact absurd (h.2 r hr) hfails

/-- One computation after the other needs what both need. -/
theorem Needs.bind {Q : β → Prop} {x : Except ε α} {f : α → Except ε β}
    (hx : Needs readable failed reads P x)
    (hf : ∀ a, P a → Needs readable failed reads' Q (f a)) :
    Needs readable failed (reads ++ reads') Q (x >>= f) := by
  cases x with
  | error e =>
    rcases hx with ⟨he, r, hr, hfails⟩
    exact ⟨he, r, List.mem_append_left _ hr, hfails⟩
  | ok a =>
    rcases hx with ⟨ha, hreads⟩
    have hrest := hf a ha
    rw [except_ok_bind]
    cases hb : f a with
    | error e =>
      rw [hb] at hrest
      rcases hrest with ⟨he, r, hr, hfails⟩
      exact ⟨he, r, List.mem_append_right _ hr, hfails⟩
    | ok b =>
      rw [hb] at hrest
      refine ⟨hrest.1, ?_⟩
      intro r hr
      rcases List.mem_append.mp hr with hr | hr
      · exact hreads r hr
      · exact hrest.2 r hr

/-- One read, and then the rest. -/
theorem Needs.cons_bind {Q : β → Prop} {r : ρ} {x : Except ε α} {f : α → Except ε β}
    (hx : Needs readable failed [r] P x) (hf : ∀ a, P a → Needs readable failed reads Q (f a)) :
    Needs readable failed (r :: reads) Q (x >>= f) :=
  Needs.bind hx hf

/-- A fold needs what its steps need; `I` says what the part that is done has made. -/
theorem Needs.foldlM {f : σ → α → Except ε σ} {reads : α → List ρ} {I : List α → σ → Prop}
    (hstep : ∀ before a s, I before s →
      Needs readable failed (reads a) (I (before ++ [a])) (f s a))
    {before as : List α} {s : σ} (hs : I before s) :
    Needs readable failed (as.flatMap reads) (I (before ++ as)) (as.foldlM f s) := by
  induction as generalizing before s with
  | nil =>
    rw [List.append_nil]
    exact Needs.pure hs
  | cons a as ih =>
    rw [List.foldlM_cons, List.flatMap_cons, ← List.singleton_append, ← List.append_assoc]
    exact Needs.bind (hstep before a s hs) fun s' hs' => ih hs'

end Needs

/-! ## Running `EStateM` programs -/

@[simp] theorem run_pure (a : α) (s : σ) : (pure a : EStateM ε σ α) s = .ok a s := rfl

theorem run_bind (x : EStateM ε σ α) (f : α → EStateM ε σ β) (s : σ) :
    (x >>= f) s =
      match x s with
      | .ok a s' => f a s'
      | .error e s' => .error e s' := rfl

@[simp] theorem run_get (s : σ) : (get : EStateM ε σ σ) s = .ok s s := rfl

@[simp] theorem run_set (s s' : σ) : (set s' : EStateM ε σ PUnit) s = .ok ⟨⟩ s' := rfl

@[simp] theorem run_modify (f : σ → σ) (s : σ) :
    (modify f : EStateM ε σ PUnit) s = .ok ⟨⟩ (f s) := rfl

@[simp] theorem run_throw (e : ε) (s : σ) : (throw e : EStateM ε σ α) s = .error e s := rfl

@[simp] theorem run_map (f : α → β) (x : EStateM ε σ α) (s : σ) :
    (f <$> x) s =
      match x s with
      | .ok a s' => .ok (f a) s'
      | .error e s' => .error e s' := rfl

/-- The first half of a bind, once its outcome is known. -/
theorem bind_ok {x : EStateM ε σ α} {f : α → EStateM ε σ β} {s s' : σ} {a : α}
    (h : x s = .ok a s') : (x >>= f) s = f a s' := by
  rw [run_bind, h]

theorem bind_error {x : EStateM ε σ α} {f : α → EStateM ε σ β} {s s' : σ} {e : ε}
    (h : x s = .error e s') : (x >>= f) s = .error e s' := by
  rw [run_bind, h]

/-- A successful bind passes through a successful first half. -/
theorem bind_eq_ok {x : EStateM ε σ α} {f : α → EStateM ε σ β} {s s' : σ} {b : β}
    (h : (x >>= f) s = .ok b s') : ∃ a s₁, x s = .ok a s₁ ∧ f a s₁ = .ok b s' := by
  rw [run_bind] at h
  cases hx : x s with
  | error e s₁ => simp [hx] at h
  | ok a s₁ => exact ⟨a, s₁, rfl, by simpa [hx] using h⟩

end Effect
