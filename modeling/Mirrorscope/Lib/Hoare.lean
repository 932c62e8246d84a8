import Mirrorscope.Lib.Run

/-! # Pre- and postconditions

What a computation does, if it returns: from a state with the precondition it
answers in a state with the postcondition of that answer, or fails in a state
with the postcondition of that failure. The rules follow the ways computations
are put together; for a loop, one round keeps the invariant.
-/

namespace Run

variable {ε σ α β : Type}

/-- If `m` returns from a state with `P`, an answer has `Q` and a failure has `E`. -/
def Spec (P : σ → Prop) (m : Run ε σ α) (Q : α → σ → Prop) (E : ε → σ → Prop) : Prop :=
  ∀ s, P s → ∀ r t, exec m s = some (r, t) →
    match r with
    | .ok a => Q a t
    | .error e => E e t

/-- After one round of a loop: the invariant again, or the postcondition of the answer. -/
def Round (P : σ → Prop) (Q : α → σ → Prop) : Option α → σ → Prop
  | none, s => P s
  | some a, s => Q a s

/-- `m` keeps `P`, however it ends. -/
def Keeps (P : σ → Prop) (m : Run ε σ α) : Prop := Spec P m (fun _ => P) (fun _ => P)

variable {P P' : σ → Prop} {Q Q' : α → σ → Prop} {E E' : ε → σ → Prop}

namespace Spec

theorem ok {m : Run ε σ α} (h : Spec P m Q E) {s t : σ} {a : α} (hs : P s)
    (hexec : exec m s = some (.ok a, t)) : Q a t :=
  h s hs _ t hexec

theorem error {m : Run ε σ α} (h : Spec P m Q E) {s t : σ} {e : ε} (hs : P s)
    (hexec : exec m s = some (.error e, t)) : E e t :=
  h s hs _ t hexec

theorem mono {m : Run ε σ α} (h : Spec P m Q E) (hP : ∀ s, P' s → P s)
    (hQ : ∀ a s, Q a s → Q' a s) (hE : ∀ e s, E e s → E' e s) : Spec P' m Q' E' := by
  intro s hs r t hexec
  have hpost := h s (hP s hs) r t hexec
  cases r with
  | ok a => exact hQ a t hpost
  | error e => exact hE e t hpost

/-- Two specifications of one computation hold together. -/
theorem and {m : Run ε σ α} (h : Spec P m Q E) (h' : Spec P' m Q' E') :
    Spec (fun s => P s ∧ P' s) m (fun a s => Q a s ∧ Q' a s) (fun e s => E e s ∧ E' e s) := by
  rintro s ⟨hs, hs'⟩ r t hexec
  have hpost := h s hs r t hexec
  have hpost' := h' s hs' r t hexec
  cases r with
  | ok a => exact ⟨hpost, hpost'⟩
  | error e => exact ⟨hpost, hpost'⟩

/-- What holds of the answers only. -/
theorem answers {m : Run ε σ α} (h : Spec P m Q E) : Spec P m Q (fun _ _ => True) :=
  h.mono (fun _ hs => hs) (fun _ _ hs => hs) (fun _ _ _ => trivial)

/-- Nothing is asked of a computation that may do anything. -/
theorem top (m : Run ε σ α) : Spec P m (fun _ _ => True) (fun _ _ => True) := by
  intro s _ r t _
  cases r with
  | ok a => trivial
  | error e => trivial

theorem pure {a : α} (h : ∀ s, P s → Q a s) : Spec P (pure a : Run ε σ α) Q E := by
  intro s hs r t hexec
  rcases Prod.mk.inj (Option.some.inj hexec) with ⟨rfl, rfl⟩
  exact h s hs

theorem fail {e : ε} (h : ∀ s, P s → E e s) : Spec P (fail e : Run ε σ α) Q E := by
  intro s hs r t hexec
  rcases Prod.mk.inj (Option.some.inj hexec) with ⟨rfl, rfl⟩
  exact h s hs

theorem never : Spec P (never : Run ε σ α) Q E := by
  intro s _ r t hexec
  cases hexec

theorem read {Q : σ → σ → Prop} (h : ∀ s, P s → Q s s) : Spec P (read : Run ε σ σ) Q E := by
  intro s hs r t hexec
  rcases Prod.mk.inj (Option.some.inj hexec) with ⟨rfl, rfl⟩
  exact h s hs

theorem update {f : σ → σ} {Q : Unit → σ → Prop} (h : ∀ s, P s → Q () (f s)) :
    Spec P (update f : Run ε σ Unit) Q E := by
  intro s hs r t hexec
  rcases Prod.mk.inj (Option.some.inj hexec) with ⟨rfl, rfl⟩
  exact h s hs

theorem bind {m : Run ε σ α} {f : α → Run ε σ β} {R : β → σ → Prop} (hm : Spec P m Q E)
    (hf : ∀ a, Spec (Q a) (f a) R E) : Spec P (m >>= f) R E := by
  intro s hs r t hexec
  rcases bind_inv hexec with ⟨e, he, rfl⟩ | ⟨a, u, ha, hrest⟩
  · exact hm s hs _ t he
  · exact hf a u (hm s hs _ u ha) r t hrest

/-- Name the state before. -/
theorem intro {m : Run ε σ α} (h : ∀ s, P s → Spec (fun t => t = s) m Q E) : Spec P m Q E := by
  intro s hs r t hexec
  exact h s hs s rfl r t hexec

/-- A fact in the precondition that is not about the state. -/
theorem assume {p : Prop} {m : Run ε σ α} (h : p → Spec P m Q E) :
    Spec (fun s => p ∧ P s) m Q E :=
  fun s hs => h hs.1 s hs.2

theorem when {c : Bool} {m : Run ε σ Unit} {Q : Unit → σ → Prop} (hm : c = true → Spec P m Q E)
    (hskip : c = false → ∀ s, P s → Q () s) : Spec P (when c m) Q E := by
  cases c with
  | true => exact hm rfl
  | false => exact pure (hskip rfl)

theorem attempt {m : Run ε σ α} {Q : Unit → σ → Prop}
    (hm : Spec P m (fun _ => Q ()) (fun _ => Q ())) : Spec P (attempt m) Q E := by
  intro s hs r t hexec
  rw [exec_attempt] at hexec
  split at hexec
  · cases hexec
  · rename_i answer u hm'
    rcases Prod.mk.inj (Option.some.inj hexec) with ⟨rfl, rfl⟩
    have hpost := hm s hs answer u hm'
    cases answer with
    | ok a => exact hpost
    | error e => exact hpost

/-- A loop whose rounds keep the precondition ends as its last round does. -/
theorem loop {body : Run ε σ (Option α)}
    (h : Spec P body (Round P Q) E) :
    Spec P (loop body) Q E := by
  intro s hs r t hexec
  rcases loop_inv hexec with ⟨n, u, hrounds, hleaves⟩
  have hu : P u := hrounds.invariant P (fun v v' hv hbody => h.ok hv hbody) hs
  rcases hleaves with ⟨a, ha, rfl⟩ | ⟨e, he, rfl⟩
  · exact h.ok hu ha
  · exact h.error hu he

end Spec

/-- From every state with `P`, `m` returns an answer with `Q`. -/
def Returns (P : σ → Prop) (m : Run ε σ α) (Q : α → σ → Prop) : Prop :=
  ∀ s, P s → ∃ a t, exec m s = some (.ok a, t) ∧ Q a t

namespace Returns

theorem mono {m : Run ε σ α} (h : Returns P m Q) (hP : ∀ s, P' s → P s)
    (hQ : ∀ a s, Q a s → Q' a s) : Returns P' m Q' := by
  intro s hs
  rcases h s (hP s hs) with ⟨a, t, hexec, hpost⟩
  exact ⟨a, t, hexec, hQ a t hpost⟩

theorem pure {a : α} (h : ∀ s, P s → Q a s) : Returns P (pure a : Run ε σ α) Q :=
  fun s hs => ⟨a, s, rfl, h s hs⟩

theorem update {f : σ → σ} {Q : Unit → σ → Prop} (h : ∀ s, P s → Q () (f s)) :
    Returns P (update f : Run ε σ Unit) Q :=
  fun s hs => ⟨(), f s, rfl, h s hs⟩

theorem bind {m : Run ε σ α} {f : α → Run ε σ β} {R : β → σ → Prop} (hm : Returns P m Q)
    (hf : ∀ a, Returns (Q a) (f a) R) : Returns P (m >>= f) R := by
  intro s hs
  rcases hm s hs with ⟨a, t, hexec, hpost⟩
  rcases hf a t hpost with ⟨b, u, hexec', hpost'⟩
  exact ⟨b, u, by rw [bind_ok hexec, hexec'], hpost'⟩

theorem when {c : Bool} {m : Run ε σ Unit} {Q : Unit → σ → Prop} (hm : Returns P m Q)
    (hskip : ∀ s, P s → Q () s) : Returns P (when c m) Q := by
  cases c with
  | true => exact hm
  | false => exact pure hskip

/-- A fact in the precondition that is not about the state. -/
theorem assume {p : Prop} {m : Run ε σ α} (h : p → Returns P m Q) :
    Returns (fun s => p ∧ P s) m Q :=
  fun s hs => h hs.1 s hs.2

/-- What is known of every answer holds of the one returned. -/
theorem and {m : Run ε σ α} (h : Returns P m Q) (h' : Spec P m Q' E) :
    Returns P m (fun a s => Q a s ∧ Q' a s) := by
  intro s hs
  rcases h s hs with ⟨a, t, hexec, hpost⟩
  exact ⟨a, t, hexec, hpost, h'.ok hs hexec⟩

end Returns

/-- From every state, `m` returns an answer or a failure. -/
def Total (m : Run ε σ α) : Prop := ∀ s, ∃ r t, exec m s = some (r, t)

namespace Total

theorem pure {a : α} : Total (pure a : Run ε σ α) := fun s => ⟨_, s, rfl⟩

theorem fail {e : ε} : Total (fail e : Run ε σ α) := fun s => ⟨_, s, rfl⟩

theorem update {f : σ → σ} : Total (update f : Run ε σ Unit) := fun s => ⟨_, f s, rfl⟩

theorem bind {m : Run ε σ α} {f : α → Run ε σ β} (hm : Total m) (hf : ∀ a, Total (f a)) :
    Total (m >>= f) := by
  intro s
  obtain ⟨r, t, hexec⟩ := hm s
  cases r with
  | error e => exact ⟨_, t, bind_error hexec⟩
  | ok a =>
    obtain ⟨r, u, hrest⟩ := hf a t
    exact ⟨r, u, (bind_ok hexec).trans hrest⟩

theorem when {c : Bool} {m : Run ε σ Unit} (hm : Total m) : Total (when c m) := by
  cases c with
  | true => exact hm
  | false => exact pure

theorem attempt {m : Run ε σ α} (hm : Total m) : Total (attempt m) := by
  intro s
  rcases hm s with ⟨r, t, hexec⟩
  exact ⟨.ok (), t, by rw [exec_attempt, hexec]⟩

/-- A computation that has no answer with `Q` fails. -/
theorem fails {m : Run ε σ α} (hm : Total m) (h : Spec P m Q E) {s : σ} (hs : P s)
    (hnot : ∀ a t, ¬ Q a t) : ∃ e t, exec m s = some (.error e, t) := by
  obtain ⟨r, t, hexec⟩ := hm s
  cases r with
  | error e => exact ⟨e, t, hexec⟩
  | ok a => exact absurd (h.ok hs hexec) (hnot a t)

end Total

namespace Keeps

theorem pure {a : α} : Keeps P (pure a : Run ε σ α) := Spec.pure fun _ h => h

theorem fail {e : ε} : Keeps P (fail e : Run ε σ α) := Spec.fail fun _ h => h

theorem never : Keeps P (never : Run ε σ α) := Spec.never

theorem bind {m : Run ε σ α} {f : α → Run ε σ β} (hm : Keeps P m) (hf : ∀ a, Keeps P (f a)) :
    Keeps P (m >>= f) := Spec.bind hm hf

theorem when {c : Bool} {m : Run ε σ Unit} (hm : Keeps P m) : Keeps P (when c m) :=
  Spec.when (fun _ => hm) (fun _ _ h => h)

theorem attempt {m : Run ε σ α} (hm : Keeps P m) : Keeps P (attempt m) := Spec.attempt hm

theorem loop {body : Run ε σ (Option α)} (hbody : Keeps P body) : Keeps P (loop body) := by
  apply Spec.loop
  apply Spec.mono hbody (fun _ h => h) _ (fun _ _ h => h)
  intro r s hs
  cases r with
  | none => exact hs
  | some a => exact hs

end Keeps

end Run
