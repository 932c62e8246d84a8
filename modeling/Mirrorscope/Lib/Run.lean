import Mathlib.Order.Basic

/-! # Computations with state, errors and loops

A computation over a state that may fail or run forever. A failure keeps the
state it happened in, as a method that returns early through `?` does. A loop
runs its body until the body answers with a result; `none` stands for a
computation that never returns.
-/

/-- A computation over `σ`: the answer and the state after it, or no return. -/
def Run (ε σ α : Type) : Type := σ → Option (Except ε α × σ)

namespace Run

variable {ε σ α β : Type}

/-- Run a computation from a state. -/
def exec (m : Run ε σ α) (s : σ) : Option (Except ε α × σ) := m s

instance : Monad (Run ε σ) where
  pure a := fun s => some (.ok a, s)
  bind m f := fun s =>
    match m s with
    | none => none
    | some (.ok a, s) => f a s
    | some (.error e, s) => some (.error e, s)

/-- Fail, keeping the state. -/
def fail (e : ε) : Run ε σ α := fun s => some (.error e, s)

/-- Read the state. -/
def read : Run ε σ σ := fun s => some (.ok s, s)

/-- Update the state. -/
def update (f : σ → σ) : Run ε σ Unit := fun s => some (.ok (), f s)

/-- A total step on the state that answers or fails. -/
def lift (f : σ → Except ε α × σ) : Run ε σ α := fun s => some (f s)

/-- A panic: the caller never gets an answer. -/
def never : Run ε σ α := fun _ => none

/-- `if c { m }`. -/
def when (c : Bool) (m : Run ε σ Unit) : Run ε σ Unit := if c then m else pure ()

/-- Run a computation and drop its answer or its failure. -/
def attempt (m : Run ε σ α) : Run ε σ Unit := fun s =>
  match m s with
  | none => none
  | some (_, s) => some (.ok (), s)

@[simp] theorem exec_pure (a : α) (s : σ) : exec (pure a : Run ε σ α) s = some (.ok a, s) := rfl

@[simp] theorem exec_fail (e : ε) (s : σ) :
    exec (fail e : Run ε σ α) s = some (.error e, s) := rfl

@[simp] theorem exec_read (s : σ) : exec (read : Run ε σ σ) s = some (.ok s, s) := rfl

@[simp] theorem exec_update (f : σ → σ) (s : σ) :
    exec (update f : Run ε σ Unit) s = some (.ok (), f s) := rfl

@[simp] theorem when_true (m : Run ε σ Unit) : when true m = m := rfl

@[simp] theorem when_false (m : Run ε σ Unit) : when false m = pure () := rfl

@[simp] theorem exec_never (s : σ) : exec (never : Run ε σ α) s = none := rfl

theorem exec_attempt (m : Run ε σ α) (s : σ) :
    exec (attempt m) s =
      match exec m s with
      | none => none
      | some (_, s) => some (.ok (), s) := rfl

@[simp] theorem exec_lift (f : σ → Except ε α × σ) (s : σ) :
    exec (lift f : Run ε σ α) s = some (f s) := rfl

theorem exec_bind (m : Run ε σ α) (f : α → Run ε σ β) (s : σ) :
    exec (m >>= f) s =
      match exec m s with
      | none => none
      | some (.ok a, s) => exec (f a) s
      | some (.error e, s) => some (.error e, s) := rfl

/-! ## Composition -/

/-- Composition is associative: a chain of computations may be cut anywhere. -/
theorem bind_assoc {γ : Type} (m : Run ε σ α) (f : α → Run ε σ β) (g : β → Run ε σ γ) :
    m >>= f >>= g = m >>= fun a => f a >>= g := by
  funext s
  show exec (m >>= f >>= g) s = exec (m >>= fun a => f a >>= g) s
  rw [exec_bind, exec_bind, exec_bind]
  rcases exec m s with _ | ⟨_ | a, t⟩
  · rfl
  · rfl
  · rfl

theorem pure_bind (a : α) (f : α → Run ε σ β) : pure a >>= f = f a := rfl

theorem bind_ok {m : Run ε σ α} {f : α → Run ε σ β} {s t : σ} {a : α}
    (h : exec m s = some (.ok a, t)) : exec (m >>= f) s = exec (f a) t := by
  rw [exec_bind, h]

theorem bind_error {m : Run ε σ α} {f : α → Run ε σ β} {s t : σ} {e : ε}
    (h : exec m s = some (.error e, t)) : exec (m >>= f) s = some (.error e, t) := by
  rw [exec_bind, h]

/-- A composition that returned: either its first part failed, or it answered
and the second part returned. -/
theorem bind_inv {m : Run ε σ α} {f : α → Run ε σ β} {s t : σ} {r : Except ε β}
    (h : exec (m >>= f) s = some (r, t)) :
    (∃ e, exec m s = some (.error e, t) ∧ r = .error e) ∨
      ∃ a u, exec m s = some (.ok a, u) ∧ exec (f a) u = some (r, t) := by
  rw [exec_bind] at h
  split at h
  · cases h
  · rename_i a u hm
    exact .inr ⟨a, u, hm, h⟩
  · rename_i e u hm
    rcases Prod.mk.inj (Option.some.inj h) with ⟨rfl, rfl⟩
    exact .inl ⟨e, hm, rfl⟩

/-- A composition that answered: both parts did. -/
theorem bind_ok_inv {m : Run ε σ α} {f : α → Run ε σ β} {s t : σ} {b : β}
    (h : exec (m >>= f) s = some (.ok b, t)) :
    ∃ a u, exec m s = some (.ok a, u) ∧ exec (f a) u = some (.ok b, t) := by
  rcases bind_inv h with ⟨e, -, he⟩ | hok
  · cases he
  · exact hok

/-! ## Loops -/

/-- Run `body` until it answers with a result. -/
def iter (body : Run ε σ (Option α)) (s : σ) : Option (Except ε α × σ) := do
  match ← body.exec s with
  | (.ok none, t) => body |>.iter t
  | (.ok (some a), t) => some (.ok a, t)
  | (.error e, t) => some (.error e, t)
partial_fixpoint

/-- `loop { … }`: the body answers `none` to go round again. -/
def loop (body : Run ε σ (Option α)) : Run ε σ α := fun s => iter body s

/-- `n` rounds of a body lead from one state to another. -/
inductive Rounds (body : Run ε σ (Option α)) : Nat → σ → σ → Prop where
  | zero (s : σ) : Rounds body 0 s s
  | succ {n : Nat} {s t u : σ} (first : exec body s = some (.ok none, t))
      (rest : Rounds body n t u) : Rounds body (n + 1) s u

/-- The last round of a loop: the body answers or fails. -/
def Leaves (body : Run ε σ (Option α)) (s : σ) (r : Except ε α) (t : σ) : Prop :=
  (∃ a, exec body s = some (.ok (some a), t) ∧ r = .ok a) ∨
    ∃ e, exec body s = some (.error e, t) ∧ r = .error e

variable {body : Run ε σ (Option α)}

theorem loop_again {s t : σ} (h : exec body s = some (.ok none, t)) :
    exec (loop body) s = exec (loop body) t := by
  simp only [exec, loop]
  rw [iter]
  simp only [show body.exec s = _ from h]
  rfl

theorem loop_of_leaves {s t : σ} {r : Except ε α} (h : Leaves body s r t) :
    exec (loop body) s = some (r, t) := by
  simp only [exec, loop]
  rw [iter]
  rcases h with ⟨a, ha, rfl⟩ | ⟨e, he, rfl⟩
  · simp only [show body.exec s = _ from ha]
    rfl
  · simp only [show body.exec s = _ from he]
    rfl

theorem loop_of_rounds {n : Nat} {s t : σ} (h : Rounds body n s t) :
    exec (loop body) s = exec (loop body) t := by
  induction h with
  | zero s => rfl
  | succ first _ ih => rw [loop_again first, ih]

/-- A loop that returned went round some number of times and then left. -/
theorem loop_inv {s t : σ} {r : Except ε α} (h : exec (loop body) s = some (r, t)) :
    ∃ n u, Rounds body n s u ∧ Leaves body u r t := by
  refine iter.partial_correctness body
    (fun s rt => ∃ n u, Rounds body n s u ∧ Leaves body u rt.1 rt.2) ?_ s (r, t) h
  intro rec ih s rt hrec
  cases hb : body.exec s with
  | none =>
    rw [hb] at hrec
    cases hrec
  | some answer =>
    rw [hb] at hrec
    rcases answer with ⟨e | a, u⟩
    · rcases Option.some.inj hrec with rfl
      exact ⟨0, s, .zero s, .inr ⟨e, hb, rfl⟩⟩
    · cases a with
      | none =>
        -- one more round, and the rest by induction
        rcases ih u rt hrec with ⟨n, v, hrounds, hleaves⟩
        exact ⟨n + 1, v, .succ hb hrounds, hleaves⟩
      | some a =>
        rcases Option.some.inj hrec with rfl
        exact ⟨0, s, .zero s, .inl ⟨a, hb, rfl⟩⟩

theorem loop_returns {n : Nat} {s t u : σ} {r : Except ε α} (h : Rounds body n s t)
    (hleaves : Leaves body t r u) : exec (loop body) s = some (r, u) := by
  rw [loop_of_rounds h, loop_of_leaves hleaves]

theorem Rounds.trans {m n : Nat} {s t u : σ} (h : Rounds body m s t) (h' : Rounds body n t u) :
    Rounds body (m + n) s u := by
  induction h with
  | zero s => simpa using h'
  | succ first _ ih =>
    rw [Nat.add_right_comm]
    exact .succ first (ih h')

/-- What every round keeps, any number of rounds keeps. -/
theorem Rounds.invariant {n : Nat} {s t : σ} (P : σ → Prop)
    (hround : ∀ u v, P u → exec body u = some (.ok none, v) → P v) (h : Rounds body n s t)
    (hs : P s) : P t := by
  induction h with
  | zero s => exact hs
  | succ first _ ih => exact ih (hround _ _ hs first)

end Run
