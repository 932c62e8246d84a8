import Mirrorscope.Lib.Hoare

/-! # Objects in a system

A method of an object reads and updates the object, and calls into the system the
object lives in. A call answers or fails, and never touches the object.
-/

namespace Run

variable {ε δ σ ω α : Type}

/-- An object and the system it lives in. -/
structure Hosted (σ ω : Type) where
  object : σ
  host : ω

/-- Read the object. -/
def object : Run ε (Hosted σ ω) σ := fun w => some (.ok w.object, w)

/-- Update the object. -/
def modifyObject (f : σ → σ) : Run ε (Hosted σ ω) Unit :=
  update fun w => { w with object := f w.object }

/-- A call into the system, with its failure as an answer. -/
def tryCall (call : ω → Except δ α × ω) : Run ε (Hosted σ ω) (Except δ α) :=
  lift fun w =>
    let (answer, host) := call w.host
    (.ok answer, { w with host })

/-- A call into the system, with its failure as a failure of the method. -/
def call (err : δ → ε) (c : ω → Except δ α × ω) : Run ε (Hosted σ ω) α := do
  match ← tryCall c with
  | .ok a => pure a
  | .error e => fail (err e)

/-! ## Execution of the primitives -/

theorem exec_object (w : Hosted σ ω) :
    exec (object : Run ε (Hosted σ ω) σ) w = some (.ok w.object, w) := rfl

theorem exec_modifyObject (f : σ → σ) (w : Hosted σ ω) :
    exec (modifyObject f : Run ε (Hosted σ ω) Unit) w =
      some (.ok (), { w with object := f w.object }) := rfl

theorem exec_tryCall {c : ω → Except δ α × ω} {w : Hosted σ ω} {answer : Except δ α} {host : ω}
    (h : c w.host = (answer, host)) :
    exec (tryCall c : Run ε (Hosted σ ω) _) w = some (.ok answer, { w with host }) := by
  rw [exec, tryCall, lift, h]

theorem exec_call {err : δ → ε} {c : ω → Except δ α × ω} {w : Hosted σ ω} {a : α} {host : ω}
    (h : c w.host = (.ok a, host)) : exec (call err c) w = some (.ok a, { w with host }) :=
  bind_ok (exec_tryCall h)

/-! ## Taking executions apart -/

theorem exec_object_inv {w w' : Hosted σ ω} {r : Except ε σ}
    (h : exec (object : Run ε (Hosted σ ω) σ) w = some (r, w')) : r = .ok w.object ∧ w = w' := by
  obtain ⟨hr, hw⟩ := Prod.mk.inj (Option.some.inj h)
  exact ⟨hr.symm, hw⟩

theorem exec_modifyObject_inv {f : σ → σ} {w w' : Hosted σ ω} {r : Except ε Unit}
    (h : exec (modifyObject f) w = some (r, w')) :
    r = .ok () ∧ w' = { w with object := f w.object } := by
  obtain ⟨hr, hw⟩ := Prod.mk.inj (Option.some.inj h)
  exact ⟨hr.symm, hw.symm⟩

theorem exec_tryCall_inv {c : ω → Except δ α × ω} {w w' : Hosted σ ω} {r : Except ε (Except δ α)}
    (h : exec (tryCall c) w = some (r, w')) :
    r = .ok (c w.host).1 ∧ w' = { w with host := (c w.host).2 } := by
  obtain ⟨hr, hw⟩ := Prod.mk.inj (Option.some.inj h)
  exact ⟨hr.symm, hw.symm⟩

/-- A call that answered. -/
theorem exec_call_ok {err : δ → ε} {c : ω → Except δ α × ω} {w w' : Hosted σ ω} {a : α}
    (h : exec (call err c) w = some (.ok a, w')) :
    (c w.host).1 = .ok a ∧ w' = { w with host := (c w.host).2 } := by
  obtain ⟨answer, u, htry, hrest⟩ := bind_ok_inv h
  obtain ⟨hanswer, rfl⟩ := exec_tryCall_inv htry
  rcases Except.ok.inj hanswer with rfl
  split at hrest
  · rename_i b hb
    obtain ⟨hr, hw⟩ := Prod.mk.inj (Option.some.inj hrest)
    rcases Except.ok.inj hr with rfl
    exact ⟨hb, hw.symm⟩
  · cases hrest

theorem exec_call_object {err : δ → ε} {c : ω → Except δ α × ω} {w w' : Hosted σ ω} {a : α}
    (h : exec (call err c) w = some (.ok a, w')) : w'.object = w.object := by
  rw [(exec_call_ok h).2]

/-! ## What calls leave alone -/

variable {P Q : σ → Prop}

theorem object_keeps : Keeps (fun w : Hosted σ ω => P w.object) (object : Run ε _ σ) := by
  intro w hw r w' h
  obtain ⟨rfl, rfl⟩ := exec_object_inv h
  exact hw

theorem modifyObject_spec {f : σ → σ} {E : ε → Hosted σ ω → Prop} (hf : ∀ s, P s → Q (f s)) :
    Spec (fun w : Hosted σ ω => P w.object) (modifyObject f) (fun _ w => Q w.object) E := by
  intro w hw r w' h
  obtain ⟨rfl, rfl⟩ := exec_modifyObject_inv h
  exact hf _ hw

theorem tryCall_keeps (c : ω → Except δ α × ω) :
    Keeps (fun w : Hosted σ ω => P w.object) (tryCall c : Run ε _ _) := by
  intro w hw r w' h
  obtain ⟨rfl, rfl⟩ := exec_tryCall_inv h
  exact hw

theorem call_keeps (err : δ → ε) (c : ω → Except δ α × ω) :
    Keeps (fun w : Hosted σ ω => P w.object) (call err c) := by
  refine Keeps.bind (tryCall_keeps c) fun answer => ?_
  cases answer with
  | ok a => exact Keeps.pure
  | error e => exact Keeps.fail

/-! ## Parts of a state -/

variable {τ : Type}

/-- Run a computation on a part of the state, with its failure as one of the whole. -/
def zoom (get : σ → τ) (set : τ → σ → σ) (err : δ → ε) (m : Run δ τ α) : Run ε σ α := fun s =>
  match exec m (get s) with
  | none => none
  | some (.ok a, t) => some (.ok a, set t s)
  | some (.error e, t) => some (.error (err e), set t s)

theorem exec_zoom_ok {get : σ → τ} {set : τ → σ → σ} {err : δ → ε} {m : Run δ τ α} {s : σ} {t : τ}
    {a : α} (h : exec m (get s) = some (.ok a, t)) :
    exec (zoom get set err m) s = some (.ok a, set t s) := by
  rw [exec, zoom, h]

theorem exec_zoom_ok_inv {get : σ → τ} {set : τ → σ → σ} {err : δ → ε} {m : Run δ τ α} {s s' : σ}
    {a : α} (h : exec (zoom get set err m) s = some (.ok a, s')) :
    ∃ t, exec m (get s) = some (.ok a, t) ∧ s' = set t s := by
  rw [exec, zoom] at h
  split at h
  · cases h
  · rename_i b t hm
    rcases Prod.mk.inj (Option.some.inj h) with ⟨hb, rfl⟩
    rcases Except.ok.inj hb with rfl
    exact ⟨t, hm, rfl⟩
  · cases h

end Run
