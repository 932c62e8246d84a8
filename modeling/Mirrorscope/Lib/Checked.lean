import Mathlib.Algebra.Group.Nat.Defs
import Mirrorscope.Lib.Effect

/-! # Checked arithmetic

Programs on 64-bit numbers in which an overflow stops the program. `Runs x y C` says
of a checked program `x` that it does what the plain program `y` does where `C`
holds, and overflows where `C` does not; the rules give `C` construct by construct.
-/

namespace Checked

/-- How a checked program ends without a result: with an error that it returns, or
with an overflow. -/
inductive Stop (ε : Type) where
  | error (e : ε)
  | overflow
deriving DecidableEq, Repr

/-- A program whose arithmetic is checked. -/
abbrev Prog (ε α : Type) := Except (Stop ε) α

variable {ε α β σ : Type}

/-- The sum is a 64-bit number. -/
def Fits (a b : UInt64) : Prop := a.toNat + b.toNat < 2 ^ 64

/-- The product is a 64-bit number. -/
def FitsMul (a b : UInt64) : Prop := a.toNat * b.toNat < 2 ^ 64

instance (a b : UInt64) : Decidable (Fits a b) :=
  inferInstanceAs (Decidable (_ < _))

instance (a b : UInt64) : Decidable (FitsMul a b) :=
  inferInstanceAs (Decidable (_ < _))

def add (a b : UInt64) : Prog ε UInt64 := if Fits a b then pure (a + b) else throw .overflow

def mul (a b : UInt64) : Prog ε UInt64 := if FitsMul a b then pure (a * b) else throw .overflow

def sub (a b : UInt64) : Prog ε UInt64 := if b ≤ a then pure (a - b) else throw .overflow

/-- A shift by a number of bits, which has to be below 64. -/
def shl (a : UInt64) (bits : Nat) : Prog ε UInt64 :=
  if bits < 64 then pure (a <<< UInt64.ofNat bits) else throw .overflow

/-- A program without arithmetic. -/
def lift (x : Except ε α) : Prog ε α := x.mapError .error

/-- Errors turned into others. -/
def mapErr {ε' : Type} (f : ε → ε') (x : Prog ε α) : Prog ε' α :=
  x.mapError fun
    | .error e => .error (f e)
    | .overflow => .overflow

/-- A result, if there is one; errors are dropped. -/
def toOption {ε' : Type} : Prog ε α → Prog ε' (Option α)
  | .ok a => .ok (some a)
  | .error (.error _) => .ok none
  | .error .overflow => .error .overflow

/-- The program does not overflow: it returns a result or an error. -/
def Safe (x : Prog ε α) : Prop := x ≠ .error .overflow

theorem Fits.toNat_add {a b : UInt64} (h : Fits a b) : (a + b).toNat = a.toNat + b.toNat := by
  rw [UInt64.toNat_add]
  exact Nat.mod_eq_of_lt h

theorem add_of_fits {a b : UInt64} (h : Fits a b) : (add a b : Prog ε UInt64) = .ok (a + b) :=
  if_pos h

theorem add_of_not_fits {a b : UInt64} (h : ¬ Fits a b) :
    (add a b : Prog ε UInt64) = .error .overflow :=
  if_neg h

theorem mul_of_fits {a b : UInt64} (h : FitsMul a b) : (mul a b : Prog ε UInt64) = .ok (a * b) :=
  if_pos h

/-- A program without arithmetic that has succeeded. -/
theorem lift_ok_bind (a : α) (f : α → Prog ε β) : (lift (.ok a) >>= f) = f a := rfl

theorem lift_eq_ok {x : Except ε α} {a : α} : lift x = .ok a ↔ x = .ok a := by
  cases x <;> simp [lift, Except.mapError]

theorem run_lift_add {a b c : UInt64} :
    (OptionT.lift (add a b : Prog ε UInt64)).run = .ok (some c) ↔ Fits a b ∧ c = a + b := by
  rw [OptionT.run_lift]
  by_cases hfits : Fits a b
  · rw [add_of_fits hfits]
    simp [hfits, Functor.map, Except.map, eq_comm]
  · rw [add_of_not_fits hfits]
    simp [hfits, Functor.map, Except.map]

theorem lift_ne_overflow (x : Except ε α) : lift x ≠ .error .overflow := by
  cases x with
  | error e => simp [lift, Except.mapError]
  | ok a => simp [lift, Except.mapError]

/-! ## Programs that do not overflow -/

theorem Safe.pure {a : α} : Safe (pure a : Prog ε α) := fun h => nomatch h

theorem Safe.throw {e : ε} : Safe (throw (.error e) : Prog ε α) := fun h => nomatch h

theorem Safe.bind {x : Prog ε α} {f : α → Prog ε β} (hx : Safe x)
    (hf : ∀ a, x = .ok a → Safe (f a)) : Safe (x >>= f) := by
  rcases x with (_ | _) | a
  · exact fun h => nomatch h
  · exact absurd rfl hx
  · exact hf a rfl

/-- A result worked out without arithmetic changes nothing. -/
theorem Safe.map_iff {x : Prog ε α} {f : α → β} :
    Safe (x >>= fun a => Pure.pure (f a)) ↔ Safe x := by
  rcases x with (_ | _) | a
  · exact ⟨fun _ => Safe.throw, fun _ => Safe.throw⟩
  · exact ⟨fun h => absurd rfl h, fun h => absurd rfl h⟩
  · exact ⟨fun _ => Safe.pure, fun _ => Safe.pure⟩

theorem Safe.add_bind {a b : UInt64} {f : UInt64 → Prog ε α} (h : Fits a b)
    (hf : Safe (f (a + b))) : Safe (add a b >>= f) := by
  rw [add_of_fits h]
  exact hf

theorem Safe.mul_bind {a b : UInt64} {f : UInt64 → Prog ε α} (h : FitsMul a b)
    (hf : Safe (f (a * b))) : Safe (mul a b >>= f) := by
  rw [mul_of_fits h]
  exact hf

theorem Safe.foldlM {f : σ → α → Prog ε σ} {as : List α} (hf : ∀ s, ∀ a ∈ as, Safe (f s a))
    (s : σ) : Safe (as.foldlM f s) := by
  induction as generalizing s with
  | nil => exact Safe.pure
  | cons a as ih =>
    rw [List.foldlM_cons]
    exact Safe.bind (hf s a (by simp)) fun s' _ => ih (fun s b hb => hf s b (by simp [hb])) s'

/-! ## Where a checked program does what the plain one does -/

/-- `x` does what `y` does where `C` holds, and overflows where it does not. -/
def Runs (x : Prog ε α) (y : Except ε α) (C : Prop) : Prop :=
  (C → x = lift y) ∧ (¬ C → x = .error .overflow)

section Runs

variable {x : Prog ε α} {y : Except ε α} {C : Prop}

theorem Runs.safe_iff (h : Runs x y C) : Safe x ↔ C := by
  constructor
  · intro hsafe
    by_contra hC
    exact hsafe (h.2 hC)
  · intro hC
    rw [Safe, h.1 hC]
    exact lift_ne_overflow y

theorem Runs.congr {D : Prop} (h : Runs x y C) (hCD : C ↔ D) : Runs x y D :=
  ⟨fun hD => h.1 (hCD.mpr hD), fun hD => h.2 fun hC => hD (hCD.mp hC)⟩

theorem Runs.pure {a : α} : Runs (pure a : Prog ε α) (pure a) True :=
  ⟨fun _ => rfl, fun h => absurd trivial h⟩

theorem Runs.throw {e : ε} : Runs (throw (.error e) : Prog ε α) (throw e) True :=
  ⟨fun _ => rfl, fun h => absurd trivial h⟩

theorem Runs.lift {y : Except ε α} : Runs (lift y) y True :=
  ⟨fun _ => rfl, fun h => absurd trivial h⟩

/-- One program after the other: the second matters only where the first succeeds. -/
theorem Runs.bind {f : α → Prog ε β} {g : α → Except ε β} {D : α → Prop} (hx : Runs x y C)
    (hf : ∀ a, Runs (f a) (g a) (D a)) :
    Runs (x >>= f) (y >>= g) (C ∧ ∀ a, y = .ok a → D a) := by
  by_cases hC : C
  · have hxy := hx.1 hC
    cases y with
    | error e =>
      have hstop : x >>= f = .error (.error e) := by rw [hxy]; rfl
      refine ⟨fun _ => hstop, fun hnot => ?_⟩
      exact absurd ⟨hC, fun a h => by cases h⟩ hnot
    | ok a =>
      have hgo : x >>= f = f a := by rw [hxy]; rfl
      constructor
      · rintro ⟨-, hD⟩
        rw [hgo]
        exact (hf a).1 (hD a rfl)
      · intro hnot
        rw [hgo]
        refine (hf a).2 fun hD => hnot ⟨hC, ?_⟩
        intro a' h
        cases h
        exact hD
  · have hstop : x >>= f = .error .overflow := by rw [hx.2 hC]; rfl
    exact ⟨fun h => absurd h.1 hC, fun _ => hstop⟩

/-- A program without arithmetic, then another. -/
theorem Runs.lift_bind {f : α → Prog ε β} {g : α → Except ε β} {D : α → Prop}
    (hf : ∀ a, Runs (f a) (g a) (D a)) :
    Runs (Checked.lift y >>= f) (y >>= g) (∀ a, y = .ok a → D a) :=
  (Runs.bind Runs.lift hf).congr ⟨fun h => h.2, fun h => ⟨trivial, h⟩⟩

/-- A sum, then the rest. -/
theorem Runs.add_bind {a b : UInt64} {f : UInt64 → Prog ε α} {D : Prop}
    (hf : Runs (f (a + b)) y D) : Runs (add a b >>= f) y (Fits a b ∧ D) := by
  by_cases h : Fits a b
  · have hgo : add a b >>= f = f (a + b) := by rw [add_of_fits h]; rfl
    rw [hgo]
    exact hf.congr ⟨fun hD => ⟨h, hD⟩, fun hD => hD.2⟩
  · have hstop : add a b >>= f = .error .overflow := by rw [add_of_not_fits h]; rfl
    exact ⟨fun hD => absurd hD.1 h, fun _ => hstop⟩

/-- A product, then the rest. -/
theorem Runs.mul_bind {a b : UInt64} {f : UInt64 → Prog ε α} {D : Prop}
    (hf : Runs (f (a * b)) y D) : Runs (mul a b >>= f) y (FitsMul a b ∧ D) := by
  by_cases h : FitsMul a b
  · have hgo : mul a b >>= f = f (a * b) := by rw [mul_of_fits h]; rfl
    rw [hgo]
    exact hf.congr ⟨fun hD => ⟨h, hD⟩, fun hD => hD.2⟩
  · have hstop : mul a b >>= f = .error .overflow := by rw [mul, if_neg h]; rfl
    exact ⟨fun hD => absurd hD.1 h, fun _ => hstop⟩

/-- A shift, then the rest. -/
theorem Runs.shl_bind {a : UInt64} {bits : Nat} {f : UInt64 → Prog ε α} {D : Prop}
    (hf : Runs (f (a <<< UInt64.ofNat bits)) y D) :
    Runs (shl a bits >>= f) y (bits < 64 ∧ D) := by
  by_cases h : bits < 64
  · have hgo : shl a bits >>= f = f (a <<< UInt64.ofNat bits) := by rw [shl, if_pos h]; rfl
    rw [hgo]
    exact hf.congr ⟨fun hD => ⟨h, hD⟩, fun hD => hD.2⟩
  · have hstop : shl a bits >>= f = .error .overflow := by rw [shl, if_neg h]; rfl
    exact ⟨fun hD => absurd hD.1 h, fun _ => hstop⟩

theorem Runs.mapErr {ε' : Type} (hx : Runs x y C) (f : ε → ε') :
    Runs (mapErr f x) (y.mapError f) C := by
  constructor
  · intro hC
    rw [hx.1 hC]
    cases y <;> rfl
  · intro hC
    rw [hx.2 hC]
    rfl

/-- A fold: each step matters only where those before it succeed. -/
theorem Runs.foldlM {f : σ → α → Prog ε σ} {g : σ → α → Except ε σ} {D : σ → α → Prop}
    (hf : ∀ s a, Runs (f s a) (g s a) (D s a)) (as : List α) (s : σ) :
    Runs (as.foldlM f s) (as.foldlM g s)
      (∀ pre a post s', as = pre ++ a :: post → pre.foldlM g s = .ok s' → D s' a) := by
  induction as generalizing s with
  | nil => exact Runs.pure.congr (by simp)
  | cons a as ih =>
    rw [List.foldlM_cons, List.foldlM_cons]
    refine (Runs.bind (hf s a) fun s' => ih s').congr ?_
    constructor
    · rintro ⟨hfirst, hrest⟩ pre b post s' hsplit hpre
      cases pre with
      | nil =>
        obtain ⟨rfl, -⟩ := List.cons.inj hsplit
        cases hpre
        exact hfirst
      | cons c pre =>
        obtain ⟨rfl, htail⟩ := List.cons.inj hsplit
        rw [List.foldlM_cons] at hpre
        obtain ⟨s₁, hs₁, hpre⟩ := Effect.except_bind_ok hpre
        exact hrest s₁ hs₁ pre b post s' htail hpre
    · intro h
      refine ⟨h [] a as s rfl rfl, ?_⟩
      intro s₁ hs₁ pre b post s' htail hpre
      refine h (a :: pre) b post s' (by rw [htail]; rfl) ?_
      rw [List.foldlM_cons, hs₁]
      exact hpre

/-- A fold whose steps succeed or fail whatever was made before them. -/
theorem Runs.foldlM_each {f : σ → α → Prog ε σ} {g : σ → α → Except ε σ} {D OK : α → Prop}
    (hf : ∀ s a, Runs (f s a) (g s a) (D a)) (hok : ∀ s a, (∃ s', g s a = .ok s') ↔ OK a)
    (as : List α) (s : σ) :
    Runs (as.foldlM f s) (as.foldlM g s)
      (∀ pre a post, as = pre ++ a :: post → (∀ b ∈ pre, OK b) → D a) := by
  have hall (bs : List α) (s : σ) : (∃ s', bs.foldlM g s = .ok s') ↔ ∀ b ∈ bs, OK b := by
    induction bs generalizing s with
    | nil => exact ⟨fun _ => by simp, fun _ => ⟨s, rfl⟩⟩
    | cons b bs ih =>
      rw [List.foldlM_cons]
      constructor
      · rintro ⟨s', h⟩
        obtain ⟨s₁, hfirst, hrest⟩ := Effect.except_bind_ok h
        have htail := (ih s₁).mp ⟨s', hrest⟩
        intro c hc
        rcases List.mem_cons.mp hc with rfl | hc
        · exact (hok s c).mp ⟨s₁, hfirst⟩
        · exact htail c hc
      · intro h
        obtain ⟨s₁, hfirst⟩ := (hok s b).mpr (h b (by simp))
        obtain ⟨s', hrest⟩ := (ih s₁).mpr fun c hc => h c (by simp [hc])
        exact ⟨s', by rw [hfirst]; exact hrest⟩
  refine (Runs.foldlM hf as s).congr ?_
  constructor
  · intro h pre a post hsplit hpre
    obtain ⟨s', hs'⟩ := (hall pre s).mpr hpre
    exact h pre a post s' hsplit hs'
  · intro h pre a post s' hsplit hs'
    exact h pre a post hsplit ((hall pre s).mp ⟨s', hs'⟩)

/-- Such a fold over the numbers below `n`. -/
theorem Runs.foldlM_range {f : σ → Nat → Prog ε σ} {g : σ → Nat → Except ε σ} {D OK : Nat → Prop}
    (hf : ∀ s i, Runs (f s i) (g s i) (D i)) (hok : ∀ s i, (∃ s', g s i = .ok s') ↔ OK i)
    (n : Nat) (s : σ) :
    Runs ((List.range n).foldlM f s) ((List.range n).foldlM g s)
      (∀ i < n, (∀ j < i, OK j) → D i) := by
  refine (Runs.foldlM_each hf hok (List.range n) s).congr ?_
  constructor
  · intro h i hi hbefore
    have hsplit : List.range n =
        List.range i ++ i :: (List.range (n - i - 1)).map (· + (i + 1)) := by
      have hn : n = i + 1 + (n - i - 1) := by omega
      conv_lhs => rw [hn, List.range_add, List.range_succ]
      simp [Nat.add_comm]
    exact h _ i _ hsplit fun j hj => hbefore j (List.mem_range.mp hj)
  · intro h pre i post hsplit hpre
    have hlen := congrArg List.length hsplit
    simp only [List.length_range, List.length_append, List.length_cons] at hlen
    have hget : (List.range n)[pre.length]? = some i := by simp [hsplit]
    rw [List.getElem?_range (by omega), Option.some.injEq] at hget
    have hinit : pre = List.range i := by
      have htake := congrArg (List.take pre.length) hsplit
      rw [List.take_left, List.take_range, Nat.min_eq_left (by omega), hget] at htake
      exact htake.symm
    refine h i (by omega) fun j hj => hpre j ?_
    rw [hinit]
    exact List.mem_range.mpr hj

end Runs

end Checked
