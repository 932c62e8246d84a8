import Mirrorscope.Lib.Sim

/-! # Loops that stop early

A loop that is left as soon as its state passes a test takes the rounds of the
plain loop, up to the first state that passes. So where it stops is a fact about
the rounds from the start, whatever state of that run it is entered in.
-/

namespace Run

variable {ε σ α : Type}

/-- Leave with `a` where `stop` holds, else go round as `body` does. -/
def upTo (stop : σ → Bool) (a : α) (body : Run ε σ (Option α)) : Run ε σ (Option α) := fun s =>
  if stop s then some (.ok (some a), s) else exec body s

variable {stop : σ → Bool} {a : α} {body : Run ε σ (Option α)}

theorem exec_upTo_stop {s : σ} (h : stop s = true) :
    exec (upTo stop a body) s = some (.ok (some a), s) := by
  rw [exec, upTo, h]
  rfl

theorem exec_upTo_go {s : σ} (h : stop s = false) :
    exec (upTo stop a body) s = exec body s := by
  rw [exec, upTo, h]
  rfl

/-! ## Rounds -/

theorem Rounds.unique {n : Nat} {s t t' : σ} (h : Rounds body n s t) (h' : Rounds body n s t') :
    t = t' := by
  induction h with
  | zero s =>
    cases h' with
    | zero => rfl
  | succ first _ ih =>
    cases h' with
    | succ first' rest' =>
      rw [first] at first'
      rcases Prod.mk.inj (Option.some.inj first') with ⟨-, rfl⟩
      exact ih rest'

theorem Rounds.split {m n : Nat} {s u : σ} (h : Rounds body (m + n) s u) :
    ∃ t, Rounds body m s t ∧ Rounds body n t u := by
  induction m generalizing s with
  | zero => exact ⟨s, .zero s, by simpa using h⟩
  | succ m ih =>
    rw [Nat.add_right_comm] at h
    cases h with
    | succ first rest =>
      rcases ih rest with ⟨t, hm, hn⟩
      exact ⟨t, .succ first hm, hn⟩

/-- The state some rounds before. -/
theorem Rounds.before {m n : Nat} {s u : σ} (h : Rounds body n s u) (hle : m ≤ n) :
    ∃ t, Rounds body m s t ∧ Rounds body (n - m) t u := by
  apply Rounds.split
  rwa [Nat.add_sub_cancel' hle]

theorem Rounds.snoc {n : Nat} {s t u : σ} (h : Rounds body n s t)
    (last : exec body t = some (.ok none, u)) : Rounds body (n + 1) s u :=
  h.trans (.succ last (.zero u))

/-- No state before the `n`th round passes the test. -/
def Passing (stop : σ → Bool) (body : Run ε σ (Option α)) (n : Nat) (s : σ) : Prop :=
  ∀ m < n, ∀ v, Rounds body m s v → stop v = false

theorem Passing.append {m n : Nat} {s u : σ} (h : Passing stop body m s) (hu : Rounds body m s u)
    (h' : Passing stop body n u) : Passing stop body (m + n) s := by
  intro k hk v hv
  by_cases hlt : k < m
  · exact h k hlt v hv
  · have hsum : m + (k - m) = k := by omega
    rw [← hsum] at hv
    rcases hv.split with ⟨x, hx, hrest⟩
    rcases hx.unique hu with rfl
    exact h' (k - m) (by omega) v hrest

theorem Passing.after {m n : Nat} {s u : σ} (h : Passing stop body (m + n) s)
    (hu : Rounds body m s u) : Passing stop body n u := by
  intro k hk v hv
  exact h (m + k) (by omega) v (hu.trans hv)

theorem rounds_of_upTo {n : Nat} {s u : σ} (h : Rounds (upTo stop a body) n s u) :
    Rounds body n s u ∧ Passing stop body n s := by
  induction h with
  | zero s =>
    refine ⟨.zero s, ?_⟩
    intro m hm
    omega
  | @succ n s t u first _ ih =>
    have hgo : stop s = false := by
      cases hs : stop s with
      | false => rfl
      | true =>
        rw [exec_upTo_stop hs] at first
        cases first
    rw [exec_upTo_go hgo] at first
    refine ⟨.succ first ih.1, ?_⟩
    intro m hm v hv
    cases hv with
    | zero => exact hgo
    | succ first' rest' =>
      rw [first] at first'
      rcases Prod.mk.inj (Option.some.inj first') with ⟨-, rfl⟩
      exact ih.2 _ (by omega) v rest'

theorem upTo_of_rounds {n : Nat} {s u : σ} (h : Rounds body n s u)
    (hpassing : Passing stop body n s) : Rounds (upTo stop a body) n s u := by
  induction h with
  | zero s => exact .zero s
  | @succ n s t u first _ ih =>
    have hgo : stop s = false := hpassing 0 (by omega) s (.zero s)
    refine .succ (by rw [exec_upTo_go hgo, first]) (ih ?_)
    intro m hm v hv
    exact hpassing (m + 1) (by omega) v (.succ first hv)

/-! ## Where the loop is left -/

/-- The loop returns at the first state that passes, or where the plain loop does before. -/
theorem loop_upTo_inv {s t : σ} {r : Except ε α}
    (h : exec (loop (upTo stop a body)) s = some (r, t)) :
    ∃ n u, Rounds body n s u ∧ Passing stop body n s ∧
      ((stop u = true ∧ r = .ok a ∧ t = u) ∨ (stop u = false ∧ Leaves body u r t)) := by
  rcases loop_inv h with ⟨n, u, hrounds, hleaves⟩
  rcases rounds_of_upTo hrounds with ⟨hbody, hpassing⟩
  refine ⟨n, u, hbody, hpassing, ?_⟩
  cases hu : stop u with
  | true =>
    left
    rcases hleaves with ⟨b, hb, rfl⟩ | ⟨e, he, rfl⟩
    · rw [exec_upTo_stop hu] at hb
      rcases Prod.mk.inj (Option.some.inj hb) with ⟨hok, rfl⟩
      rcases Option.some.inj (Except.ok.inj hok) with rfl
      exact ⟨rfl, rfl, rfl⟩
    · rw [exec_upTo_stop hu] at he
      cases he
  | false =>
    right
    refine ⟨rfl, ?_⟩
    rcases hleaves with ⟨b, hb, rfl⟩ | ⟨e, he, rfl⟩
    · rw [exec_upTo_go hu] at hb
      exact .inl ⟨b, hb, rfl⟩
    · rw [exec_upTo_go hu] at he
      exact .inr ⟨e, he, rfl⟩

theorem loop_upTo_stops {n : Nat} {s u : σ} (h : Rounds body n s u)
    (hpassing : Passing stop body n s) (hu : stop u = true) :
    exec (loop (upTo stop a body)) s = some (.ok a, u) :=
  loop_returns (upTo_of_rounds h hpassing) (.inl ⟨a, exec_upTo_stop hu, rfl⟩)

/-- Some state within `n` rounds is the first that passes, if the last one does. -/
theorem exists_first {n : Nat} {s u : σ} (h : Rounds body n s u) (hu : stop u = true) :
    ∃ m ≤ n, ∃ v, Rounds body m s v ∧ Passing stop body m s ∧ stop v = true := by
  induction h with
  | zero s =>
    refine ⟨0, Nat.le_refl 0, s, .zero s, ?_, hu⟩
    intro m hm
    omega
  | @succ n s t u first _ ih =>
    cases hs : stop s with
    | true =>
      refine ⟨0, by omega, s, .zero s, ?_, hs⟩
      intro m hm
      omega
    | false =>
      rcases ih hu with ⟨m, hm, v, hv, hpassing, hstop⟩
      refine ⟨m + 1, by omega, v, .succ first hv, ?_, hstop⟩
      intro k hk w hw
      cases hw with
      | zero => exact hs
      | succ first' rest' =>
        rw [first] at first'
        rcases Prod.mk.inj (Option.some.inj first') with ⟨-, rfl⟩
        exact hpassing _ (by omega) w rest'

/-! ## Runs that make progress

A run is measured by how far it has come. A state that is further than all before it
is where a loop that stops there must stop.
-/

section Lead

variable {pos : σ → Nat} {s : σ}

/-- The state after `n` rounds is further than all before it. -/
def Lead (pos : σ → Nat) (body : Run ε σ (Option α)) (n : Nat) (s u : σ) : Prop :=
  ∀ m < n, ∀ v, Rounds body m s v → pos v < pos u

theorem Lead.start (pos : σ → Nat) (body : Run ε σ (Option α)) (s : σ) : Lead pos body 0 s s := by
  intro m hm
  omega

/-- No round from `s` on goes back. -/
def Climbs (pos : σ → Nat) (body : Run ε σ (Option α)) (s : σ) : Prop :=
  ∀ m u v, Rounds body m s u → exec body u = some (.ok none, v) → pos u ≤ pos v

theorem Climbs.rounds {m n : Nat} {u v : σ} (h : Climbs pos body s) (hu : Rounds body m s u)
    (hv : Rounds body n u v) : pos u ≤ pos v := by
  induction hv generalizing m with
  | zero u => exact Nat.le_refl _
  | succ first _ ih => exact Nat.le_trans (h m _ _ hu first) (ih (hu.snoc first))

/-- A round that comes further leads. -/
theorem Lead.snoc {n : Nat} {u v : σ} (hmono : Climbs pos body s) (hu : Rounds body n s u)
    (hfurther : pos u < pos v) : Lead pos body (n + 1) s v := by
  intro m hm x hx
  have hle : m ≤ n := by omega
  rcases hu.before hle with ⟨y, hy, hrest⟩
  rcases hx.unique hy with rfl
  exact Nat.lt_of_le_of_lt (hmono.rounds hx hrest) hfurther

/-- From a state that leads, the first one that passes the test leads too. -/
theorem Lead.upTo {k n : Nat} {u v : σ} (hmono : Climbs pos body s)
    (hsame : ∀ m m' x y, Rounds body m s x → Rounds body m' s y → pos x = pos y →
      stop x = stop y)
    (hlead : Lead pos body n s u) (hu : Rounds body n s u) (hv : Rounds body k u v)
    (hpassing : Passing stop body k u) (hstop : stop v = true) : Lead pos body (n + k) s v := by
  intro m hm x hx
  by_cases hle : m < n
  · exact Nat.lt_of_lt_of_le (hlead m hle x hx) (hmono.rounds hu hv)
  · -- `x` comes after `u`, and does not pass the test yet
    have hk : m - n ≤ k := by omega
    rcases hv.before hk with ⟨y, hy, hrest⟩
    have hsum : Rounds body m s y := by
      have hreach := hu.trans hy
      rwa [Nat.add_sub_cancel' (by omega)] at hreach
    rcases hx.unique hsum with rfl
    have hgo := hpassing (m - n) (by omega) x hy
    have hpos := hmono.rounds hx hrest
    rcases Nat.lt_or_eq_of_le hpos with hlt | heq
    · exact hlt
    · rw [hsame m (n + k) x v hx (hu.trans hv) heq, hstop] at hgo
      cases hgo

end Lead

end Run
