import Mirrorscope.Lib.Effect

/-! # Runs that may break off

Two stateful computations side by side, where the first may break off at any point of the
second: the state it breaks off in is then related to one that the second run goes through, and
what the failing step has left behind is the caller's to say. The states of the second are
ordered, and no step of it goes back.
-/

namespace Effect

variable {ε σ τ α β : Type}

/-- The state a run ends in, well or not. -/
def final : EStateM.Result ε σ α → σ
  | .ok _ s => s
  | .error _ s => s

/-- The ends of two runs: the same, or the first has broken off at a step of the second. Then
`B` says of this step what it has failed with, and what it has made of the two states. -/
inductive Tracked (R : σ → τ → Prop) (Le : τ → τ → Prop) (B : ε → σ → σ → τ → τ → Prop) :
    EStateM.Result ε σ α → EStateM.Result ε τ α → Prop where
  | ok {a : α} {s : σ} {t : τ} (h : R s t) : Tracked R Le B (.ok a s) (.ok a t)
  | error {e : ε} {s : σ} {t : τ} (h : R s t) : Tracked R Le B (.error e s) (.error e t)
  | broken {e : ε} {s s' : σ} {t t' : τ} {r : EStateM.Result ε τ α} (h : R s t)
      (hbroke : B e s s' t t') (hle : Le t' (final r)) : Tracked R Le B (.error e s') r

/-- The first computation tracks the second, which never goes back. -/
structure Tracks (R : σ → τ → Prop) (Le : τ → τ → Prop) (B : ε → σ → σ → τ → τ → Prop)
    (m : EStateM ε σ α) (m' : EStateM ε τ α) : Prop where
  grows : ∀ t, Le t (final (m' t))
  tracks : ∀ s t, R s t → Tracked R Le B (m s) (m' t)

variable {R : σ → τ → Prop} {Le : τ → τ → Prop} {B : ε → σ → σ → τ → τ → Prop}

theorem Tracks.pure (hrefl : ∀ t, Le t t) (a : α) :
    Tracks R Le B (pure a : EStateM ε σ α) (pure a) where
  grows := hrefl
  tracks _ _ h := .ok h

theorem Tracks.throw (hrefl : ∀ t, Le t t) (e : ε) :
    Tracks R Le B (throw e : EStateM ε σ α) (throw e) where
  grows := hrefl
  tracks _ _ h := .error h

theorem Tracks.bind (htrans : ∀ t u v, Le t u → Le u v → Le t v) {m : EStateM ε σ α}
    {m' : EStateM ε τ α} {k : α → EStateM ε σ β} {k' : α → EStateM ε τ β} (hm : Tracks R Le B m m')
    (hk : ∀ a, Tracks R Le B (k a) (k' a)) : Tracks R Le B (m >>= k) (m' >>= k') := by
  have hgrows (t : τ) : Le (final (m' t)) (final ((m' >>= k') t)) ∨
      final ((m' >>= k') t) = final (m' t) := by
    cases hrun : m' t with
    | ok a u =>
      rw [bind_ok hrun]
      exact .inl ((hk a).grows u)
    | error e u =>
      rw [bind_error hrun]
      exact .inr rfl
  have hafter {t u : τ} (h : Le u (final (m' t))) : Le u (final ((m' >>= k') t)) := by
    rcases hgrows t with hle | heq
    · exact htrans _ _ _ h hle
    · rwa [heq]
  refine ⟨fun t => hafter (hm.grows t), fun s t hst => ?_⟩
  have htracked := hm.tracks s t hst
  generalize hrun : m s = r at htracked
  generalize hrun' : m' t = r' at htracked
  cases htracked with
  | @ok a s₁ t₁ h =>
    rw [bind_ok hrun, bind_ok hrun']
    exact (hk a).tracks s₁ t₁ h
  | error h =>
    rw [bind_error hrun, bind_error hrun']
    exact .error h
  | broken h hbroke hle =>
    rw [bind_error hrun]
    exact .broken h hbroke (hafter (hrun' ▸ hle))

/-- Both go on with what they find in their states, where that is the same. -/
theorem Tracks.get {γ : Type} {f : σ → γ} {f' : τ → γ} (h : ∀ s t, R s t → f s = f' t)
    {k : γ → EStateM ε σ β} {k' : γ → EStateM ε τ β} (hk : ∀ c, Tracks R Le B (k c) (k' c)) :
    Tracks R Le B (get >>= fun s => k (f s)) (get >>= fun t => k' (f' t)) where
  grows t := (hk (f' t)).grows t
  tracks s t hst := by
    have hsame := h s t hst
    show Tracked R Le B (k (f s) s) (k' (f' t) t)
    rw [hsame]
    exact (hk (f' t)).tracks s t hst

end Effect
