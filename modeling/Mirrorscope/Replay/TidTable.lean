import Mirrorscope.Lib.Effect
import Mirrorscope.Replay.Schedule

/-! # The tid table as two maps

The table between recorded tids and live pids is two maps, and each call checks and updates
one after the other. Here nothing ties the maps together: that they stay inverse to each other,
over any sequence of calls, is proved, and with it that the calls do what those of the table
that carries the proof do.
-/

namespace Mirrorscope.Replay

open Linux (Pid)

/-- The two maps. -/
structure TidTable where
  toLive : KeyMap UInt32 Pid
  toRecorded : KeyMap Pid UInt32

namespace TidTable

/-- An empty table, before any thread is bound. -/
def new : TidTable where
  toLive := ∅
  toRecorded := ∅

/-- A method of the table; it leaves early with an error. -/
abbrev Method := EStateM TidMapError TidTable

/-- A recorded tid is bound to another live pid. -/
def recordedConflict (t : TidTable) (recorded : UInt32) (live : Pid) : Option TidMapError :=
  match t.toLive[recorded]? with
  | some existing =>
    if existing ≠ live then some (.recordedRebound recorded existing live) else none
  | none => none

/-- A live pid is bound to another recorded tid. -/
def liveConflict (t : TidTable) (recorded : UInt32) (live : Pid) : Option TidMapError :=
  match t.toRecorded[live]? with
  | some existing =>
    if existing ≠ recorded then some (.liveRebound live existing recorded) else none
  | none => none

/-- The pair is entered on both sides. -/
def enter (t : TidTable) (recorded : UInt32) (live : Pid) : TidTable where
  toLive := t.toLive.insert recorded live
  toRecorded := t.toRecorded.insert live recorded

/-- The pair is taken out on both sides. -/
def remove (t : TidTable) (recorded : UInt32) (live : Pid) : TidTable where
  toLive := t.toLive.erase recorded
  toRecorded := t.toRecorded.erase live

/-- Bind a recorded tid to a live pid: nothing is entered before both sides are checked. -/
def bind (recorded : UInt32) (live : Pid) : Method Unit := do
  let t ← get
  match t.recordedConflict recorded live with
  | some err => throw err
  | none =>
    match t.liveConflict recorded live with
    | some err => throw err
    | none => set (t.enter recorded live)

/-- Drop the binding of a recorded tid; the answer is the live pid it had. -/
def unbindRecorded (recorded : UInt32) : Method (Option Pid) := do
  let t ← get
  match t.toLive[recorded]? with
  | none => pure none
  | some live => do
    set (t.remove recorded live)
    pure (some live)

/-! ## Sequences of calls -/

/-- A call that may change the table. -/
inductive TidCall where
  | bind (recorded : UInt32) (live : Pid)
  | unbindRecorded (recorded : UInt32)

/-- The table a call leaves behind, whatever it answers. -/
def call (t : TidTable) : TidCall → TidTable
  | .bind recorded live =>
    match bind recorded live t with
    | .ok _ t' | .error _ t' => t'
  | .unbindRecorded recorded =>
    match unbindRecorded recorded t with
    | .ok _ t' | .error _ t' => t'

/-- The table after a sequence of calls. -/
def after (calls : List TidCall) : TidTable := calls.foldl call new

/-- The two maps are inverse to each other. -/
def Inverse (t : TidTable) : Prop :=
  ∀ (recorded : UInt32) (live : Pid),
    t.toLive[recorded]? = some live ↔ t.toRecorded[live]? = some recorded

/-- Neither side is bound, but to the other. -/
def Free (t : TidTable) (recorded : UInt32) (live : Pid) : Prop :=
  (t.toLive[recorded]? = none ∨ t.toLive[recorded]? = some live) ∧
    (t.toRecorded[live]? = none ∨ t.toRecorded[live]? = some recorded)

variable {t t' : TidTable} {recorded : UInt32} {live : Pid} {err : TidMapError}

/-! ## What one call does -/

theorem recordedConflict_eq_none :
    t.recordedConflict recorded live = none ↔
      t.toLive[recorded]? = none ∨ t.toLive[recorded]? = some live := by
  unfold recordedConflict
  cases hforth : t.toLive[recorded]? with
  | none => simp
  | some existing => simp

theorem liveConflict_eq_none :
    t.liveConflict recorded live = none ↔
      t.toRecorded[live]? = none ∨ t.toRecorded[live]? = some recorded := by
  unfold liveConflict
  cases hback : t.toRecorded[live]? with
  | none => simp
  | some existing => simp

/-- Binding, by the outcome of the two checks. -/
theorem bind_eq (t : TidTable) (recorded : UInt32) (live : Pid) :
    bind recorded live t =
      match (t.recordedConflict recorded live).or (t.liveConflict recorded live) with
      | some err => .error err t
      | none => .ok () (t.enter recorded live) := by
  rw [bind, Effect.bind_ok (Effect.run_get t)]
  cases t.recordedConflict recorded live with
  | some err => rfl
  | none =>
    cases t.liveConflict recorded live with
    | some err => rfl
    | none => rfl

theorem free_iff :
    t.Free recorded live ↔
      (t.recordedConflict recorded live).or (t.liveConflict recorded live) = none := by
  rw [Option.or_eq_none_iff, recordedConflict_eq_none, liveConflict_eq_none]
  exact Iff.rfl

/-- Binding a pair of which neither side is bound, but to the other. -/
theorem bind_of_free (h : t.Free recorded live) :
    bind recorded live t = .ok () (t.enter recorded live) := by
  rw [bind_eq, free_iff.mp h]

/-- Binding any other pair fails before anything is entered. -/
theorem bind_of_not_free (h : ¬ t.Free recorded live) :
    ∃ err, bind recorded live t = .error err t := by
  rw [free_iff] at h
  obtain ⟨err, herr⟩ := Option.ne_none_iff_exists'.mp h
  exact ⟨err, by rw [bind_eq, herr]⟩

theorem bind_ok_iff :
    (∃ t', bind recorded live t = .ok () t') ↔ t.Free recorded live := by
  constructor
  · rintro ⟨t', h⟩
    by_contra hfree
    obtain ⟨err, herr⟩ := bind_of_not_free hfree
    rw [h] at herr
    cases herr
  · intro hfree
    exact ⟨_, bind_of_free hfree⟩

theorem bind_error (h : bind recorded live t = .error err t') :
    ¬ t.Free recorded live ∧ t' = t := by
  by_cases hfree : t.Free recorded live
  · rw [bind_of_free hfree] at h
    cases h
  · obtain ⟨err', herr⟩ := bind_of_not_free hfree
    rw [h] at herr
    cases herr
    exact ⟨hfree, rfl⟩

theorem unbindRecorded_eq (t : TidTable) (recorded : UInt32) :
    unbindRecorded recorded t =
      match t.toLive[recorded]? with
      | none => .ok none t
      | some live => .ok (some live) (t.remove recorded live) := by
  rw [unbindRecorded, Effect.bind_ok (Effect.run_get t)]
  cases t.toLive[recorded]? with
  | none => rfl
  | some live => rfl

/-! ## The table that carries the proof -/

/-- The maps of a table. -/
def ofTidMap (m : TidMap) : TidTable where
  toLive := m.toLive
  toRecorded := m.toRecorded

theorem conflict_ofTidMap (m : TidMap) (recorded : UInt32) (live : Pid) :
    ((ofTidMap m).recordedConflict recorded live).or ((ofTidMap m).liveConflict recorded live) =
      m.conflict recorded live := by
  unfold recordedConflict liveConflict TidMap.conflict ofTidMap
  cases m.toLive[recorded]? with
  | none =>
    cases m.toRecorded[live]? with
    | none => rfl
    | some other => rfl
  | some existing =>
    by_cases h : existing = live
    · cases m.toRecorded[live]? with
      | none => simp [h]
      | some other => simp [h]
    · simp [h]

theorem bind_of_conflict {m : TidMap} (h : m.conflict recorded live = some err) :
    m.bind recorded live = .error err := by
  unfold TidMap.bind
  split
  · rename_i err' herr'
    rw [h] at herr'
    rw [Option.some.inj herr']
  · rename_i hnone
    rw [h] at hnone
    cases hnone

theorem bind_of_no_conflict {m : TidMap} (h : m.conflict recorded live = none) :
    ∃ m', m.bind recorded live = .ok m' ∧ ofTidMap m' = (ofTidMap m).enter recorded live := by
  unfold TidMap.bind
  split
  · rename_i err herr
    rw [h] at herr
    cases herr
  · exact ⟨_, rfl, rfl⟩

/-- Binding in the table is binding in its maps, with the same error. -/
theorem bind_ofTidMap (m : TidMap) (recorded : UInt32) (live : Pid) :
    bind recorded live (ofTidMap m) =
      match m.bind recorded live with
      | .ok m' => .ok () (ofTidMap m')
      | .error err => .error err (ofTidMap m) := by
  rw [bind_eq, conflict_ofTidMap]
  cases hconflict : m.conflict recorded live with
  | some err => rw [bind_of_conflict hconflict]
  | none =>
    obtain ⟨m', hbind, hmaps⟩ := bind_of_no_conflict hconflict
    rw [hbind]
    simp only [hmaps]

theorem ofTidMap_unbind_none {m : TidMap} (h : m.toLive[recorded]? = none) :
    ofTidMap (m.unbindRecorded recorded) = ofTidMap m := by
  unfold TidMap.unbindRecorded
  split
  · rfl
  · rename_i live hsome
    rw [h] at hsome
    cases hsome

theorem ofTidMap_unbind_some {m : TidMap} (h : m.toLive[recorded]? = some live) :
    ofTidMap (m.unbindRecorded recorded) = (ofTidMap m).remove recorded live := by
  unfold TidMap.unbindRecorded
  split
  · rename_i hnone
    rw [h] at hnone
    cases hnone
  · rename_i live' hsome
    rw [h] at hsome
    rcases Option.some.inj hsome with rfl
    rfl

/-- Dropping a binding of the table drops it in its maps. -/
theorem unbindRecorded_ofTidMap (m : TidMap) (recorded : UInt32) :
    unbindRecorded recorded (ofTidMap m) =
      .ok (m.liveOf recorded) (ofTidMap (m.unbindRecorded recorded)) := by
  have hmaps : (ofTidMap m).toLive = m.toLive := rfl
  rw [unbindRecorded_eq, hmaps, TidMap.liveOf]
  cases hlive : m.toLive[recorded]? with
  | none => rw [ofTidMap_unbind_none hlive]
  | some live => rw [ofTidMap_unbind_some hlive]

/-- A call on the maps of a table leaves the maps of a table. -/
theorem exists_call_ofTidMap (m : TidMap) (c : TidCall) :
    ∃ m', (ofTidMap m).call c = ofTidMap m' := by
  cases c with
  | bind recorded live =>
    rw [call, bind_ofTidMap]
    cases m.bind recorded live with
    | ok m' => exact ⟨m', rfl⟩
    | error err => exact ⟨m, rfl⟩
  | unbindRecorded recorded =>
    rw [call, unbindRecorded_ofTidMap]
    exact ⟨_, rfl⟩

/-- All that is reached from the maps of a table are such maps. -/
theorem exists_foldl_ofTidMap (calls : List TidCall) (m : TidMap) :
    ∃ m', calls.foldl call (ofTidMap m) = ofTidMap m' := by
  induction calls generalizing m with
  | nil => exact ⟨m, rfl⟩
  | cons c calls ih =>
    obtain ⟨m', hm'⟩ := exists_call_ofTidMap m c
    rw [List.foldl_cons, hm']
    exact ih m'

theorem after_inverse (calls : List TidCall) : (after calls).Inverse := by
  obtain ⟨m, hm⟩ := exists_foldl_ofTidMap calls TidMap.new
  have hafter : after calls = ofTidMap m := hm
  rw [hafter]
  exact m.inverse

/-! ## The table stays a bijection -/

theorem get_enter (t : TidTable) (recorded : UInt32) (live : Pid) :
    (∀ r, (t.enter recorded live).toLive[r]? =
      if recorded = r then some live else t.toLive[r]?) ∧
    ∀ l, (t.enter recorded live).toRecorded[l]? =
      if live = l then some recorded else t.toRecorded[l]? :=
  ⟨fun _ => KeyMap.get_insert _ _ _ _, fun _ => KeyMap.get_insert _ _ _ _⟩

theorem get_remove (t : TidTable) (recorded : UInt32) (live : Pid) :
    (∀ r, (t.remove recorded live).toLive[r]? =
      if recorded = r then none else t.toLive[r]?) ∧
    ∀ l, (t.remove recorded live).toRecorded[l]? =
      if live = l then none else t.toRecorded[l]? :=
  ⟨fun _ => KeyMap.get_erase _ _ _, fun _ => KeyMap.get_erase _ _ _⟩

/-- Dropping the binding of a tid: its pair goes, on both sides, and nothing else does. -/
theorem unbindRecorded_ok (t : TidTable) (recorded : UInt32) :
    ∃ t', unbindRecorded recorded t = .ok t.toLive[recorded]? t' ∧
      (∀ r, t'.toLive[r]? = if recorded = r then none else t.toLive[r]?) ∧
      ∀ l, t'.toRecorded[l]? =
        if t.toLive[recorded]? = some l then none else t.toRecorded[l]? := by
  rw [unbindRecorded_eq]
  cases hlive : t.toLive[recorded]? with
  | none =>
    refine ⟨t, rfl, fun r => ?_, fun l => by simp⟩
    by_cases hr : recorded = r
    · subst hr
      rw [if_pos rfl, hlive]
    · rw [if_neg hr]
  | some live =>
    refine ⟨_, rfl, (get_remove t recorded live).1, fun l => ?_⟩
    rw [(get_remove t recorded live).2 l]
    simp

/-- **The tid table stays a bijection.** After any sequence of calls the two maps are inverse to
each other. A pair is bound exactly when neither side is bound, but to the other; it is then
added to both maps, and otherwise both stay as they were. Dropping the binding of a tid takes
exactly its pair out of both, after which the tid and its pid can be bound again. -/
theorem table_bijective (calls : List TidCall) :
    (∀ (recorded : UInt32) (live : Pid), (after calls).toLive[recorded]? = some live ↔
      (after calls).toRecorded[live]? = some recorded) ∧
    (∀ recorded live,
      ((∃ t', bind recorded live (after calls) = .ok () t') ↔
        ((after calls).toLive[recorded]? = none ∨
            (after calls).toLive[recorded]? = some live) ∧
          ((after calls).toRecorded[live]? = none ∨
            (after calls).toRecorded[live]? = some recorded)) ∧
      (∀ t', bind recorded live (after calls) = .ok () t' →
        (∀ r, t'.toLive[r]? = if recorded = r then some live else (after calls).toLive[r]?) ∧
        ∀ l, t'.toRecorded[l]? =
          if live = l then some recorded else (after calls).toRecorded[l]?) ∧
      ∀ err t', bind recorded live (after calls) = .error err t' → t' = after calls) ∧
    ∀ recorded, ∃ t',
      unbindRecorded recorded (after calls) = .ok (after calls).toLive[recorded]? t' ∧
      (∀ r, t'.toLive[r]? = if recorded = r then none else (after calls).toLive[r]?) ∧
      (∀ l, t'.toRecorded[l]? =
        if (after calls).toLive[recorded]? = some l then none
        else (after calls).toRecorded[l]?) ∧
      ∀ live, (after calls).toLive[recorded]? = some live →
        ∀ r l, t'.toRecorded[l]? = none → t'.toLive[r]? = none →
          (∃ t'', bind recorded l t' = .ok () t'') ∧ ∃ t'', bind r live t' = .ok () t'' := by
  refine ⟨after_inverse calls, fun recorded live => ⟨bind_ok_iff, ?_, ?_⟩, fun recorded => ?_⟩
  · intro t' h
    rw [bind_of_free (bind_ok_iff.mp ⟨t', h⟩)] at h
    cases h
    exact get_enter _ recorded live
  · intro err t' h
    exact (bind_error h).2
  · obtain ⟨t', hunbind, hlive, hrecorded⟩ := unbindRecorded_ok (after calls) recorded
    refine ⟨t', hunbind, hlive, hrecorded, ?_⟩
    intro live hbound r l hl hr
    have htid : t'.toLive[recorded]? = none := by rw [hlive recorded, if_pos rfl]
    have hpid : t'.toRecorded[live]? = none := by rw [hrecorded live, if_pos hbound]
    exact ⟨bind_ok_iff.mpr ⟨.inl htid, .inl hl⟩, bind_ok_iff.mpr ⟨.inl hr, .inl hpid⟩⟩

end TidTable

end Mirrorscope.Replay
