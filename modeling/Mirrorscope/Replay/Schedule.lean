import Mirrorscope.Lib.KeyMap
import Mirrorscope.Linux.Ptrace

/-! # Schedule state for multi-threaded replay

Replay tids always differ from the recording, so every thread-attributed record
is routed through a table between recorded tids and live pids. The table is a
bijection by construction: its two directions carry the proof that they are
inverse to each other.
-/

namespace Mirrorscope.Replay

open Linux (Pid)
open Trace (EventKind Record)

/-- Whether a trace carries a thread schedule that replay must enforce. -/
def traceIsMultithreaded (records : List Record) : Bool :=
  records.any fun r =>
    match r.event.kind with
    | .schedSwitch | .threadSpawn | .threadExit => true
    | _ => false

/-- A mismatch between recorded and live thread ids. -/
inductive TidMapError where
  | recordedRebound (recorded : UInt32) (existing attempted : Pid)
  | liveRebound (live : Pid) (existing attempted : UInt32)
deriving DecidableEq, Repr

/-- What `{:?}` prints of a mismatch. -/
def TidMapError.debug : TidMapError → String
  | recordedRebound recorded existing attempted =>
    "RecordedRebound \x7b recorded: " ++ toString recorded ++ ", existing: " ++
      toString existing ++ ", attempted: " ++ toString attempted ++ " \x7d"
  | liveRebound live existing attempted =>
    "LiveRebound \x7b live: " ++ toString live ++ ", existing: " ++ toString existing ++
      ", attempted: " ++ toString attempted ++ " \x7d"

/-- The table between recorded tids and live pids. -/
structure TidMap where
  toLive : KeyMap UInt32 Pid
  toRecorded : KeyMap Pid UInt32
  /-- The two directions are inverse to each other. -/
  inverse : ∀ (recorded : UInt32) (live : Pid),
    toLive[recorded]? = some live ↔ toRecorded[live]? = some recorded

namespace TidMap

/-- The empty table. -/
def new : TidMap where
  toLive := ∅
  toRecorded := ∅
  inverse := by simp

/-- The live pid a recorded tid maps to. -/
def liveOf (m : TidMap) (recorded : UInt32) : Option Pid := m.toLive[recorded]?

/-- Whether nothing is bound yet. -/
def isEmpty (m : TidMap) : Bool := m.toLive.isEmpty

/-- Why a pair may not be bound, if it may not. -/
def conflict (m : TidMap) (recorded : UInt32) (live : Pid) : Option TidMapError :=
  match m.toLive[recorded]?, m.toRecorded[live]? with
  | some existing, back =>
    if existing ≠ live then some (.recordedRebound recorded existing live)
    else match back with
      | some other => if other ≠ recorded then some (.liveRebound live other recorded) else none
      | none => none
  | none, some other => if other ≠ recorded then some (.liveRebound live other recorded) else none
  | none, none => none

/-- Both sides of a pair without conflict are free or bound to each other. -/
theorem conflict_eq_none {m : TidMap} {recorded : UInt32} {live : Pid} :
    m.conflict recorded live = none ↔
      (m.toLive[recorded]? = none ∨ m.toLive[recorded]? = some live) ∧
        (m.toRecorded[live]? = none ∨ m.toRecorded[live]? = some recorded) := by
  unfold conflict
  cases hl : m.toLive[recorded]? with
  | none =>
    cases hr : m.toRecorded[live]? with
    | none => simp
    | some other => simp
  | some existing =>
    by_cases h : existing = live
    · subst h
      have hback := (m.inverse recorded existing).mp hl
      simp [hback]
    · simp [h]

/-- Entering a pair without conflict keeps the directions inverse. -/
theorem inverse_insert {m : TidMap} {recorded : UInt32} {live : Pid}
    (h : m.conflict recorded live = none) (r : UInt32) (l : Pid) :
    (m.toLive.insert recorded live)[r]? = some l ↔
      (m.toRecorded.insert live recorded)[l]? = some r := by
  rcases conflict_eq_none.mp h with ⟨hlive, hrec⟩
  rw [KeyMap.get_insert, KeyMap.get_insert]
  by_cases hr : recorded = r
  · subst hr
    by_cases hl : live = l
    · simp [hl]
    · -- `recorded` maps to `live`, so nothing else maps back to it
      simp only [if_true, if_neg hl]
      constructor
      · intro heq
        exact absurd (Option.some.inj heq) hl
      · intro hback
        have hforth := (m.inverse recorded l).mpr hback
        rcases hlive with hnone | hsome
        · rw [hnone] at hforth
          cases hforth
        · rw [hsome] at hforth
          exact hforth
  · by_cases hl : live = l
    · subst hl
      simp only [if_neg hr, if_true]
      constructor
      · intro hforth
        have hback := (m.inverse r live).mp hforth
        rcases hrec with hnone | hsome
        · rw [hnone] at hback
          cases hback
        · rw [hsome] at hback
          exact hback
      · intro heq
        exact absurd (Option.some.inj heq) hr
    · simp only [if_neg hr, if_neg hl]
      exact m.inverse r l

/-- Bind a recorded tid to a live pid. Binding an existing pair again is fine; a
conflict on either side is an error. -/
def bind (m : TidMap) (recorded : UInt32) (live : Pid) : Except TidMapError TidMap :=
  match h : m.conflict recorded live with
  | some err => .error err
  | none =>
    .ok
      { toLive := m.toLive.insert recorded live
        toRecorded := m.toRecorded.insert live recorded
        inverse := inverse_insert h }

/-- Removing a bound pair keeps the directions inverse. -/
theorem inverse_erase {m : TidMap} {recorded : UInt32} {live : Pid}
    (h : m.toLive[recorded]? = some live) (r : UInt32) (l : Pid) :
    (m.toLive.erase recorded)[r]? = some l ↔ (m.toRecorded.erase live)[l]? = some r := by
  rw [KeyMap.get_erase, KeyMap.get_erase]
  by_cases hr : recorded = r
  · subst hr
    by_cases hl : live = l
    · simp [hl]
    · simp only [if_true, if_neg hl]
      constructor
      · intro hnone
        cases hnone
      · intro hback
        have hforth := (m.inverse recorded l).mpr hback
        rw [h] at hforth
        exact absurd (Option.some.inj hforth) hl
  · by_cases hl : live = l
    · subst hl
      simp only [if_neg hr, if_true]
      constructor
      · intro hforth
        have hback := (m.inverse r live).mp hforth
        rw [(m.inverse recorded live).mp h] at hback
        exact absurd (Option.some.inj hback) hr
      · intro hnone
        cases hnone
    · simp only [if_neg hr, if_neg hl]
      exact m.inverse r l

/-- Drop the binding of a recorded tid. -/
def unbindRecorded (m : TidMap) (recorded : UInt32) : TidMap :=
  match h : m.toLive[recorded]? with
  | none => m
  | some live =>
    { toLive := m.toLive.erase recorded
      toRecorded := m.toRecorded.erase live
      inverse := inverse_erase h }

/-! ## Look-up after an update -/

@[simp] theorem liveOf_new (recorded : UInt32) : new.liveOf recorded = none := by
  simp [liveOf, new]

@[simp] theorem isEmpty_new : new.isEmpty = true := by
  simp [isEmpty, new]

theorem isEmpty_iff (m : TidMap) : m.isEmpty = true ↔ ∀ recorded, m.liveOf recorded = none :=
  KeyMap.isEmpty_iff m.toLive

/-- A successful binding adds its pair. -/
theorem bind_ok {m m' : TidMap} {recorded : UInt32} {live : Pid}
    (h : m.bind recorded live = .ok m') :
    m.conflict recorded live = none ∧
      ∀ r, m'.liveOf r = if recorded = r then some live else m.liveOf r := by
  unfold bind at h
  split at h
  · cases h
  · rename_i hnone
    rcases Except.ok.inj h with rfl
    refine ⟨hnone, ?_⟩
    intro r
    exact KeyMap.get_insert _ _ _ _

theorem bind_of_conflict_eq_none {m : TidMap} {recorded : UInt32} {live : Pid}
    (h : m.conflict recorded live = none) : ∃ m', m.bind recorded live = .ok m' := by
  unfold bind
  split
  · rename_i err herr
    rw [h] at herr
    cases herr
  · exact ⟨_, rfl⟩

theorem liveOf_unbindRecorded (m : TidMap) (recorded r : UInt32) :
    (m.unbindRecorded recorded).liveOf r = if recorded = r then none else m.liveOf r := by
  unfold unbindRecorded
  split
  · rename_i hnone
    by_cases h : recorded = r
    · subst h
      rw [if_pos rfl, liveOf, hnone]
    · rw [if_neg h]
  · exact KeyMap.get_erase _ _ _

theorem liveOf_injective {m : TidMap} {r r' : UInt32} {live : Pid} (h : m.liveOf r = some live)
    (h' : m.liveOf r' = some live) : r = r' := by
  have hback := (m.inverse r live).mp h
  rw [(m.inverse r' live).mp h'] at hback
  exact (Option.some.inj hback).symm

end TidMap

end Mirrorscope.Replay
