import Mathlib.Data.List.Induction
import Mirrorscope.Replay.Tracee

/-! # Fork-snapshot checkpoints

Which checkpoint to take and to restore, and the snapshot itself: a `clone`
injected into the stopped tracee, whose child is held as an immutable image.
-/

namespace Mirrorscope.Replay

open Linux

/-! ## Selection -/

/-- `u64::saturating_add`. -/
def saturatingAdd (a b : UInt64) : UInt64 :=
  if a.toNat + b.toNat < 2 ^ 64 then a + b else 0xFFFFFFFFFFFFFFFF

/-- Whether a fresh checkpoint is due at `current`, `last` being the most recent. -/
def isCheckpointDue (last : Option UInt64) (current interval : UInt64) : Bool :=
  if interval = 0 then false
  else
    match last with
    | none => current ≥ interval
    | some last => current ≥ saturatingAdd last interval

/-- Index of the last checkpoint at or before `target`. -/
def nearestAtOrBefore (seqs : List UInt64) (target : UInt64) : Option Nat :=
  (seqs.zipIdx.reverse.find? fun p => p.1 ≤ target).map (·.2)

/-- Whether `run_to` must restart rather than drive forward. -/
def shouldRestart (current : Option UInt64) (startSeq target : UInt64) : Bool :=
  match current with
  | none => startSeq > 0
  | some current => current > target || startSeq > current

/-! ## The snapshot -/

/-- The options every tracee and every snapshot runs under. There is no
`TRACEEXEC` among them. -/
def setupOptions : Options :=
  { tracesysgood := true, exitkill := true, tracefork := true, tracevfork := true,
    traceclone := true }

/-- Whether an event is one an injected `clone(SIGCHLD)` may surface as. -/
def isForkEvent (event : EventCode) : Bool :=
  event == EventCode.fork || event == EventCode.vfork || event == EventCode.clone

variable {ω : Type} (arch : Arch) [Ptrace arch ω]

/-- Await the parent's stop after an injected clone and read the child's pid. -/
def waitForForkChild (pid : Pid) : Method ω Pid := do
  match ← os (Ptrace.waitpid arch pid .none) with
  | .ptraceEvent _ _ event =>
    if isForkEvent event then os (Ptrace.getevent arch pid)
    else Run.fail (.checkpoint none "expected a fork event after the injected clone syscall")
  | _ => Run.fail (.checkpoint none "expected a fork event after the injected clone syscall")

/-- Reap the child's initial stop. -/
def reapForkChild (child : Pid) : Method ω Unit := do
  match ← os (Ptrace.waitpid arch child .none) with
  | .stopped _ _ => pure ()
  | .ptraceEvent _ _ _ => pure ()
  | _ => Run.fail (.checkpoint none "fork snapshot child did not stop as expected")

/-- Reap the exit stop of the injected clone itself, which belongs to no record. -/
def reapCloneExit (pid : Pid) : Method ω Unit := do
  os (Ptrace.syscall arch pid none)
  match ← os (Ptrace.waitpid arch pid .none) with
  | .ptraceSyscall _ => pure ()
  | _ => Run.fail (.checkpoint none "expected the injected clone's own syscall-exit stop")

/-- Fork a stopped tracee and hold the child stopped at the same boundary. -/
def forkSnapshot (pid : Pid) : Method ω Pid := do
  let saved ← Regs.saveFull arch pid
  Regs.restoreFull arch pid (Regs.prepareFork arch saved)
  os (Ptrace.step arch pid)
  let child ← waitForForkChild arch pid
  reapForkChild arch child
  os (Ptrace.setoptions arch child setupOptions)
  reapCloneExit arch pid
  Regs.restoreFull arch pid saved
  Regs.restoreFull arch child saved
  pure child

/-! ## What the selection picks -/

/-- The chosen checkpoint is the last one at or before the target. -/
theorem nearestAtOrBefore_some {seqs : List UInt64} {target : UInt64} {i : Nat}
    (h : nearestAtOrBefore seqs target = some i) : ∃ seq, seqs[i]? = some seq ∧ seq ≤ target := by
  unfold nearestAtOrBefore at h
  rcases Option.map_eq_some_iff.mp h with ⟨⟨seq, j⟩, hfind, rfl⟩
  have hmem := List.mem_of_find?_eq_some hfind
  have hle := List.find?_some hfind
  rw [List.mem_reverse, List.mem_zipIdx_iff_getElem?] at hmem
  exact ⟨seq, hmem, by simpa using hle⟩

theorem nearestAtOrBefore_snoc (seqs : List UInt64) (seq target : UInt64) :
    nearestAtOrBefore (seqs ++ [seq]) target =
      if seq ≤ target then some seqs.length else nearestAtOrBefore seqs target := by
  unfold nearestAtOrBefore
  rw [List.zipIdx_append, List.reverse_append]
  by_cases h : seq ≤ target
  · simp [h]
  · simp [h]

/-- What comes after the chosen checkpoint is after the target. -/
theorem nearestAtOrBefore_after {seqs : List UInt64} {target seq : UInt64} {i j : Nat}
    (h : nearestAtOrBefore seqs target = some i) (hij : i < j) (hj : seqs[j]? = some seq) :
    target < seq := by
  induction seqs using List.reverseRecOn with
  | nil => cases hj
  | append_singleton seqs last ih =>
    rw [nearestAtOrBefore_snoc] at h
    have hlt := (List.getElem?_eq_some_iff.mp hj).1
    rw [List.length_append, List.length_singleton] at hlt
    split at h
    · rcases Option.some.inj h with rfl
      omega
    · rename_i hafter
      by_cases hlast : j = seqs.length
      · subst hlast
        rw [List.getElem?_concat_length] at hj
        rcases Option.some.inj hj with rfl
        exact UInt64.not_le.mp hafter
      · rw [List.getElem?_append_left (by omega)] at hj
        exact ih h hj

/-- No checkpoint is chosen just when all are after the target. -/
theorem nearestAtOrBefore_none (seqs : List UInt64) (target : UInt64) :
    nearestAtOrBefore seqs target = none ↔ ∀ seq ∈ seqs, target < seq := by
  induction seqs using List.reverseRecOn with
  | nil => simp [nearestAtOrBefore]
  | append_singleton seqs last ih =>
    rw [nearestAtOrBefore_snoc, List.forall_mem_append, List.forall_mem_singleton, ← ih]
    split
    · rename_i hle
      constructor
      · intro h
        cases h
      · rintro ⟨-, hlt⟩
        exact absurd hle (UInt64.not_le.mpr hlt)
    · rename_i hafter
      exact ⟨fun h => ⟨h, UInt64.not_le.mp hafter⟩, fun h => h.1⟩

end Mirrorscope.Replay
