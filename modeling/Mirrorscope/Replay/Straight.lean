import Mirrorscope.Lib.UpTo
import Mirrorscope.Replay.Frame

/-! # How far a replay has come

Every round of a driver passes checkpoint records and consumes at most one other
record, the next one; a round that fails may leave records behind, but never goes
back. So the position of a replay that has not failed is a number: how many
records it has consumed.
-/

namespace Mirrorscope.Replay

open Capture Linux Run
open Trace (EventKind Record)

/-! ## Positions -/

/-- The records before the cursor that are not checkpoints. -/
def taken (records : List Record) (cursor : Nat) : List Record :=
  (records.take cursor).filter fun r => r.event.kind ≠ .checkpoint

/-- All records from `n` to `m` are checkpoints. -/
def Skips (records : List Record) (n m : Nat) : Prop :=
  n ≤ m ∧ ∀ k r, n ≤ k → k < m → records[k]? = some r → r.event.kind = .checkpoint

/-- The next record from `n` on that is not a checkpoint is `record`, at `m`. -/
structure Next (records : List Record) (n m : Nat) (record : Record) : Prop where
  skips : Skips records n m
  here : records[m]? = some record
  kind : record.event.kind ≠ .checkpoint

/-- What a round that did not fail makes of cursor `n` and the last consumed `c`. -/
inductive Progress (records : List Record) (n : Nat) (c : Option UInt64) :
    Nat → Option UInt64 → Prop where
  | passed {m : Nat} (h : Skips records n m) : Progress records n c m c
  | consumed {m : Nat} {record : Record} (h : Next records n m record) :
      Progress records n c (m + 1) (some record.seq)

/-- What any round makes of them. -/
def Forward (records : List Record) (n : Nat) (c : Option UInt64) (m : Nat) (c' : Option UInt64) :
    Prop :=
  n ≤ m ∧ (c' = c ∨ ∃ k r, n ≤ k ∧ k < m ∧ records[k]? = some r ∧ c' = some r.seq)

section Positions

variable {records : List Record} {n m k : Nat} {c c' : Option UInt64} {record : Record}

theorem Skips.refl (records : List Record) (n : Nat) : Skips records n n := by
  refine ⟨Nat.le_refl n, ?_⟩
  intro k r hle hlt
  omega

theorem Progress.forward (h : Progress records n c m c') : Forward records n c m c' := by
  cases h with
  | passed h => exact ⟨h.1, .inl rfl⟩
  | @consumed m record h =>
    have hle := h.skips.1
    exact ⟨by omega, .inr ⟨m, record, hle, Nat.lt_succ_self m, h.here, rfl⟩⟩

theorem Forward.refl (records : List Record) (n : Nat) (c : Option UInt64) :
    Forward records n c n c := ⟨Nat.le_refl n, .inl rfl⟩

theorem Forward.trans {l : Nat} {c'' : Option UInt64} (h : Forward records n c m c')
    (h' : Forward records m c' l c'') : Forward records n c l c'' := by
  rcases h with ⟨hnm, hc⟩
  rcases h' with ⟨hml, hc'⟩
  refine ⟨hnm.trans hml, ?_⟩
  rcases hc' with rfl | ⟨k, r, hle, hlt, hr, rfl⟩
  · rcases hc with rfl | ⟨k, r, hle, hlt, hr, rfl⟩
    · exact .inl rfl
    · exact .inr ⟨k, r, hle, by omega, hr, rfl⟩
  · exact .inr ⟨k, r, by omega, hlt, hr, rfl⟩

/-- Passing checkpoints consumes nothing. -/
theorem taken_skips (h : Skips records n m) : taken records m = taken records n := by
  rcases h with ⟨hle, hall⟩
  have hsplit : records.take m = records.take n ++ (records.drop n).take (m - n) := by
    rw [← List.take_add, Nat.add_sub_cancel' hle]
  have hnone : ((records.drop n).take (m - n)).filter (fun r => r.event.kind ≠ .checkpoint) = [] := by
    rw [List.filter_eq_nil_iff]
    intro r hr
    rcases List.mem_iff_getElem?.mp hr with ⟨k, hk⟩
    rw [List.getElem?_take] at hk
    split at hk
    · rw [List.getElem?_drop] at hk
      simpa using hall (n + k) r (by omega) (by omega) hk
    · cases hk
  unfold taken
  rw [hsplit, List.filter_append, hnone, List.append_nil]

/-- Consuming the next record adds it. -/
theorem taken_next (h : Next records n m record) :
    taken records (m + 1) = taken records n ++ [record] := by
  have hkind : (decide (record.event.kind ≠ .checkpoint)) = true := by simpa using h.kind
  have hsnoc : records.take (m + 1) = records.take m ++ [record] := by
    rw [List.take_add_one, h.here]
    rfl
  have hlast : taken records (m + 1) = taken records m ++ [record] := by
    unfold taken
    rw [hsnoc, List.filter_append, List.filter_cons, hkind]
    rfl
  rw [hlast, taken_skips h.skips]

end Positions

/-- The last consumed record is the last one before the cursor. -/
def Aligned (s : ReplaySession) : Prop :=
  s.currentSeq = (taken s.records s.cursor).getLast?.map (·.seq)

/-- How many records a session has consumed. -/
def position (s : ReplaySession) : Nat := (taken s.records s.cursor).length

/-- A session on `records`, with its cursor and the last consumed record. -/
structure AtPos (records : List Record) (n : Nat) (c : Option UInt64) (s : ReplaySession) : Prop where
  records : s.records = records
  cursor : s.cursor = n
  current : s.currentSeq = c

theorem atPos_self (s : ReplaySession) : AtPos s.records s.cursor s.currentSeq s := ⟨rfl, rfl, rfl⟩

/-- One record more at most, and aligned again. -/
theorem Progress.position {s s' : ReplaySession} {m : Nat} {c : Option UInt64}
    (h : Progress s.records s.cursor s.currentSeq m c) (hs : Aligned s)
    (hs' : AtPos s.records m c s') :
    Aligned s' ∧
      (taken s'.records s'.cursor = taken s.records s.cursor ∨
        ∃ r, taken s'.records s'.cursor = taken s.records s.cursor ++ [r]) := by
  unfold Aligned
  rw [hs'.records, hs'.cursor, hs'.current]
  cases h with
  | passed h =>
    rw [taken_skips h]
    exact ⟨hs, .inl rfl⟩
  | consumed h =>
    rw [taken_next h]
    constructor
    · simp
    · exact .inr ⟨_, rfl⟩

/-! ## The single-tracee driver -/

section Drivers

variable {ω : Type} {arch : Arch} [Ptrace arch ω] [Unwind ω] {records : List Record} {n : Nat}
  {c : Option UInt64}

/-- The session has made progress since `n` and `c`. -/
def Progressed (records : List Record) (n : Nat) (c : Option UInt64) (s : ReplaySession) : Prop :=
  s.records = records ∧ Progress records n c s.cursor s.currentSeq

/-- The session has not gone back since `n` and `c`. -/
def Onward (records : List Record) (n : Nat) (c : Option UInt64) (s : ReplaySession) : Prop :=
  s.records = records ∧ Forward records n c s.cursor s.currentSeq

theorem Progressed.onward {s : ReplaySession} (h : Progressed records n c s) :
    Onward records n c s := ⟨h.1, h.2.forward⟩

theorem AtPos.onward {s : ReplaySession} (h : AtPos records n c s) : Onward records n c s := by
  refine ⟨h.records, ?_⟩
  rw [h.cursor, h.current]
  exact Forward.refl records n c

theorem AtPos.progressed {s : ReplaySession} (h : AtPos records n c s) :
    Progressed records n c s := by
  refine ⟨h.records, ?_⟩
  rw [h.cursor, h.current]
  exact .passed (Skips.refl records n)

/-- The first record after the skipped ones is not a checkpoint. -/
theorem skips_skipFrom (records : List Record) (n : Nat) :
    Skips records n (n + skipFrom (records.drop n)) ∧
      ∀ r, records[n + skipFrom (records.drop n)]? = some r → r.event.kind ≠ .checkpoint := by
  generalize hrest : records.drop n = rest
  induction rest generalizing n with
  | nil =>
    refine ⟨Skips.refl records n, ?_⟩
    intro r hr
    have hend := List.drop_eq_nil_iff.mp hrest
    rw [skipFrom, Nat.add_zero, List.getElem?_eq_none hend] at hr
    cases hr
  | cons x rest ih =>
    have hx : records[n]? = some x := by
      have hhead : (records.drop n)[0]? = records[n + 0]? := List.getElem?_drop
      rw [hrest] at hhead
      simpa using hhead.symm
    have htail : records.drop (n + 1) = rest := by
      rw [← List.tail_drop, hrest]
      rfl
    unfold skipFrom
    split
    · rename_i hkind
      rcases ih (n + 1) htail with ⟨⟨hle, hall⟩, hnext⟩
      have hshift : n + (skipFrom rest + 1) = n + 1 + skipFrom rest := by omega
      rw [hshift]
      refine ⟨⟨by omega, ?_⟩, hnext⟩
      intro k r hk hlt hr
      by_cases heq : k = n
      · subst heq
        rw [hx] at hr
        rcases Option.some.inj hr with rfl
        exact hkind
      · exact hall k r (by omega) hlt hr
    · rename_i hkind
      refine ⟨Skips.refl records n, ?_⟩
      intro r hr
      rw [Nat.add_zero, hx] at hr
      rcases Option.some.inj hr with rfl
      exact hkind

/-- The session has consumed the next record from `n` on. -/
def ConsumedNext (records : List Record) (n : Nat) (s : ReplaySession) : Prop :=
  s.records = records ∧ ∃ m r, Next records n m r ∧ s.cursor = m + 1 ∧ s.currentSeq = some r.seq

theorem ConsumedNext.progressed {s : ReplaySession} (h : ConsumedNext records n s) :
    Progressed records n c s := by
  rcases h with ⟨hrecords, m, r, hnext, hcursor, hcurrent⟩
  refine ⟨hrecords, ?_⟩
  rw [hcursor, hcurrent]
  exact .consumed hnext

/-- A condition that does not look at what consuming a record changes. -/
structure IgnoresStop (Y : ReplaySession → Prop) : Prop where
  cursor : ∀ s n, Y s → Y { s with cursor := n }
  current : ∀ s c, Y s → Y { s with currentSeq := c }
  pending : ∀ s p, Y s → Y { s with pending := p }
  lastRegs : ∀ s regs, Y s → Y { s with lastRegs := regs, pending := none }

section Stop

variable {Y : ReplaySession → Prop} (hY : IgnoresStop Y)
include hY

omit [Ptrace arch ω] [Unwind ω] in
theorem nextRecord_spec :
    Spec (On fun s => AtPos records n c s ∧ Y s) (nextRecord : Method ω Record)
      (fun r => On fun s => (∃ m, Next records n m r ∧ AtPos records (m + 1) c s) ∧ Y s)
      (fun _ => On (Onward records n c)) := by
  have hskips := skips_skipFrom records n
  refine Spec.bind (Q := fun _ => On fun s =>
    AtPos records (n + skipFrom (records.drop n)) c s ∧ Y s) (modifySelf_spec ?_) fun _ => ?_
  · rintro s ⟨⟨rfl, rfl, rfl⟩, hs⟩
    exact ⟨⟨rfl, rfl, rfl⟩, hY.cursor s _ hs⟩
  apply Spec.bind self_spec
  intro s
  split
  · apply Spec.fail
    rintro w ⟨⟨hs, -⟩, rfl⟩
    refine ⟨hs.records, ?_⟩
    rw [hs.cursor, hs.current]
    exact ⟨hskips.1.1, .inl rfl⟩
  · rename_i record hrecord
    refine Spec.bind (Q := fun _ => On fun s =>
      (∃ m, Next records n m record ∧ AtPos records (m + 1) c s) ∧ Y s) ?_ fun _ =>
        Spec.pure fun _ h => h
    rintro w ⟨⟨hs, hy⟩, rfl⟩ r w' hexec
    rcases Prod.mk.inj (Option.some.inj hexec) with ⟨rfl, rfl⟩
    rw [hs.records, hs.cursor] at hrecord
    refine ⟨⟨_, ⟨hskips.1, hrecord, hskips.2 record hrecord⟩, hs.records, ?_, hs.current⟩,
      hY.cursor _ _ hy⟩
    exact congrArg (· + 1) hs.cursor

omit [Ptrace arch ω] [Unwind ω] in
/-- What follows the record that was read. -/
theorem afterNext_spec {α : Type} {f : Record → Method ω α} {Q : α → World ω → Prop}
    (hf : ∀ r m, Next records n m r →
      Spec (On fun s => AtPos records (m + 1) c s ∧ Y s) (f r) Q (fun _ => On (Onward records n c))) :
    Spec (On fun s => AtPos records n c s ∧ Y s) (do let r ← nextRecord; f r) Q
      (fun _ => On (Onward records n c)) := by
  apply Spec.bind (nextRecord_spec hY)
  rintro r w ⟨⟨m, hnext, hpos⟩, hy⟩
  exact hf r m hnext w ⟨hpos, hy⟩

omit hY in
/-- A record that was read but not consumed is left behind. -/
theorem onward_of_next {m : Nat} {r : Record} {s : ReplaySession} (hnext : Next records n m r)
    (hs : AtPos records (m + 1) c s) : Onward records n c s := by
  have hle := hnext.skips.1
  refine ⟨hs.records, ?_⟩
  rw [hs.cursor, hs.current]
  exact ⟨by omega, .inl rfl⟩

omit [Ptrace arch ω] [Unwind ω] in
/-- Noting the record as the last consumed one. -/
theorem setCurrent_spec {m : Nat} {r : Record} (hnext : Next records n m r)
    {E : ReplayError → World ω → Prop} :
    Spec (On fun s => AtPos records (m + 1) c s ∧ Y s)
      (modifySelf fun s => { s with currentSeq := some r.seq } : Method ω Unit)
      (fun _ => On fun s => ConsumedNext records n s ∧ Y s) E := by
  apply modifySelf_spec
  rintro s ⟨hs, hy⟩
  exact ⟨⟨hs.records, m, r, hnext, hs.cursor, rfl⟩, hY.current s _ hy⟩

omit [Ptrace arch ω] [Unwind ω] hY in
/-- Work on the tracee after the record was consumed. -/
theorem consumed_keeps {m : Method ω Unit}
    (hm : ∀ P : ReplaySession → Prop, KeepsSession P m) :
    Spec (On fun s => ConsumedNext records n s ∧ Y s) m
      (fun _ => On fun s => ConsumedNext records n s ∧ Y s)
      (fun _ => On (Onward records n c)) :=
  (hm _).mono (fun _ h => h) (fun _ _ h => h) fun _ _ h => h.1.progressed.onward

omit [Unwind ω] in
theorem onEntry_spec (regs : Registers) :
    Spec (On fun s => AtPos records n c s ∧ Y s) (onEntry arch regs : Method ω Unit)
      (fun _ => On fun s => ConsumedNext records n s ∧ Y s)
      (fun _ => On (Onward records n c)) := by
  apply afterNext_spec hY
  intro record m hnext
  split
  · refine Spec.bind (orFail_spec fun _ w h => onward_of_next hnext h.1) fun enter => ?_
    refine Spec.mono (P := On fun s => AtPos records (m + 1) c s ∧ Y s) ?_ (fun _ h => h.2)
      (fun _ _ h => h) (fun _ _ h => h)
    split
    · exact Spec.fail fun w h => onward_of_next hnext h.1
    · refine Spec.bind (setCurrent_spec hY hnext) fun _ => ?_
      refine Spec.bind (Q := fun _ => On fun s => ConsumedNext records n s ∧ Y s) ?_ fun s => ?_
      · exact self_keeps.mono (fun _ h => h) (fun _ _ h => h) fun _ _ h => h.1.progressed.onward
      · refine Spec.bind (consumed_keeps fun P =>
          Keeps.when (suppressSyscall_keeps arch s.pid)) fun _ => ?_
        exact modifySelf_spec fun s h => ⟨h.1, hY.pending s _ h.2⟩
  · exact Spec.fail fun w h => onward_of_next hnext h.1

omit [Unwind ω] in
theorem onExit_spec (pending : Pending) :
    Spec (On fun s => AtPos records n c s ∧ Y s) (onExit arch pending : Method ω Unit)
      (fun _ => On fun s => ConsumedNext records n s ∧ Y s)
      (fun _ => On (Onward records n c)) := by
  apply afterNext_spec hY
  intro record m hnext
  split
  · refine Spec.bind (orFail_spec fun _ w h => onward_of_next hnext h.1) fun exit => ?_
    refine Spec.mono (P := On fun s => AtPos records (m + 1) c s ∧ Y s) ?_ (fun _ h => h.2)
      (fun _ _ h => h) (fun _ _ h => h)
    refine Spec.bind (setCurrent_spec hY hnext) fun _ => ?_
    split
    · refine consumed_keeps fun P => Keeps.bind self_keeps fun s => ?_
      exact Keeps.bind (writeMemory_keeps arch s.pid _ _) fun _ => setReturn_keeps arch s.pid _
    · exact Spec.pure fun _ h => h
  · exact Spec.fail fun w h => onward_of_next hnext h.1

omit [Unwind ω] in
/-- A syscall stop consumes the next record. -/
theorem onSyscallStop_spec :
    Spec (On fun s => AtPos records n c s ∧ Y s) (onSyscallStop arch : Method ω Unit)
      (fun _ => On fun s => ConsumedNext records n s ∧ Y s)
      (fun _ => On (Onward records n c)) := by
  have honward (w : World ω) (h : On (fun s => AtPos records n c s ∧ Y s) w) :
      On (Onward records n c) w := h.1.onward
  refine Spec.bind (Q := fun _ => On fun s => AtPos records n c s ∧ Y s) ?_ fun s => ?_
  · exact self_keeps.mono (fun _ h => h) (fun _ _ h => h) fun _ => honward
  refine Spec.bind (Q := fun _ => On fun s => AtPos records n c s ∧ Y s) ?_ fun regs => ?_
  · exact (read_keeps arch s.pid).mono (fun _ h => h) (fun _ _ h => h) fun _ => honward
  refine Spec.bind (Q := fun _ => On fun s => AtPos records n c s ∧ Y s)
    (modifySelf_spec ?_) fun _ => ?_
  · rintro s ⟨hs, hy⟩
    exact ⟨⟨hs.records, hs.cursor, hs.current⟩, hY.lastRegs s _ hy⟩
  split
  · exact onEntry_spec hY regs
  · exact onExit_spec hY _

end Stop

omit [Ptrace arch ω] [Unwind ω] in
/-- A signal stop consumes the next record if it is a signal's. -/
theorem onSignalStop_spec {Y : ReplaySession → Prop} (hY : IgnoresStop Y)
    (hsignal : ∀ s sig, Y s → Y { s with resumeSignal := sig }) (signal : Signal) :
    Spec (On fun s => AtPos records n c s ∧ Y s) (onSignalStop signal : Method ω Unit)
      (fun _ => On fun s => Progressed records n c s ∧ Y s)
      (fun _ => On (Onward records n c)) := by
  have hskips := skips_skipFrom records n
  refine Spec.bind (Q := fun _ => On fun s =>
    AtPos records (n + skipFrom (records.drop n)) c s ∧ Y s) (modifySelf_spec ?_) fun _ => ?_
  · rintro s ⟨⟨rfl, rfl, rfl⟩, hs⟩
    exact ⟨⟨rfl, rfl, rfl⟩, hY.cursor s _ hs⟩
  have hpassed (s : ReplaySession) (hs : AtPos records (n + skipFrom (records.drop n)) c s) :
      Progressed records n c s := by
    refine ⟨hs.records, ?_⟩
    rw [hs.cursor, hs.current]
    exact .passed hskips.1
  have hmatch : Spec (On fun s => AtPos records (n + skipFrom (records.drop n)) c s ∧ Y s)
      (matchSignal signal : Method ω Unit) (fun _ => On fun s => Progressed records n c s ∧ Y s)
      (fun _ => On (Onward records n c)) := by
    apply Spec.bind self_spec
    intro s
    split
    · rename_i record hrecord
      split
      · have honward (w : World ω)
            (h : (AtPos records (n + skipFrom (records.drop n)) c s ∧ Y s) ∧ w.session = s) :
            On (Onward records n c) w := by
          rcases h with ⟨⟨hs, -⟩, rfl⟩
          exact (hpassed _ hs).onward
        refine Spec.bind (orFail_spec fun _ => honward) fun recorded => ?_
        split
        · exact Spec.fail fun w h => honward w h.2
        · rintro w ⟨-, ⟨hs, hy⟩, rfl⟩ r w' hexec
          rcases Prod.mk.inj (Option.some.inj hexec) with ⟨rfl, rfl⟩
          have hnext : Next records n (n + skipFrom (records.drop n)) record := by
            rw [hs.records, hs.cursor] at hrecord
            exact ⟨hskips.1, hrecord, hskips.2 record hrecord⟩
          have hconsumed : ConsumedNext records n
              { w.session with currentSeq := some record.seq, cursor := w.session.cursor + 1 } :=
            ⟨hs.records, _, record, hnext, congrArg (· + 1) hs.cursor, rfl⟩
          have hy' := hY.cursor w.session (w.session.cursor + 1) hy
          exact ⟨hconsumed.progressed, hY.current _ (some record.seq) hy'⟩
      · apply Spec.pure
        rintro w ⟨⟨hs, hy⟩, rfl⟩
        exact ⟨hpassed _ hs, hy⟩
    · apply Spec.pure
      rintro w ⟨⟨hs, hy⟩, rfl⟩
      exact ⟨hpassed _ hs, hy⟩
  refine Spec.bind hmatch fun _ => ?_
  exact modifySelf_spec fun s h => ⟨h.1, hsignal s _ h.2⟩

section Round

variable (checkpoints : List CheckpointInfo)

/-- A session in a round, before its stop is handled. -/
def InRound (records : List Record) (n : Nat) (c : Option UInt64)
    (checkpoints : List CheckpointInfo) (s : ReplaySession) : Prop :=
  AtPos records n c s ∧ s.checkpoints = checkpoints ∧ s.resumeSignal = none

/-- Where a round that goes on has come to. A snapshot is only taken where a record was
consumed and no signal is queued. -/
def RoundOn (records : List Record) (n : Nat) (c : Option UInt64)
    (checkpoints : List CheckpointInfo) (s : ReplaySession) : Prop :=
  Progressed records n c s ∧
    (s.checkpoints = checkpoints ∨ ConsumedNext records n s ∧ s.resumeSignal = none)

theorem onStopped_progress (pid : Pid) (signal : Signal) :
    Spec (On (InRound records n c checkpoints)) (onStopped arch pid signal : Method ω Unit)
      (fun _ => On (RoundOn records n c checkpoints)) (fun _ => On (Onward records n c)) := by
  have hfree : IgnoresStop fun s => s.checkpoints = checkpoints :=
    ⟨fun _ _ h => h, fun _ _ h => h, fun _ _ h => h, fun _ _ h => h⟩
  have hsignal : Spec (On (InRound records n c checkpoints))
      (onSignalStop signal : Method ω Unit) (fun _ => On (RoundOn records n c checkpoints))
      (fun _ => On (Onward records n c)) :=
    (onSignalStop_spec hfree (fun _ _ h => h) signal).mono (fun _ h => ⟨h.1, h.2.1⟩)
      (fun _ _ h => ⟨h.1, .inl h.2⟩) (fun _ _ h => h)
  have hhits : IgnoresHits (InRound records n c checkpoints) :=
    ⟨fun _ _ h => ⟨⟨h.1.records, h.1.cursor, h.1.current⟩, h.2⟩,
      fun _ _ _ h => ⟨⟨h.1.records, h.1.cursor, h.1.current⟩, h.2⟩⟩
  unfold onStopped
  split
  · refine Spec.bind (Q := fun _ => On (InRound records n c checkpoints)) ?_ fun hit => ?_
    · exact (isWatchHit_keeps arch pid).mono (fun _ h => h) (fun _ _ h => h)
        fun _ _ h => h.1.onward
    split
    · exact (onWatchHit_keeps arch hhits pid).mono (fun _ h => h)
        (fun _ _ h => ⟨h.1.progressed, .inl h.2.1⟩) fun _ _ h => h.1.onward
    · exact hsignal
  · exact hsignal

/-- A round of the single-tracee driver. -/
theorem driveRound_progress :
    Spec (On fun s => AtPos records n c s ∧ s.checkpoints = checkpoints)
      (driveRound arch none : Method ω (Option ExitOutcome))
      (Round (On (RoundOn records n c checkpoints)) fun _ => On (AtPos records n c))
      (fun _ => On (Onward records n c)) := by
  have hround : IgnoresStop fun s => s.checkpoints = checkpoints ∧ s.resumeSignal = none :=
    ⟨fun _ _ h => h, fun _ _ h => h, fun _ _ h => h, fun _ _ h => h⟩
  have honward (w : World ω) (h : On (InRound records n c checkpoints) w) :
      On (Onward records n c) w := h.1.onward
  refine Spec.bind (self_spec (E := fun _ => On (Onward records n c))) fun s => ?_
  simp only [reached, Bool.false_eq_true, if_false]
  refine Spec.bind (Q := fun _ => On (InRound records n c checkpoints)) ?_ fun _ => ?_
  · rintro w ⟨⟨hs, hcs⟩, rfl⟩ r w' hexec
    rcases Prod.mk.inj (Option.some.inj hexec) with ⟨rfl, rfl⟩
    exact ⟨⟨hs.records, hs.cursor, hs.current⟩, hcs, rfl⟩
  refine Spec.bind (Q := fun _ => On (InRound records n c checkpoints)) ?_ fun _ => ?_
  · exact os_keeps.mono (fun _ h => h) (fun _ _ h => h) fun _ => honward
  refine Spec.bind (Q := fun _ => On (InRound records n c checkpoints)) ?_ fun status => ?_
  · exact os_keeps.mono (fun _ h => h) (fun _ _ h => h) fun _ => honward
  have hfinish (outcome : ExitOutcome) :
      Spec (On (InRound records n c checkpoints)) (finish outcome : Method ω (Option ExitOutcome))
        (Round (On (RoundOn records n c checkpoints)) fun _ => On (AtPos records n c))
        (fun _ => On (Onward records n c)) := by
    refine Spec.bind (Q := fun _ => On (AtPos records n c)) ?_ fun _ => Spec.pure fun _ h => h
    exact modifySelf_spec fun s h => ⟨h.1.records, h.1.cursor, h.1.current⟩
  unfold onStatus
  split
  · refine Spec.bind (onSyscallStop_spec hround) fun _ => ?_
    refine Spec.bind (Q := fun _ => On (RoundOn records n c checkpoints)) ?_ fun _ =>
      Spec.pure fun _ h => h
    have hkeeps : KeepsSession (fun s => ConsumedNext records n s ∧ s.resumeSignal = none)
        (maybeCheckpoint arch : Method ω Unit) := maybeCheckpoint_keeps arch fun _ _ h => h
    exact hkeeps.mono (fun _ h => ⟨h.1, h.2.2⟩) (fun _ _ h => ⟨h.1.progressed, .inr h⟩)
      fun _ _ h => h.1.progressed.onward
  · exact Spec.bind (onStopped_progress checkpoints _ _) fun _ => Spec.pure fun _ h => h
  · exact hfinish _
  · exact hfinish _
  · exact Spec.pure fun _ h => ⟨h.1.progressed, .inl h.2.1⟩

end Round

/-! ## The multi-threaded driver -/

/-- A round of the multi-threaded driver; one that fails stays where it was. -/
theorem mtDriveRound_progress :
    Spec (On (AtPos records n c)) (Mt.driveRound arch none : Method ω (Option ExitOutcome))
      (Round (On (Progressed records n c)) fun _ => On (Progressed records n c))
      (fun _ => On (AtPos records n c)) := by
  have hignores : IgnoresThreads (AtPos records n c) :=
    { unwinder := fun _ _ h => ⟨h.records, h.cursor, h.current⟩
      hits := fun _ _ _ h => ⟨h.records, h.cursor, h.current⟩
      mt := fun _ _ h => ⟨h.records, h.cursor, h.current⟩
      lastRegs := fun _ _ h => ⟨h.records, h.cursor, h.current⟩ }
  refine Spec.bind (self_spec (E := fun _ => On (AtPos records n c))) fun s => ?_
  simp only [reached, Bool.false_eq_true, if_false]
  split
  · apply Spec.fail
    rintro w ⟨hs, rfl⟩
    exact hs
  · rename_i record hrecord
    rintro w ⟨hs, rfl⟩
    have hhere : records[n]? = some record := by rwa [hs.records, hs.cursor] at hrecord
    -- the record is the next one, or a checkpoint to pass
    have hconsume (hkind : record.event.kind ≠ .checkpoint) (s : ReplaySession)
        (h : AtPos records n c s) : Progressed records n c (s.consume record.seq) := by
      refine ⟨h.records, ?_⟩
      show Progress records n c (s.cursor + 1) (some record.seq)
      rw [h.cursor]
      exact .consumed ⟨Skips.refl records n, hhere, hkind⟩
    have hpass (hkind : record.event.kind = .checkpoint) (s : ReplaySession)
        (h : AtPos records n c s) : Progressed records n c { s with cursor := s.cursor + 1 } := by
      refine ⟨h.records, ?_⟩
      show Progress records n c (s.cursor + 1) s.currentSeq
      rw [h.cursor, h.current]
      refine .passed ⟨Nat.le_succ n, ?_⟩
      intro k r hle hlt hr
      have hk : k = n := by omega
      subst hk
      rw [hhere] at hr
      rcases Option.some.inj hr with rfl
      exact hkind
    exact onRecord_consumes arch hignores hconsume hpass (fun _ _ h => h) w hs

/-- Every round makes progress. -/
def Straight (body : Method ω (Option ExitOutcome)) : Prop :=
  ∀ w w', exec body w = some (.ok none, w') →
    Progressed w.session.records w.session.cursor w.session.currentSeq w'.session

theorem driveRound_straight : Straight (driveRound arch none : Method ω (Option ExitOutcome)) := by
  intro w w' hexec
  exact ((driveRound_progress w.session.checkpoints).ok ⟨atPos_self w.session, rfl⟩ hexec).1

theorem mtDriveRound_straight :
    Straight (Mt.driveRound arch none : Method ω (Option ExitOutcome)) := by
  intro w w' hexec
  exact mtDriveRound_progress.ok (atPos_self w.session) hexec

/-- The session has reached a target. -/
def atTarget (stopAt : Option UInt64) (w : World ω) : Bool := reached stopAt w.session.currentSeq

omit [Ptrace arch ω] [Unwind ω] in
/-- A round that first looks at the target goes as the others do, and stops at the target. -/
theorem targetRound_upTo (rest : ReplaySession → Method ω (Option ExitOutcome))
    (stopAt : Option UInt64) :
    (do
      let s ← self
      if reached stopAt s.currentSeq then pure (some .running) else rest s) =
      upTo (atTarget stopAt) .running (do
        let s ← self
        if reached none s.currentSeq then pure (some .running) else rest s) := by
  funext w
  have hleft : exec (do
      let s ← self
      if reached stopAt s.currentSeq then pure (some ExitOutcome.running) else rest s) w =
        exec (if atTarget stopAt w then pure (some .running) else rest w.session) w :=
    bind_ok (exec_self w)
  refine hleft.trans ?_
  show _ = exec (upTo (atTarget stopAt) ExitOutcome.running _) w
  cases hw : atTarget stopAt w with
  | true =>
    rw [exec_upTo_stop hw]
    rfl
  | false =>
    rw [exec_upTo_go hw, bind_ok (exec_self w)]
    rfl

theorem driveRound_upTo (stopAt : Option UInt64) :
    (driveRound arch stopAt : Method ω (Option ExitOutcome)) =
      upTo (atTarget stopAt) .running (driveRound arch none) := targetRound_upTo _ stopAt

theorem mtDriveRound_upTo (stopAt : Option UInt64) :
    (Mt.driveRound arch stopAt : Method ω (Option ExitOutcome)) =
      upTo (atTarget stopAt) .running (Mt.driveRound arch none) := targetRound_upTo _ stopAt

/-! ## Drives -/

theorem exec_drive_over {w : World ω} {outcome : ExitOutcome}
    (h : w.session.finished = some outcome) (stopAt : Option UInt64) :
    exec (drive arch stopAt) w = some (.ok outcome, w) := by
  unfold drive
  rw [bind_ok (exec_self w), h]
  rfl

theorem exec_drive_single {w : World ω} (hlive : w.session.finished = none)
    (hsingle : w.session.multithreaded = false) (stopAt : Option UInt64) :
    exec (drive arch stopAt) w = exec (loop (driveRound arch stopAt)) w := by
  unfold drive
  rw [bind_ok (exec_self w), hlive]
  simp only [hsingle, Bool.false_eq_true, if_false]

end Drivers

/-! ## A straight run -/

/-- Sequence numbers increase along the trace. -/
def Increasing (records : List Record) : Prop := (records.map Record.seq).Pairwise (· < ·)

theorem Increasing.lt {records : List Record} (h : Increasing records) {i j : Nat} (hij : i < j)
    {r r' : Record} (hi : records[i]? = some r) (hj : records[j]? = some r') : r.seq < r'.seq := by
  rcases List.getElem?_eq_some_iff.mp hi with ⟨hilt, rfl⟩
  rcases List.getElem?_eq_some_iff.mp hj with ⟨hjlt, rfl⟩
  have hpair := List.pairwise_iff_getElem.mp h i j (by simpa using hilt) (by simpa using hjlt) hij
  simpa using hpair

theorem taken_sublist (records : List Record) (n : Nat) : (taken records n).Sublist records :=
  List.filter_sublist.trans (List.take_sublist n records)

/-- Of two positions, the one with fewer records consumed has the smaller last one. -/
theorem last_lt {xs ys : List Record} (h : ((xs ++ ys).map Record.seq).Pairwise (· < ·))
    (hys : ys ≠ []) {x y : Record} (hx : xs.getLast? = some x)
    (hy : (xs ++ ys).getLast? = some y) : x.seq < y.seq := by
  rw [List.map_append, List.pairwise_append] at h
  rw [List.getLast?_append_of_ne_nil _ hys] at hy
  exact h.2.2 x.seq (List.mem_map_of_mem (List.mem_of_getLast? hx)) y.seq
    (List.mem_map_of_mem (List.mem_of_getLast? hy))

/-- Of increasing records, the last is the largest. -/
theorem le_last {xs : List Record} (h : (xs.map Record.seq).Pairwise (· < ·)) {r z : Record}
    (hr : r ∈ xs) (hz : xs.getLast? = some z) : r.seq ≤ z.seq := by
  rcases List.getLast?_eq_some_iff.mp hz with ⟨ys, rfl⟩
  rcases List.mem_append.mp hr with hmem | hmem
  · rw [List.map_append, List.pairwise_append] at h
    exact UInt64.le_of_lt (h.2.2 r.seq (List.mem_map_of_mem hmem) z.seq (by simp))
  · rcases List.mem_singleton.mp hmem with rfl
    exact UInt64.le_refl _

section Run

variable {ω : Type} {body : Method ω (Option ExitOutcome)} {w₀ w u v : World ω} {t : UInt64}

/-- How far a session has come. -/
def place (w : World ω) : Nat := position w.session

/-- A session to measure a run from: all it has passed is consumed. -/
structure Origin (w₀ : World ω) : Prop where
  aligned : Aligned w₀.session
  increasing : Increasing w₀.session.records

/-- After some rounds, more of the same records are consumed. -/
theorem Straight.rounds (hbody : Straight body) {n : Nat} (h : Rounds body n w u)
    (hw : Aligned w.session) :
    u.session.records = w.session.records ∧ Aligned u.session ∧
      taken w.session.records w.session.cursor <+: taken u.session.records u.session.cursor := by
  induction h with
  | zero w => exact ⟨rfl, hw, List.prefix_refl _⟩
  | succ first _ ih =>
    rcases hbody _ _ first with ⟨hrecords, hprogress⟩
    rcases hprogress.position hw ⟨hrecords, rfl, rfl⟩ with ⟨haligned, htaken⟩
    rcases ih haligned with ⟨hrecords', haligned', hpart⟩
    refine ⟨hrecords'.trans hrecords, haligned', ?_⟩
    rcases htaken with heq | ⟨r, heq⟩
    · rwa [heq] at hpart
    · rw [heq] at hpart
      exact (List.prefix_append _ _).trans hpart

variable (hbody : Straight body) (horigin : Origin w₀)
include hbody horigin

theorem Straight.climbs : Climbs place body w₀ := by
  intro m u v hu hexec
  have haligned := (hbody.rounds hu horigin.aligned).2.1
  exact (hbody.rounds (.succ hexec (.zero v)) haligned).2.2.length_le

/-- What is consumed at a point of the run, as a part of what is consumed later. -/
theorem Straight.partOf {m n : Nat} (hv : Rounds body m w₀ v) (hu : Rounds body n w₀ u)
    (hle : place v ≤ place u) :
    taken v.session.records v.session.cursor <+: taken u.session.records u.session.cursor := by
  rcases Nat.le_total m n with hmn | hnm
  · rcases hu.before hmn with ⟨x, hx, hrest⟩
    rcases hx.unique hv with rfl
    exact (hbody.rounds hrest (hbody.rounds hx horigin.aligned).2.1).2.2
  · -- `v` comes later, so as far as `u` at most means as far as `u`
    rcases hv.before hnm with ⟨x, hx, hrest⟩
    rcases hx.unique hu with rfl
    have hpart := (hbody.rounds hrest (hbody.rounds hx horigin.aligned).2.1).2.2
    have heq := hpart.eq_of_length_le hle
    exact heq ▸ List.prefix_refl _

theorem Straight.same {m n : Nat} (hv : Rounds body m w₀ v) (hu : Rounds body n w₀ u)
    (heq : place v = place u) : v.session.currentSeq = u.session.currentSeq := by
  have hpart := hbody.partOf horigin hv hu heq.le
  rw [(hbody.rounds hv horigin.aligned).2.1, (hbody.rounds hu horigin.aligned).2.1,
    hpart.eq_of_length heq]

/-- Before a state that leads, every last consumed record is smaller. -/
theorem Straight.current_lt {m n : Nat} (hv : Rounds body m w₀ v) (hu : Rounds body n w₀ u)
    (hlt : place v < place u) {x : UInt64} (hx : v.session.currentSeq = some x) :
    ∃ y, u.session.currentSeq = some y ∧ x < y := by
  rcases hbody.rounds hv horigin.aligned with ⟨-, hvaligned, -⟩
  rcases hbody.rounds hu horigin.aligned with ⟨hrecords, hualigned, -⟩
  rcases hbody.partOf horigin hv hu hlt.le with ⟨ys, hys⟩
  have hne : ys ≠ [] := by
    rintro rfl
    rw [List.append_nil] at hys
    have hlen : place v = place u := congrArg List.length hys
    omega
  have hpair : ((taken u.session.records u.session.cursor).map Record.seq).Pairwise (· < ·) := by
    rw [hrecords]
    exact horigin.increasing.sublist ((taken_sublist _ _).map _)
  rw [← hys] at hpair
  rw [Aligned] at hvaligned hualigned
  rw [hvaligned] at hx
  rcases Option.map_eq_some_iff.mp hx with ⟨r, hr, rfl⟩
  rw [← hys, List.getLast?_append_of_ne_nil _ hne, List.getLast?_eq_some_getLast hne] at hualigned
  refine ⟨_, hualigned, last_lt hpair hne hr ?_⟩
  rw [List.getLast?_append_of_ne_nil _ hne, List.getLast?_eq_some_getLast hne]

theorem Straight.target_same (stopAt : Option UInt64) (m n : Nat) (v u : World ω)
    (hv : Rounds body m w₀ v) (hu : Rounds body n w₀ u) (heq : place v = place u) :
    atTarget stopAt v = atTarget stopAt u := by
  unfold atTarget
  rw [hbody.same horigin hv hu heq]

/-- A straight run meets the target no earlier than at a state that leads and is not past it. -/
theorem Straight.passing {n : Nat} (hu : Rounds body n w₀ u) (hlead : Lead place body n w₀ u)
    (hle : ∀ y, u.session.currentSeq = some y → y ≤ t) :
    Passing (atTarget (some t)) body n w₀ := by
  intro m hm v hv
  unfold atTarget
  cases hx : v.session.currentSeq with
  | none => rfl
  | some x =>
    rcases hbody.current_lt horigin hv hu (hlead m hm v hv) hx with ⟨y, hy, hlt⟩
    have hxt : x < t := UInt64.lt_of_lt_of_le hlt (hle y hy)
    simp only [reached, decide_eq_false_iff_not]
    exact UInt64.not_le.mpr hxt

/-- At the first state that has reached the target, the last consumed record is the least
one at or after it. -/
theorem Straight.least {n : Nat} (hstart : w₀.session.currentSeq = none)
    (hu : Rounds body n w₀ u) (hpassing : Passing (atTarget (some t)) body n w₀)
    (hreached : atTarget (some t) u = true) :
    ∃ y, u.session.currentSeq = some y ∧ t ≤ y ∧
      (∃ r ∈ w₀.session.records, r.event.kind ≠ .checkpoint ∧ r.seq = y) ∧
      ∀ r ∈ w₀.session.records, r.event.kind ≠ .checkpoint → t ≤ r.seq → y ≤ r.seq := by
  cases n with
  | zero =>
    cases hu with
    | zero => simp [atTarget, hstart, reached] at hreached
  | succ m =>
    -- the round before has not reached the target, so this one has consumed a record
    rcases hu.before (Nat.le_succ m) with ⟨x, hx, hlast⟩
    rw [Nat.add_sub_cancel_left] at hlast
    rcases hlast with - | ⟨hexec, hrest⟩
    cases hrest
    have hgo := hpassing m (Nat.lt_succ_self m) x hx
    rcases hbody.rounds hx horigin.aligned with ⟨hrecords, haligned, -⟩
    rcases hbody x u hexec with ⟨hsame, hprogress⟩
    rw [hrecords] at hprogress
    generalize hc : u.session.cursor = cursor at hprogress
    generalize hy : u.session.currentSeq = current at hprogress
    unfold atTarget at hreached hgo
    cases hprogress with
    | passed h =>
      rw [hy, hgo] at hreached
      cases hreached
    | @consumed k record h =>
      rw [hy] at hreached
      refine ⟨record.seq, rfl, by simpa [reached] using hreached,
        ⟨record, List.mem_of_getElem? h.here, h.kind, rfl⟩, ?_⟩
      intro r hr hkind hle
      rcases List.mem_iff_getElem?.mp hr with ⟨i, hi⟩
      rcases Nat.lt_trichotomy i k with hlt | rfl | hgt
      · -- an earlier record would have been the target
        have hbefore : i < x.session.cursor := by
          by_contra hge
          exact hkind (h.skips.2 i r (by omega) hlt hi)
        have hmem : r ∈ taken x.session.records x.session.cursor := by
          rw [hrecords]
          refine List.mem_filter.mpr ⟨?_, by simpa using hkind⟩
          rw [List.mem_iff_getElem?]
          exact ⟨i, by rw [List.getElem?_take_of_lt hbefore, hi]⟩
        have hpair : ((taken x.session.records x.session.cursor).map Record.seq).Pairwise
            (· < ·) := by
          rw [hrecords]
          exact horigin.increasing.sublist ((taken_sublist _ _).map _)
        have hlast := List.getLast?_eq_some_getLast (List.ne_nil_of_mem hmem)
        have hzle := le_last hpair hmem hlast
        rw [haligned, hlast] at hgo
        simp only [reached, Option.map_some, decide_eq_false_iff_not] at hgo
        exact absurd (UInt64.le_trans hle hzle) hgo
      · rw [h.here] at hi
        rcases Option.some.inj hi with rfl
        exact UInt64.le_refl _
      · exact UInt64.le_of_lt (horigin.increasing.lt hgt h.here hi)

end Run

end Mirrorscope.Replay
