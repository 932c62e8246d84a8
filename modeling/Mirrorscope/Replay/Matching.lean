import Mathlib.Data.List.Forall2
import Mirrorscope.Replay.Rewind

/-! # Live stops and records

The single-tracee driver compares what the tracee does with the trace, stop by
stop. A syscall stop must be the next record, or the drive fails there; a signal
stop is only compared when the next record is a signal, and passes otherwise.
-/

namespace Mirrorscope.Replay

open Capture Linux Run
open Trace (EventKind Record)

variable {ω : Type} {arch : Arch} [Ptrace arch ω] [Unwind ω]

/-! ## What a drive observes -/

/-- A stop of the tracee that the trace should know. -/
inductive LiveStop where
  | entry (nr : UInt64)
  | exit
  | signal (sig : Signal)
deriving DecidableEq, Repr

/-- The record is that of the stop. -/
def LiveStop.Matches : LiveStop → Record → Prop
  | entry nr, r => r.event.kind = .syscallEnter ∧
      ∃ enter, SyscallEnter.decode r.event.payload = .ok enter ∧ enter.nr = nr
  | exit, r => r.event.kind = .syscallExit ∧ ∃ exit, SyscallExit.decode r.event.payload = .ok exit
  | signal sig, r => r.event.kind = .signal ∧
      ∃ delivery, SignalDelivery.decode r.event.payload = .ok delivery ∧ delivery.signum = sig.num

variable (arch) in
/-- The part of a round that waits: resume the tracee and wait for its next stop. -/
def nextStop : Method ω WaitStatus := do
  let s ← self
  modifySelf fun s => { s with resumeSignal := none }
  os (Ptrace.syscall arch s.pid s.resumeSignal)
  os (Ptrace.waitpid arch s.pid .none)

variable (arch) in
/-- What a round from `w` observes. Whether a syscall stop is an entry or an exit is told by
the syscall that is pending. -/
inductive Sees (w : World ω) : Option LiveStop → Prop where
  | entry {w₁ w₂ : World ω} {p : Pid} {regs : Registers}
      (stop : exec (nextStop arch) w = some (.ok (.ptraceSyscall p), w₁))
      (read : exec (Regs.read arch w.session.pid) w₁ = some (.ok regs, w₂))
      (idle : w.session.pending = none) : Sees w (some (.entry regs.nr))
  | exit {w₁ w₂ : World ω} {p : Pid} {regs : Registers} {pending : Pending}
      (stop : exec (nextStop arch) w = some (.ok (.ptraceSyscall p), w₁))
      (read : exec (Regs.read arch w.session.pid) w₁ = some (.ok regs, w₂))
      (pending : w.session.pending = some pending) : Sees w (some .exit)
  | signal {w₁ : World ω} {p : Pid} {sig : Signal}
      (stop : exec (nextStop arch) w = some (.ok (.stopped p sig), w₁)) : Sees w (some (.signal sig))
  | other {w₁ : World ω} {status : WaitStatus}
      (stop : exec (nextStop arch) w = some (.ok status, w₁))
      (syscall : ∀ p, status ≠ .ptraceSyscall p) (signal : ∀ p sig, status ≠ .stopped p sig) :
      Sees w none

variable (arch) in
/-- Rounds of a drive that went on, and the stops they observed. -/
inductive Observed (stopAt : Option UInt64) : World ω → List LiveStop → World ω → Prop where
  | nil (w : World ω) : Observed stopAt w [] w
  | cons {w w₁ w' : World ω} {stop : Option LiveStop} {stops : List LiveStop}
      (sees : Sees arch w stop) (round : exec (driveRound arch stopAt) w = some (.ok none, w₁))
      (rest : Observed stopAt w₁ stops w') : Observed stopAt w (stop.toList ++ stops) w'

variable (arch) in
/-- A drive from `w` comes to wait for a stop in state `v`. -/
def Waits (stopAt : Option UInt64) (w v : World ω) : Prop :=
  (∃ n, Rounds (driveRound arch stopAt) n w v) ∧ atTarget stopAt v = false

/-- The next record from the session's cursor on, checkpoints aside. -/
def NextRecord (s : ReplaySession) (r : Record) : Prop := ∃ m, Next s.records s.cursor m r

/-! ## One round -/

/-- A round waits, and then handles the stop. -/
theorem exec_driveRound {w w₁ : World ω} {status : WaitStatus}
    (h : exec (nextStop arch) w = some (.ok status, w₁)) :
    exec (driveRound arch none) w = exec (onStatus arch w.session.pid status) w₁ := by
  unfold nextStop at h
  rw [bind_ok (exec_self w)] at h
  unfold driveRound
  rw [bind_ok (exec_self w)]
  simp only [reached, Bool.false_eq_true, if_false]
  obtain ⟨_, w₂, hupdate, h⟩ := bind_ok_inv h
  obtain ⟨_, w₃, hresume, hwait⟩ := bind_ok_inv h
  rw [bind_ok hupdate, bind_ok hresume, bind_ok hwait]

omit [Unwind ω] in
/-- Waiting changes nothing of the session but the queued signal. -/
theorem nextStop_session {w w₁ : World ω} {r : Except ReplayError WaitStatus}
    (h : exec (nextStop arch) w = some (r, w₁)) :
    w₁.session = { w.session with resumeSignal := none } := by
  have hspec : Spec (fun v => v = w) (nextStop arch : Method ω WaitStatus)
      (fun _ => On fun s => s = { w.session with resumeSignal := none })
      (fun _ => On fun s => s = { w.session with resumeSignal := none }) := by
    refine Spec.bind (Q := fun s v => s = w.session ∧ v = w) ?_ fun s => ?_
    · rintro v rfl r v' hexec
      rcases Prod.mk.inj (Option.some.inj hexec) with ⟨rfl, rfl⟩
      exact ⟨rfl, rfl⟩
    refine Spec.bind (Q := fun _ => On fun s => s = { w.session with resumeSignal := none }) ?_
      fun _ => Spec.bind os_keeps fun _ => os_keeps
    rintro v ⟨-, rfl⟩ r v' hexec
    rcases Prod.mk.inj (Option.some.inj hexec) with ⟨rfl, rfl⟩
    rfl
  have hpost := hspec w rfl r w₁ h
  cases r with
  | ok a => exact hpost
  | error e => exact hpost

section Handlers

variable {records : List Record} {n : Nat}

/-- The session has consumed the next record from `n` on, which is that of the stop. -/
def ConsumedMatch (records : List Record) (n : Nat) (stop : LiveStop) (s : ReplaySession) : Prop :=
  s.records = records ∧ ∃ m r, Next records n m r ∧ stop.Matches r ∧ s.cursor = m + 1

/-- A session before it handles a stop. -/
def Before (records : List Record) (n : Nat) (s : ReplaySession) : Prop :=
  s.records = records ∧ s.cursor = n

omit [Ptrace arch ω] [Unwind ω] in
theorem nextRecord_before :
    Spec (On (Before records n)) (nextRecord : Method ω Record)
      (fun r => On fun s => ∃ m, Next records n m r ∧ s.records = records ∧ s.cursor = m + 1)
      (fun _ _ => True) := by
  intro w hw r w' hexec
  have hY : IgnoresStop fun _ => True :=
    ⟨fun _ _ h => h, fun _ _ h => h, fun _ _ h => h, fun _ _ h => h⟩
  have hpost := nextRecord_spec hY w ⟨⟨hw.1, hw.2, rfl⟩, trivial⟩ r w' hexec
  cases r with
  | error e => trivial
  | ok r =>
    obtain ⟨⟨m, hnext, hpos⟩, -⟩ := hpost
    exact ⟨m, hnext, hpos.records, hpos.cursor⟩

omit [Unwind ω] in
/-- An entry stop that is accepted is the next record. -/
theorem onEntry_matches (regs : Registers) :
    Spec (On (Before records n)) (onEntry arch regs : Method ω Unit)
      (fun _ => On (ConsumedMatch records n (.entry regs.nr))) (fun _ _ => True) := by
  refine Spec.bind nextRecord_before fun record => ?_
  split
  · rename_i hkind
    refine Spec.bind (orFail_spec fun _ _ _ => trivial) fun enter => ?_
    split
    · exact Spec.fail fun _ _ => trivial
    · rename_i hnr
      -- from here on only what a match does not look at changes
      refine Spec.bind (Q := fun _ => On (ConsumedMatch records n (.entry regs.nr))) ?_ fun _ => ?_
      · rintro w ⟨hdecode, m, hnext, hrecords, hcursor⟩ r w' hexec
        rcases Prod.mk.inj (Option.some.inj hexec) with ⟨rfl, rfl⟩
        exact ⟨hrecords, m, record, hnext, ⟨hkind, enter, hdecode, not_not.mp hnr⟩, hcursor⟩
      refine Spec.bind self_keeps.answers fun s => ?_
      refine Spec.bind (Keeps.when (suppressSyscall_keeps arch s.pid)).answers fun _ => ?_
      exact modifySelf_spec fun _ h => h
  · exact Spec.fail fun _ _ => trivial

omit [Unwind ω] in
/-- An exit stop that is accepted is the next record. -/
theorem onExit_matches (pending : Pending) :
    Spec (On (Before records n)) (onExit arch pending : Method ω Unit)
      (fun _ => On (ConsumedMatch records n .exit)) (fun _ _ => True) := by
  refine Spec.bind nextRecord_before fun record => ?_
  split
  · rename_i hkind
    refine Spec.bind (orFail_spec fun _ _ _ => trivial) fun exit => ?_
    refine Spec.bind (Q := fun _ => On (ConsumedMatch records n .exit)) ?_ fun _ => ?_
    · rintro w ⟨hdecode, m, hnext, hrecords, hcursor⟩ r w' hexec
      rcases Prod.mk.inj (Option.some.inj hexec) with ⟨rfl, rfl⟩
      exact ⟨hrecords, m, record, hnext, ⟨hkind, exit, hdecode⟩, hcursor⟩
    split
    · refine Spec.bind self_keeps.answers fun s => ?_
      refine Spec.bind (writeMemory_keeps arch s.pid _ _).answers fun _ => ?_
      exact (setReturn_keeps arch s.pid _).answers
    · exact Spec.pure fun _ h => h
  · exact Spec.fail fun _ _ => trivial

/-- The session has left a signal stop without a record for it. -/
def PassedSignal (records : List Record) (n : Nat) (s : ReplaySession) : Prop :=
  s.records = records ∧ Skips records n s.cursor ∧
    ∀ r, (∃ m, Next records n m r) → r.event.kind ≠ .signal

/-- There is one next record. -/
theorem Next.unique {m m' : Nat} {r r' : Record} (h : Next records n m r)
    (h' : Next records n m' r') : m = m' ∧ r = r' := by
  have hle : ∀ {a b : Nat} {x y : Record}, Next records n a x → Next records n b y → a ≤ b := by
    intro a b x y ha hb
    by_contra hlt
    exact hb.kind (ha.skips.2 b y hb.skips.1 (by omega) hb.here)
  have heq : m = m' := Nat.le_antisymm (hle h h') (hle h' h)
  subst heq
  have hhere := h.here
  rw [h'.here] at hhere
  exact ⟨rfl, (Option.some.inj hhere).symm⟩

omit [Ptrace arch ω] [Unwind ω] in
/-- A signal stop that is accepted is the next record, if that is a signal's. -/
theorem onSignalStop_matches (sig : Signal) :
    Spec (On (Before records n)) (onSignalStop sig : Method ω Unit)
      (fun _ => On fun s => ConsumedMatch records n (.signal sig) s ∨ PassedSignal records n s)
      (fun _ _ => True) := by
  have hskips := skips_skipFrom records n
  refine Spec.bind (Q := fun _ => On (Before records (n + skipFrom (records.drop n))))
    (modifySelf_spec ?_) fun _ => ?_
  · rintro s ⟨rfl, rfl⟩
    exact ⟨rfl, rfl⟩
  have hmatch : Spec (On (Before records (n + skipFrom (records.drop n))))
      (matchSignal sig : Method ω Unit)
      (fun _ => On fun s => ConsumedMatch records n (.signal sig) s ∨ PassedSignal records n s)
      (fun _ _ => True) := by
    refine Spec.bind self_spec fun s => ?_
    split
    · rename_i record hrecord
      split
      · rename_i hkind
        refine Spec.bind (orFail_spec fun _ _ _ => trivial) fun delivery => ?_
        split
        · exact Spec.fail fun _ _ => trivial
        · rename_i hsignum
          rintro w ⟨hdecode, ⟨hrecords, hcursor⟩, rfl⟩ r w' hexec
          rcases Prod.mk.inj (Option.some.inj hexec) with ⟨rfl, rfl⟩
          rw [hrecords, hcursor] at hrecord
          refine .inl ⟨hrecords, _, record, ⟨hskips.1, hrecord, hskips.2 record hrecord⟩,
            ⟨hkind, delivery, hdecode, not_not.mp hsignum⟩, congrArg (· + 1) hcursor⟩
      · rename_i hkind
        apply Spec.pure
        rintro w ⟨⟨hrecords, hcursor⟩, rfl⟩
        rw [hrecords, hcursor] at hrecord
        refine .inr ⟨hrecords, hcursor.symm ▸ hskips.1, ?_⟩
        rintro r ⟨m, hnext⟩
        have hhere : Next records n _ record := ⟨hskips.1, hrecord, hskips.2 record hrecord⟩
        rw [(hnext.unique hhere).2]
        exact hkind
    · rename_i hnone
      apply Spec.pure
      rintro w ⟨⟨hrecords, hcursor⟩, rfl⟩
      rw [hrecords, hcursor] at hnone
      refine .inr ⟨hrecords, hcursor.symm ▸ hskips.1, ?_⟩
      rintro r ⟨m, hnext⟩
      -- there is no record after the checkpoints
      have hlt := (List.getElem?_eq_some_iff.mp hnext.here).1
      have hend : records.length ≤ n + skipFrom (records.drop n) :=
        List.getElem?_eq_none_iff.mp hnone
      exact absurd (hskips.1.2 m r hnext.skips.1 (by omega) hnext.here) hnext.kind
  exact Spec.bind hmatch fun _ => modifySelf_spec fun _ h => h

end Handlers

/-! ## Handlers return -/

section Total

omit [Unwind ω] [Ptrace arch ω]

theorem osOr_total {α ε : Type} {err : ε → ReplayError} {call : Call ω ε α} :
    Total (osOr err call) := by
  intro w
  rcases hcall : call w.os with ⟨e | a, os'⟩
  · exact ⟨_, _, exec_osOr_error hcall⟩
  · exact ⟨_, _, exec_osOr_ok hcall⟩

theorem os_total {α : Type} {call : Call ω Errno α} : Total (os call) := osOr_total

theorem self_total : Total (self : Method ω ReplaySession) := fun w => ⟨_, w, rfl⟩

theorem modifySelf_total {f : ReplaySession → ReplaySession} :
    Total (modifySelf f : Method ω Unit) := Total.update

theorem orFail_total {α ε : Type} {err : ε → ReplayError} {x : Except ε α} :
    Total (orFail err x : Method ω α) := by
  cases x with
  | ok a => exact Total.pure
  | error e => exact Total.fail

theorem nextRecord_total : Total (nextRecord : Method ω Record) := by
  refine Total.bind modifySelf_total fun _ => ?_
  refine Total.bind self_total fun s => ?_
  split
  · exact Total.fail
  · exact Total.bind modifySelf_total fun _ => Total.pure

theorem onSignalStop_total (sig : Signal) : Total (onSignalStop sig : Method ω Unit) := by
  refine Total.bind modifySelf_total fun _ => ?_
  refine Total.bind ?_ fun _ => modifySelf_total
  refine Total.bind self_total fun s => ?_
  split
  · split
    · refine Total.bind orFail_total fun delivery => ?_
      split
      · exact Total.fail
      · exact modifySelf_total
    · exact Total.pure
  · exact Total.pure

variable [Ptrace arch ω]

theorem suppressSyscall_total (pid : Pid) :
    Total (Regs.suppressSyscall arch pid : Method ω Unit) := by
  unfold Regs.suppressSyscall
  split
  · exact Total.bind os_total fun _ => os_total
  · exact os_total

theorem writeMemory_total (pid : Pid) (addr : UInt64) (data : Bytes) :
    Total (writeMemory arch pid addr data : Method ω Unit) := by
  unfold writeMemory
  split
  · exact Total.pure
  · refine Total.bind osOr_total fun written => ?_
    split
    · exact Total.fail
    · exact Total.pure

theorem onEntry_total (regs : Registers) : Total (onEntry arch regs : Method ω Unit) := by
  refine Total.bind nextRecord_total fun record => ?_
  split
  · refine Total.bind orFail_total fun enter => ?_
    split
    · exact Total.fail
    · refine Total.bind modifySelf_total fun _ => ?_
      refine Total.bind self_total fun s => ?_
      exact Total.bind (Total.when (suppressSyscall_total s.pid)) fun _ => modifySelf_total
  · exact Total.fail

theorem onExit_total (pending : Pending) : Total (onExit arch pending : Method ω Unit) := by
  refine Total.bind nextRecord_total fun record => ?_
  split
  · refine Total.bind orFail_total fun exit => ?_
    refine Total.bind modifySelf_total fun _ => ?_
    split
    · refine Total.bind self_total fun s => ?_
      refine Total.bind (writeMemory_total s.pid _ _) fun _ => ?_
      exact Total.bind os_total fun _ => os_total
    · exact Total.pure
  · exact Total.fail

end Total

/-! ## Rounds -/

variable {w w' : World ω}

/-- What a round that went on has done with its stop. -/
inductive Accepted (records : List Record) (n : Nat) : Option LiveStop → ReplaySession → Prop where
  | matched {stop : LiveStop} {s : ReplaySession} (h : ConsumedMatch records n stop s) :
      Accepted records n (some stop) s
  | passed {sig : Signal} {s : ReplaySession} (h : PassedSignal records n s) :
      Accepted records n (some (.signal sig)) s
  | silent {s : ReplaySession} (h : Before records n s) : Accepted records n none s

/-- Without a watchpoint every `SIGTRAP` is a signal. -/
theorem exec_onStopped (hwatch : w.session.watchpoint = none) (pid : Pid) (sig : Signal) :
    exec (onStopped arch pid sig) w = exec (onSignalStop sig) w := by
  unfold onStopped
  split
  · have hno : exec (isWatchHit arch pid) w = some (.ok false, w) := by
      unfold isWatchHit
      rw [bind_ok (exec_self w), hwatch]
      rfl
    rw [bind_ok hno]
    rfl
  · rfl

omit [Unwind ω] in
/-- The syscall stop of a round, once the registers are read. -/
theorem exec_onSyscallStop {w₁ w₂ : World ω} {regs : Registers}
    (hsession : w₁.session = { w.session with resumeSignal := none })
    (hread : exec (Regs.read arch w.session.pid) w₁ = some (.ok regs, w₂)) :
    w₂.session = w₁.session ∧
      exec (onSyscallStop arch) w₁ =
        exec (match w.session.pending with
          | none => onEntry arch regs
          | some pending => onExit arch pending)
          { w₂ with session := { w₂.session with lastRegs := some regs, pending := none } } := by
  have hsame : w₂.session = w₁.session :=
    (read_keeps (P := fun s => s = w₁.session) arch w.session.pid).ok rfl hread
  refine ⟨hsame, ?_⟩
  unfold onSyscallStop
  rw [bind_ok (exec_self w₁)]
  have hpid : w₁.session.pid = w.session.pid := by rw [hsession]
  have hpending : w₁.session.pending = w.session.pending := by rw [hsession]
  rw [hpid, hpending, bind_ok hread]
  exact bind_ok (exec_modifySelf _ w₂)

theorem round_accepted {stop : Option LiveStop} (hwatch : w.session.watchpoint = none)
    (hsees : Sees arch w stop) (h : exec (driveRound arch none) w = some (.ok none, w')) :
    Accepted w.session.records w.session.cursor stop w'.session := by
  -- what follows a syscall stop does not look at the match
  have hafter {w₁ w₃ : World ω} {stop : LiveStop} {m : Method ω Unit}
      (hm : Spec (On (Before w.session.records w.session.cursor)) m
        (fun _ => On (ConsumedMatch w.session.records w.session.cursor stop)) (fun _ _ => True))
      (hw₁ : Before w.session.records w.session.cursor w₁.session)
      (hexec : exec m w₁ = some (.ok (), w₃))
      (hrest : exec (do maybeCheckpoint arch; pure (none : Option ExitOutcome)) w₃ =
        some (.ok none, w')) :
      ConsumedMatch w.session.records w.session.cursor stop w'.session := by
    obtain ⟨_, w₄, hcheckpoint, hpure⟩ := bind_ok_inv hrest
    rcases Prod.mk.inj (Option.some.inj hpure) with ⟨-, rfl⟩
    have hkeeps : KeepsSession (ConsumedMatch w.session.records w.session.cursor stop)
        (maybeCheckpoint arch : Method ω Unit) := maybeCheckpoint_keeps arch fun _ _ h => h
    exact hkeeps.ok (hm.ok hw₁ hexec) hcheckpoint
  cases hsees with
  | @entry w₁ w₂ p regs stop read idle =>
    have hsession := nextStop_session stop
    obtain ⟨hsame, hstop⟩ := exec_onSyscallStop hsession read
    rw [exec_driveRound stop] at h
    rw [idle] at hstop
    obtain ⟨_, w₃, hentry, hrest⟩ := bind_ok_inv h
    rw [hstop] at hentry
    refine .matched (hafter (onEntry_matches regs) ?_ hentry hrest)
    rw [hsame, hsession]
    exact ⟨rfl, rfl⟩
  | @exit w₁ w₂ p regs pending stop read hpending =>
    have hsession := nextStop_session stop
    obtain ⟨hsame, hstop⟩ := exec_onSyscallStop hsession read
    rw [exec_driveRound stop] at h
    rw [hpending] at hstop
    obtain ⟨_, w₃, hexit, hrest⟩ := bind_ok_inv h
    rw [hstop] at hexit
    refine .matched (hafter (onExit_matches pending) ?_ hexit hrest)
    rw [hsame, hsession]
    exact ⟨rfl, rfl⟩
  | @signal w₁ p sig stop =>
    have hsession := nextStop_session stop
    rw [exec_driveRound stop] at h
    obtain ⟨_, w₃, hsignal, hrest⟩ := bind_ok_inv h
    rcases Prod.mk.inj (Option.some.inj hrest) with ⟨-, rfl⟩
    rw [exec_onStopped (by rw [hsession]; exact hwatch)] at hsignal
    have hbefore : Before w.session.records w.session.cursor w₁.session := by
      rw [hsession]
      exact ⟨rfl, rfl⟩
    rcases (onSignalStop_matches sig).ok hbefore hsignal with hmatch | hpassed
    · exact .matched hmatch
    · exact .passed hpassed
  | @other w₁ status stop hsyscall hsignal =>
    have hsession := nextStop_session stop
    rw [exec_driveRound stop] at h
    have hsame : w' = w₁ := by
      cases status with
      | ptraceSyscall p => exact absurd rfl (hsyscall p)
      | stopped p sig => exact absurd rfl (hsignal p sig)
      | exited p code => cases h
      | signaled p sig core => cases h
      | ptraceEvent p sig event => exact (Prod.mk.inj (Option.some.inj h)).2.symm
      | continued p => exact (Prod.mk.inj (Option.some.inj h)).2.symm
      | stillAlive => exact (Prod.mk.inj (Option.some.inj h)).2.symm
    refine .silent ?_
    rw [hsame, hsession]
    exact ⟨rfl, rfl⟩

/-- A round that went on has observed something. -/
theorem round_sees (h : exec (driveRound arch none) w = some (.ok none, w')) :
    ∃ stop, Sees arch w stop := by
  unfold driveRound at h
  rw [bind_ok (exec_self w)] at h
  simp only [reached, Bool.false_eq_true, if_false] at h
  obtain ⟨_, w₁, hupdate, h⟩ := bind_ok_inv h
  obtain ⟨_, w₂, hresume, h⟩ := bind_ok_inv h
  obtain ⟨status, w₃, hwait, h⟩ := bind_ok_inv h
  have hstop : exec (nextStop arch) w = some (.ok status, w₃) := by
    unfold nextStop
    rw [bind_ok (exec_self w), bind_ok hupdate, bind_ok hresume, hwait]
  cases status with
  | ptraceSyscall p =>
    -- the registers were read, or the round would have failed
    have hsession := nextStop_session hstop
    obtain ⟨_, w₄, hsyscall, -⟩ := bind_ok_inv h
    unfold onSyscallStop at hsyscall
    rw [bind_ok (exec_self w₃)] at hsyscall
    obtain ⟨regs, w₅, hread, -⟩ := bind_ok_inv hsyscall
    have hpid : w₃.session.pid = w.session.pid := by rw [hsession]
    rw [hpid] at hread
    cases hpending : w.session.pending with
    | none => exact ⟨_, .entry hstop hread hpending⟩
    | some pending => exact ⟨_, .exit hstop hread hpending⟩
  | stopped p sig => exact ⟨_, .signal hstop⟩
  | exited p code => exact ⟨_, .other hstop (by simp) (by simp)⟩
  | signaled p sig core => exact ⟨_, .other hstop (by simp) (by simp)⟩
  | ptraceEvent p sig event => exact ⟨_, .other hstop (by simp) (by simp)⟩
  | continued p => exact ⟨_, .other hstop (by simp) (by simp)⟩
  | stillAlive => exact ⟨_, .other hstop (by simp) (by simp)⟩

/-- The stop has its record next. -/
def Recorded (s : ReplaySession) (stop : LiveStop) : Prop := ∃ r, NextRecord s r ∧ stop.Matches r

theorem ConsumedMatch.recorded {stop : LiveStop} {s s' : ReplaySession}
    (h : ConsumedMatch s.records s.cursor stop s') : Recorded s stop := by
  obtain ⟨-, m, r, hnext, hmatch, -⟩ := h
  exact ⟨r, ⟨m, hnext⟩, hmatch⟩

/-- A syscall stop without its record fails, and so does a signal that is another than the
recorded one. -/
theorem round_fails {stop : LiveStop} (hwatch : w.session.watchpoint = none)
    (hsees : Sees arch w (some stop)) (hunmatched : ¬ Recorded w.session stop)
    (hsignal : ∀ sig, stop = .signal sig → ∃ r, NextRecord w.session r ∧ r.event.kind = .signal) :
    ∃ e w', exec (driveRound arch none) w = some (.error e, w') := by
  have hnot (s : ReplaySession) : ¬ ConsumedMatch w.session.records w.session.cursor stop s :=
    fun h => hunmatched h.recorded
  cases hsees with
  | @entry w₁ w₂ p regs hstop hread hidle =>
    have hsession := nextStop_session hstop
    obtain ⟨hsame, hsyscall⟩ := exec_onSyscallStop hsession hread
    rw [hidle] at hsyscall
    have hbefore : Before w.session.records w.session.cursor w₂.session := by
      rw [hsame, hsession]
      exact ⟨rfl, rfl⟩
    have htotal : Total (onEntry arch regs : Method ω Unit) := onEntry_total regs
    obtain ⟨e, w', hfail⟩ := htotal.fails (onEntry_matches regs)
      (s := { w₂ with session := { w₂.session with lastRegs := some regs, pending := none } })
      hbefore fun _ t => hnot t.session
    refine ⟨e, w', ?_⟩
    rw [exec_driveRound hstop]
    exact bind_error (hsyscall.trans hfail)
  | @exit w₁ w₂ p regs pending hstop hread hpending =>
    have hsession := nextStop_session hstop
    obtain ⟨hsame, hsyscall⟩ := exec_onSyscallStop hsession hread
    rw [hpending] at hsyscall
    have hbefore : Before w.session.records w.session.cursor w₂.session := by
      rw [hsame, hsession]
      exact ⟨rfl, rfl⟩
    have htotal : Total (onExit arch pending : Method ω Unit) := onExit_total pending
    obtain ⟨e, w', hfail⟩ := htotal.fails (onExit_matches pending)
      (s := { w₂ with session := { w₂.session with lastRegs := some regs, pending := none } })
      hbefore fun _ t => hnot t.session
    refine ⟨e, w', ?_⟩
    rw [exec_driveRound hstop]
    exact bind_error (hsyscall.trans hfail)
  | @signal w₁ p sig hstop =>
    have hsession := nextStop_session hstop
    have hbefore : Before w.session.records w.session.cursor w₁.session := by
      rw [hsession]
      exact ⟨rfl, rfl⟩
    have hnone (t : World ω) : ¬ (ConsumedMatch w.session.records w.session.cursor (.signal sig)
        t.session ∨ PassedSignal w.session.records w.session.cursor t.session) := by
      rintro (hmatch | hpassed)
      · exact hnot t.session hmatch
      · obtain ⟨r, hnext, hkind⟩ := hsignal sig rfl
        exact hpassed.2.2 r hnext hkind
    obtain ⟨e, w', hfail⟩ := (onSignalStop_total sig).fails (onSignalStop_matches sig)
      hbefore fun _ => hnone
    refine ⟨e, w', ?_⟩
    rw [exec_driveRound hstop]
    exact bind_error ((exec_onStopped (by rw [hsession]; exact hwatch) _ sig).trans hfail)

/-- A signal stop passes when the next record is not a signal's. -/
theorem signal_passes {sig : Signal} (hwatch : w.session.watchpoint = none)
    (hsees : Sees arch w (some (.signal sig)))
    (hnext : ¬ ∃ r, NextRecord w.session r ∧ r.event.kind = .signal) :
    ∃ w', exec (driveRound arch none) w = some (.ok none, w') := by
  cases hsees with
  | @signal w₁ p _ hstop =>
    have hsession := nextStop_session hstop
    let w₂ : World ω :=
      ⟨{ w₁.session with
          cursor := w₁.session.cursor + skipFrom (w₁.session.records.drop w₁.session.cursor) },
        w₁.os⟩
    have hmatch : exec (matchSignal sig) w₂ = some (.ok (), w₂) := by
      unfold matchSignal
      rw [bind_ok (exec_self _)]
      split
      · rename_i record hrecord
        have hskips := skips_skipFrom w₁.session.records w₁.session.cursor
        have hrecords : w₁.session.records = w.session.records := by rw [hsession]
        have hcursor : w₁.session.cursor = w.session.cursor := by rw [hsession]
        have hkind : record.event.kind ≠ .signal := by
          intro hkind
          change w₁.session.records[w₁.session.cursor + _]? = some record at hrecord
          rw [hrecords, hcursor] at hskips hrecord
          exact hnext ⟨record, ⟨_, hskips.1, hrecord, hskips.2 record hrecord⟩, hkind⟩
        rw [if_neg hkind]
        rfl
      · rfl
    let w₃ : World ω := { w₂ with session := { w₂.session with resumeSignal := some sig } }
    have hstopped : exec (onStopped arch w.session.pid sig) w₁ = some (.ok (), w₃) := by
      rw [exec_onStopped (by rw [hsession]; exact hwatch)]
      exact (bind_ok (exec_modifySelf _ w₁)).trans (bind_ok hmatch)
    refine ⟨w₃, ?_⟩
    rw [exec_driveRound hstop]
    exact bind_ok hstopped

/-! ## Drives -/

variable (arch) in
/-- A drive that answered, and the stops it observed. -/
inductive Drove (stopAt : Option UInt64) (w : World ω) :
    List LiveStop → ExitOutcome → World ω → Prop where
  | ended {outcome : ExitOutcome} (finished : w.session.finished = some outcome) :
      Drove stopAt w [] outcome w
  | left {stops : List LiveStop} {outcome : ExitOutcome} {u w' : World ω}
      (unfinished : w.session.finished = none) (observed : Observed arch stopAt w stops u)
      (leaves : Leaves (driveRound arch stopAt) u (.ok outcome) w') : Drove stopAt w stops outcome w'

variable (arch) in
/-- The driver matches live stops and records one for one: the stops of a drive that answers
are, in order, the records it consumed, and a drive fails at a stop that has no record. -/
structure Matched (stopAt : Option UInt64) (w : World ω) : Prop where
  answers : ∀ outcome w', exec (drive arch stopAt) w = some (.ok outcome, w') →
    ∃ stops rs, Drove arch stopAt w stops outcome w' ∧
      taken w.session.records w'.session.cursor = taken w.session.records w.session.cursor ++ rs ∧
      List.Forall₂ LiveStop.Matches stops rs
  fails : ∀ v stop, w.session.finished = none → Waits arch stopAt w v →
    Sees arch v (some stop) → ¬ Recorded v.session stop →
      ∃ e v', exec (driveRound arch stopAt) v = some (.error e, v') ∧
        exec (drive arch stopAt) w = some (.error e, v')

/-- A round before the target. -/
theorem exec_driveRound_go {stopAt : Option UInt64} (h : atTarget stopAt w = false) :
    exec (driveRound arch stopAt) w = exec (driveRound arch none) w := by
  rw [driveRound_upTo, exec_upTo_go h]

/-- A round that goes on is before the target. -/
theorem atTarget_of_round {stopAt : Option UInt64}
    (h : exec (driveRound arch stopAt) w = some (.ok none, w')) : atTarget stopAt w = false := by
  cases hstop : atTarget stopAt w with
  | false => rfl
  | true =>
    rw [driveRound_upTo, exec_upTo_stop hstop] at h
    cases h

/-- What a round leaves of the session. -/
theorem round_keeps {stopAt : Option UInt64}
    (h : exec (driveRound arch stopAt) w = some (.ok none, w')) :
    w'.session.records = w.session.records ∧ w'.session.watchpoint = w.session.watchpoint := by
  have hkeeps : KeepsSession
      (fun s => s.records = w.session.records ∧ s.watchpoint = w.session.watchpoint)
      (driveRound arch stopAt : Method ω (Option ExitOutcome)) :=
    IgnoresDriver.driveRound arch ⟨⟨fun _ _ h => h, fun _ _ _ h => h⟩, fun _ _ _ _ _ _ h => h⟩
      (fun _ _ h => h) (fun _ _ h => h) stopAt
  exact hkeeps.ok ⟨rfl, rfl⟩ h

/-- The records a matched round adds to those consumed. -/
theorem Accepted.taken {records : List Record} {n : Nat} {stop : Option LiveStop}
    {s : ReplaySession} (h : Accepted records n stop s)
    (hsignal : ∀ sig, stop = some (.signal sig) →
      ∃ r, (∃ m, Next records n m r) ∧ r.event.kind = .signal) :
    ∃ rs, Replay.taken records s.cursor = Replay.taken records n ++ rs ∧
      List.Forall₂ LiveStop.Matches stop.toList rs := by
  cases h with
  | @matched stop s h =>
    obtain ⟨-, m, r, hnext, hmatch, hcursor⟩ := h
    refine ⟨[r], ?_, .cons hmatch .nil⟩
    rw [hcursor, taken_next hnext]
  | @passed sig s h =>
    obtain ⟨r, hnext, hkind⟩ := hsignal sig rfl
    exact absurd hkind (h.2.2 r hnext)
  | @silent s h =>
    refine ⟨[], ?_, .nil⟩
    rw [h.2, List.append_nil]

theorem rounds_matched {stopAt : Option UInt64} {n : Nat}
    (h : Rounds (driveRound arch stopAt) n w w') (hwatch : w.session.watchpoint = none)
    (hsignals : ∀ v sig, Waits arch stopAt w v → Sees arch v (some (.signal sig)) →
      ∃ r, NextRecord v.session r ∧ r.event.kind = .signal) :
    ∃ stops rs, Observed arch stopAt w stops w' ∧
      taken w.session.records w'.session.cursor = taken w.session.records w.session.cursor ++ rs ∧
      List.Forall₂ LiveStop.Matches stops rs := by
  induction h with
  | zero w => exact ⟨[], [], .nil w, (List.append_nil _).symm, .nil⟩
  | @succ n w w₁ w' first rest ih =>
    have hgo := atTarget_of_round first
    obtain ⟨hrecords, hwatch₁⟩ := round_keeps first
    have hplain : exec (driveRound arch none) w = some (.ok none, w₁) := by
      rw [← exec_driveRound_go hgo, first]
    obtain ⟨stop, hsees⟩ := round_sees hplain
    -- the first stop, and the others by induction
    have hfirst := (round_accepted hwatch hsees hplain).taken fun sig heq =>
      hsignals w sig ⟨⟨0, .zero w⟩, hgo⟩ (heq ▸ hsees)
    obtain ⟨rs, htaken, hmatches⟩ := hfirst
    have hrest : ∀ v sig, Waits arch stopAt w₁ v → Sees arch v (some (.signal sig)) →
        ∃ r, NextRecord v.session r ∧ r.event.kind = .signal := by
      rintro v sig ⟨⟨k, hv⟩, htarget⟩
      exact hsignals v sig ⟨⟨k + 1, .succ first hv⟩, htarget⟩
    obtain ⟨stops, rs', hobserved, htaken', hmatches'⟩ := ih (hwatch₁.trans hwatch) hrest
    refine ⟨stop.toList ++ stops, rs ++ rs', .cons hsees first hobserved, ?_, ?_⟩
    · rw [hrecords] at htaken'
      rw [htaken', htaken, List.append_assoc]
    · exact List.rel_append hmatches hmatches'

/-- The last round of a drive that answers consumes nothing. -/
theorem leaves_cursor {stopAt : Option UInt64} {outcome : ExitOutcome}
    (h : Leaves (driveRound arch stopAt) w (.ok outcome) w') :
    w'.session.cursor = w.session.cursor := by
  rcases h with ⟨a, hexec, -⟩ | ⟨e, -, heq⟩
  · rw [driveRound_upTo] at hexec
    cases hstop : atTarget stopAt w with
    | true =>
      rw [exec_upTo_stop hstop] at hexec
      rcases Prod.mk.inj (Option.some.inj hexec) with ⟨-, rfl⟩
      rfl
    | false =>
      rw [exec_upTo_go hstop] at hexec
      have hpos := (driveRound_progress w.session.checkpoints).ok ⟨atPos_self w.session, rfl⟩ hexec
      exact hpos.cursor
  · cases heq

/-- The driver matches stops and records one for one just when no signal stop comes where the
next record is not a signal's. -/
theorem drive_matched_iff (stopAt : Option UInt64) (hsingle : w.session.multithreaded = false)
    (hwatch : w.session.watchpoint = none) :
    Matched arch stopAt w ↔
      (w.session.finished = none → ∀ v sig, Waits arch stopAt w v →
        Sees arch v (some (.signal sig)) →
          ∃ r, NextRecord v.session r ∧ r.event.kind = .signal) := by
  have hwatches (v : World ω) (n : Nat) (h : Rounds (driveRound arch stopAt) n w v) :
      v.session.watchpoint = none :=
    h.invariant (fun v => v.session.watchpoint = none)
      (fun u v hu hexec => (round_keeps hexec).2.trans hu) hwatch
  constructor
  · rintro hmatched hlive v sig hwaits hsees
    obtain ⟨⟨n, hrounds⟩, hgo⟩ := hwaits
    by_contra hnext
    -- the stop has no record, and yet the round goes on
    have hunmatched : ¬ Recorded v.session (.signal sig) := by
      rintro ⟨r, hr, hmatch⟩
      exact hnext ⟨r, hr, hmatch.1⟩
    obtain ⟨e, v', hfails, -⟩ := hmatched.fails v _ hlive ⟨⟨n, hrounds⟩, hgo⟩ hsees hunmatched
    obtain ⟨v'', hpasses⟩ := signal_passes (hwatches v n hrounds) hsees hnext
    rw [exec_driveRound_go hgo, hpasses] at hfails
    cases hfails
  · intro hsignals
    constructor
    · intro outcome w' hdrive
      cases hfinished : w.session.finished with
      | some outcome =>
        rw [exec_drive_over hfinished] at hdrive
        rcases Prod.mk.inj (Option.some.inj hdrive) with ⟨hok, rfl⟩
        rcases Except.ok.inj hok with rfl
        exact ⟨[], [], .ended hfinished, (List.append_nil _).symm, .nil⟩
      | none =>
        rw [exec_drive_single hfinished hsingle] at hdrive
        obtain ⟨n, u, hrounds, hleaves⟩ := loop_inv hdrive
        obtain ⟨stops, rs, hobserved, htaken, hmatches⟩ :=
          rounds_matched hrounds hwatch (hsignals hfinished)
        refine ⟨stops, rs, .left hfinished hobserved hleaves, ?_, hmatches⟩
        rw [leaves_cursor hleaves]
        exact htaken
    · rintro v stop hlive ⟨⟨n, hrounds⟩, hgo⟩ hsees hunmatched
      obtain ⟨e, v', hfails⟩ := round_fails (hwatches v n hrounds) hsees hunmatched (by
        rintro sig rfl
        exact hsignals hlive v sig ⟨⟨n, hrounds⟩, hgo⟩ hsees)
      rw [← exec_driveRound_go hgo] at hfails
      refine ⟨e, v', hfails, ?_⟩
      rw [exec_drive_single hlive hsingle]
      exact loop_returns hrounds (.inr ⟨e, hfails, rfl⟩)

/-! ## A program that gets a signal -/

/-- The program gets a `SIGUSR1` and exits; its state says whether it has got it. -/
def oneSignal : Machine .x86_64 where
  Group := Bool
  start _ := false
  resume got _ _ _ := if got then (got, .exited 0) else (true, .signal .usr1)
  step got _ _ := (got, .stop .syscall)
  regs _ _ := ⟨0, 0, 0, 0, 0, 0, 0, 0, 0, []⟩
  setRegs got _ _ := got
  setNr got _ _ := got
  read _ _ _ _ := .error Errno.EFAULT
  write got _ _ data := (.ok data.length, got)
  siCode _ _ := 0

/-- On a trace without the signal, the drive does not see that the signal is not recorded. -/
theorem unrecorded_signal_passes :
    ∃ (bytes : Bytes) (f w' : World (Os oneSignal)),
      Opened Crc32.hash bytes ⟨"true", []⟩ [] ∧
      exec (launch .x86_64) ⟨ReplaySession.ofTrace ⟨"true", []⟩ [], emptyOs oneSignal⟩ =
        some (.ok (), f) ∧
      f.session.multithreaded = false ∧ f.session.watchpoint = none ∧
      Sees .x86_64 f (some (.signal .usr1)) ∧ ¬ Recorded f.session (.signal .usr1) ∧
      exec (drive .x86_64 none) f = some (.ok (.exited 0), w') ∧ ¬ Matched .x86_64 none f := by
  have hrun : ∃ f w₀ w₁ w' : World (Os oneSignal),
      exec (launch .x86_64) ⟨ReplaySession.ofTrace ⟨"true", []⟩ [], emptyOs oneSignal⟩ =
        some (.ok (), f) ∧
      exec (nextStop .x86_64) f = some (.ok (.stopped 1 .usr1), w₀) ∧
      exec (driveRound .x86_64 none) f = some (.ok none, w₁) ∧
      exec (driveRound .x86_64 none) w₁ = some (.ok (some (.exited 0)), w') ∧
      f.session.multithreaded = false ∧ f.session.watchpoint = none ∧
      f.session.finished = none ∧ f.session.records = [] :=
    ⟨_, _, _, _, rfl, rfl, rfl, rfl, rfl, rfl, rfl, rfl⟩
  obtain ⟨f, w₀, w₁, w', hlaunch, hstop, hfirst, hlast, hsingle, hwatch, hlive, hrecords⟩ := hrun
  have hsees : Sees .x86_64 f (some (.signal .usr1)) := .signal hstop
  have hunrecorded : ¬ Recorded f.session (.signal .usr1) := by
    rintro ⟨r, ⟨m, hnext⟩, -⟩
    have hhere := hnext.here
    rw [hrecords] at hhere
    cases hhere
  have hdrive : exec (drive .x86_64 none) f = some (.ok (.exited 0), w') := by
    rw [exec_drive_single hlive hsingle]
    exact loop_returns (.succ hfirst (.zero w₁)) (.inl ⟨_, hlast, rfl⟩)
  have hopen : Opened Crc32.hash _ ⟨"true", []⟩ (Trace.storedRecords 0 []) :=
    opened_stored (by decide) (by simp) (by decide)
  refine ⟨_, f, w', hopen, hlaunch, hsingle, hwatch, hsees, hunrecorded, hdrive, ?_⟩
  intro hmatched
  obtain ⟨e, v', -, hfails⟩ :=
    hmatched.fails f _ hlive ⟨⟨0, .zero f⟩, rfl⟩ hsees hunrecorded
  rw [hdrive] at hfails
  cases hfails

/-- On a trace with the signal, stops and records match. -/
theorem drive_matched_oneSignal :
    ∃ f : World (Os oneSignal),
      exec (launch .x86_64)
        ⟨ReplaySession.ofTrace ⟨"true", []⟩
          [⟨0, .newWithTid .signal 0 1 (SignalDelivery.encode ⟨Signal.usr1.num⟩)⟩],
          emptyOs oneSignal⟩ = some (.ok (), f) ∧ Matched .x86_64 none f := by
  have hrun : ∃ f w₀ w₁ w' : World (Os oneSignal),
      exec (launch .x86_64)
        ⟨ReplaySession.ofTrace ⟨"true", []⟩
          [⟨0, .newWithTid .signal 0 1 (SignalDelivery.encode ⟨Signal.usr1.num⟩)⟩],
          emptyOs oneSignal⟩ = some (.ok (), f) ∧
      exec (driveRound .x86_64 none) f = some (.ok none, w₁) ∧
      exec (nextStop .x86_64) w₁ = some (.ok (.exited 1 0), w₀) ∧
      exec (driveRound .x86_64 none) w₁ = some (.ok (some (.exited 0)), w') ∧
      f.session.multithreaded = false ∧ f.session.watchpoint = none ∧ f.session.cursor = 0 ∧
      f.session.records =
        [⟨0, .newWithTid .signal 0 1 (SignalDelivery.encode ⟨Signal.usr1.num⟩)⟩] :=
    ⟨_, _, _, _, rfl, rfl, rfl, rfl, rfl, rfl, rfl, rfl⟩
  obtain ⟨f, w₀, w₁, w', hlaunch, hfirst, hstop, hlast, hsingle, hwatch, hcursor, hrecords⟩ := hrun
  refine ⟨f, hlaunch, (drive_matched_iff none hsingle hwatch).mpr ?_⟩
  rintro - v sig ⟨⟨n, hrounds⟩, -⟩ hsees
  cases hrounds with
  | zero =>
    have hnext : Next f.session.records f.session.cursor 0
        ⟨0, .newWithTid .signal 0 1 (SignalDelivery.encode ⟨Signal.usr1.num⟩)⟩ := by
      rw [hcursor, hrecords]
      refine ⟨Skips.refl _ 0, rfl, ?_⟩
      intro hkind
      cases hkind
    exact ⟨_, ⟨0, hnext⟩, rfl⟩
  | succ first rest =>
    rw [hfirst] at first
    rcases Prod.mk.inj (Option.some.inj first) with ⟨-, rfl⟩
    cases rest with
    | zero =>
      -- the program exits
      cases hsees with
      | signal hsignal =>
        rw [hstop] at hsignal
        cases hsignal
    | succ second _ =>
      rw [hlast] at second
      cases second

end Mirrorscope.Replay
