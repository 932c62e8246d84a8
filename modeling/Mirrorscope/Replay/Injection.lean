import Mirrorscope.Capture.Syscall
import Mirrorscope.Replay.Directed

/-! # One injection rule

The recorder decides after a syscall which memory to capture; the two drivers decide
before it whether to cancel it and where to put the recorded bytes. The rule they share
is written down once here, as what it does to the system, and each of the three places
is compared with it.

`entryRule` and `exitRule` are the rule, `atStop` reads the registers first:
* `injectionAddr_of_region`: what is captured is injected at the same place.
* `onSyscallStop_entry`, `onSyscallStop_exit`: the single-tracee driver follows the rule.
* `onSyscallEnter_entry`, `onSyscallExit_exit`: so does the multi-threaded one.
* `one_injection_rule`: all of it, for any call.
-/

namespace Mirrorscope.Replay

open Capture Linux Run
open Trace (Record)

variable {ω α β : Type}

/-! ## Methods that only call the system -/

/-- What a run did to the system, and how it ended. -/
def effect (result : Option (Except ReplayError Unit × World ω)) :
    Option (Except ReplayError Unit × ω) :=
  result.map fun (r, w) => (r, w.os)

/-- A method that answers from the system alone and leaves the session as it is. -/
def CallsOnly (m : Method ω α) : Prop :=
  ∃ f : Call ω ReplayError α, ∀ w,
    Run.exec m w = some ((f w.os).1, { w with os := (f w.os).2 })

namespace CallsOnly

theorem pure (a : α) : CallsOnly (Pure.pure a : Method ω α) :=
  ⟨fun os => (.ok a, os), fun _ => rfl⟩

theorem fail (e : ReplayError) : CallsOnly (Run.fail e : Method ω α) :=
  ⟨fun os => (.error e, os), fun _ => rfl⟩

theorem osOr {ε : Type} (err : ε → ReplayError) (call : Call ω ε α) :
    CallsOnly (osOr err call) := by
  refine ⟨fun os => ((call os).1.mapError err, (call os).2), ?_⟩
  intro w
  cases hcall : call w.os with
  | mk answer os' =>
    cases answer with
    | ok a => simp only [exec_osOr_ok hcall, hcall, Except.mapError]
    | error e => simp only [exec_osOr_error hcall, hcall, Except.mapError]

theorem bind {m : Method ω α} {g : α → Method ω β} (hm : CallsOnly m)
    (hg : ∀ a, CallsOnly (g a)) : CallsOnly (m >>= g) := by
  rcases hm with ⟨f, hf⟩
  choose k hk using hg
  refine ⟨fun os => match f os with
    | (.ok a, os') => k a os'
    | (.error e, os') => (.error e, os'), ?_⟩
  intro w
  have hfirst := hf w
  cases hcall : f w.os with
  | mk answer os' =>
    rw [hcall] at hfirst
    cases answer with
    | ok a => simp only [Run.bind_ok hfirst, hk, hcall]
    | error e => simp only [Run.bind_error hfirst, hcall]

/-- What such a method does to the system does not depend on the session. -/
theorem effect_eq {m : Method ω Unit} (h : CallsOnly m) {w w' : World ω} (hos : w.os = w'.os) :
    effect (Run.exec m w) = effect (Run.exec m w') := by
  rcases h with ⟨f, hf⟩
  simp only [hf, hos, effect, Option.map_some]

/-- What follows is about the session only, so it does not change that. -/
theorem effect_then {m k : Method ω Unit} (h : CallsOnly m) {w w' : World ω} {s : ReplaySession}
    (hk : ∀ os, Run.exec k { w with os } = some (.ok (), { session := s, os }))
    (hos : w.os = w'.os) :
    effect (Run.exec (m >>= fun _ => k) w) = effect (Run.exec m w') := by
  rw [← h.effect_eq hos]
  rcases h with ⟨f, hf⟩
  have hfirst := hf w
  cases hcall : f w.os with
  | mk answer os' =>
    rw [hcall] at hfirst
    cases answer with
    | ok a =>
      rw [Run.bind_ok hfirst, hfirst, hk]
      rfl
    | error e => rw [Run.bind_error hfirst, hfirst]

/-- The session that is left, once all of it went through. -/
theorem session_then {m k : Method ω Unit} (h : CallsOnly m) {w w' : World ω} {s : ReplaySession}
    (hk : ∀ os, Run.exec k { w with os } = some (.ok (), { session := s, os }))
    (hrun : Run.exec (m >>= fun _ => k) w = some (.ok (), w')) : w'.session = s := by
  rcases h with ⟨f, hf⟩
  rcases Run.bind_ok_inv hrun with ⟨_, u, hm, hrest⟩
  rw [hf] at hm
  rcases Prod.mk.inj (Option.some.inj hm) with ⟨-, rfl⟩
  rw [hk] at hrest
  rcases Prod.mk.inj (Option.some.inj hrest) with ⟨-, rfl⟩
  rfl

end CallsOnly

section Rule

variable (arch : Arch) [Ptrace arch ω]

/-! ## The rule -/

/-- At the entry stop: cancel the syscall if its result is fed from the trace. -/
def entryRule (pid : Pid) (enter : SyscallEnter) : Method ω Unit :=
  Run.when (injectionAddr arch enter.nr enter.args).isSome (Regs.suppressSyscall arch pid)

/-- At the exit stop of such a syscall: write the recorded bytes and set the recorded
return value. Any other syscall is left as it ran. -/
def exitRule (pid : Pid) (enter : SyscallEnter) (exit : SyscallExit) : Method ω Unit :=
  match injectionAddr arch enter.nr enter.args with
  | some addr => do
    writeMemory arch pid addr exit.data
    Regs.setReturn arch pid exit.ret
  | none => pure ()

/-- Look at the registers of the stop, then apply a rule. -/
def atStop (pid : Pid) (rule : Method ω Unit) : Method ω Unit := do
  let _ ← Regs.read arch pid
  rule

/-- The registers of the stopped tracee are those of the recorded entry. -/
def EnteredAs (os : ω) (pid : Pid) (enter : SyscallEnter) : Prop :=
  ∀ full os', Ptrace.getregs pid os = (.ok full, os') →
    (normalize arch full).nr = enter.nr ∧ (normalize arch full).args = enter.args

theorem suppressSyscall_callsOnly (pid : Pid) :
    CallsOnly (Regs.suppressSyscall arch pid : Method ω Unit) := by
  cases arch with
  | x86_64 => exact (CallsOnly.osOr _ _).bind fun regs => CallsOnly.osOr _ _
  | aarch64 => exact CallsOnly.osOr _ _

theorem entryRule_callsOnly (pid : Pid) (enter : SyscallEnter) :
    CallsOnly (entryRule arch pid enter : Method ω Unit) := by
  unfold entryRule Run.when
  split
  · exact suppressSyscall_callsOnly arch pid
  · exact CallsOnly.pure ()

theorem writeMemory_callsOnly (pid : Pid) (addr : UInt64) (data : Bytes) :
    CallsOnly (writeMemory arch pid addr data : Method ω Unit) := by
  unfold writeMemory
  split
  · exact CallsOnly.pure ()
  · apply (CallsOnly.osOr _ _).bind
    intro written
    split
    · exact CallsOnly.fail _
    · exact CallsOnly.pure ()

theorem setReturn_callsOnly (pid : Pid) (ret : Int64) :
    CallsOnly (Regs.setReturn arch pid ret : Method ω Unit) :=
  (CallsOnly.osOr _ _).bind fun _ => CallsOnly.osOr _ _

theorem exitRule_callsOnly (pid : Pid) (enter : SyscallEnter) (exit : SyscallExit) :
    CallsOnly (exitRule arch pid enter exit : Method ω Unit) := by
  unfold exitRule
  split
  · exact (writeMemory_callsOnly arch pid _ _).bind fun _ => setReturn_callsOnly arch pid _
  · exact CallsOnly.pure ()

/-! ## The recorder's table -/

/-- What the recorder captures is where the replayer injects. -/
theorem injectionAddr_of_region {nr : UInt64} {args : Args} {ret : Int64} {addr : UInt64}
    {len : Nat} (h : kernelWrittenRegion arch nr args ret = some (addr, len)) :
    injectionAddr arch nr args = some addr := by
  have hdistinct : Syscall.num arch .getrandom ≠ Syscall.num arch .clockGettime := by
    cases arch <;> decide
  unfold kernelWrittenRegion at h
  -- The kinds of calls are tried in the order of the source; the numbers are different on both
  -- architectures.
  split at h
  · rename_i hread
    rcases Prod.mk.inj (Option.some.inj h) with ⟨rfl, -⟩
    exact if_pos hread.1
  split at h
  · rename_i _ hrandom
    rcases Prod.mk.inj (Option.some.inj h) with ⟨rfl, -⟩
    have hother : ¬ (nr = Syscall.num arch .read ∨ nr = Syscall.num arch .pread64 ∨
        nr = Syscall.num arch .recvfrom) := by
      rw [hrandom.1]
      cases arch <;> decide
    exact (if_neg hother).trans (if_pos hrandom.1)
  split at h
  · rename_i _ _ hclock
    rcases Prod.mk.inj (Option.some.inj h) with ⟨rfl, -⟩
    have hother : ¬ (nr = Syscall.num arch .read ∨ nr = Syscall.num arch .pread64 ∨
        nr = Syscall.num arch .recvfrom) := by
      rw [hclock.1]
      cases arch <;> decide
    have hrandom : nr ≠ Syscall.num arch .getrandom := by
      rw [hclock.1]
      exact hdistinct.symm
    exact (if_neg hother).trans ((if_neg hrandom).trans (if_pos hclock.1))
  · cases h

/-- Where nothing is injected, nothing was captured. -/
theorem region_of_no_injection {nr : UInt64} {args : Args}
    (h : injectionAddr arch nr args = none) (ret : Int64) :
    kernelWrittenRegion arch nr args ret = none := by
  cases hregion : kernelWrittenRegion arch nr args ret with
  | none => rfl
  | some region =>
    rw [injectionAddr_of_region arch hregion] at h
    cases h

/-! ## The single-tracee driver -/

/-- The record that is consumed next. -/
def ReplaySession.Upcoming (s : ReplaySession) (record : Record) : Prop :=
  s.records[s.cursor + skipFrom (s.records.drop s.cursor)]? = some record

theorem exec_nextRecord {w : World ω} {record : Record} (h : w.session.Upcoming record) :
    Run.exec nextRecord w =
      some (.ok record, { w with session := { w.session with
        cursor := w.session.cursor + skipFrom (w.session.records.drop w.session.cursor) + 1 } }) := by
  simp only [nextRecord, skipCheckpoints, Run.exec_bind, exec_modifySelf, exec_self,
    show w.session.records[_]? = some record from h, Run.exec_pure]

/-- Reading the registers of a stop, either way. -/
theorem exec_regsRead (pid : Pid) (w : World ω) :
    (∃ full os', Ptrace.getregs pid w.os = (.ok full, os') ∧
      Run.exec (Regs.read arch pid) w = some (.ok (normalize arch full), { w with os := os' })) ∨
    ∃ e os', Run.exec (Regs.read arch pid) w = some (.error (.ptrace e), { w with os := os' }) := by
  cases hcall : @Ptrace.getregs arch ω _ pid w.os with
  | mk answer os' =>
    cases answer with
    | ok full =>
      refine .inl ⟨full, os', rfl, ?_⟩
      exact Run.bind_ok (exec_osOr_ok hcall)
    | error e =>
      refine .inr ⟨e, os', ?_⟩
      exact Run.bind_error (exec_osOr_error hcall)

/-- The entry handler, once the registers and the record are known. -/
theorem exec_onEntry {w : World ω} {record : Record} {enter : SyscallEnter} {regs : Registers}
    (hnext : w.session.Upcoming record) (hkind : record.event.kind = .syscallEnter)
    (hdecode : SyscallEnter.decode record.event.payload = .ok enter) (hnr : regs.nr = enter.nr)
    (hargs : regs.args = enter.args) :
    ∃ w₁ : World ω, w₁.os = w.os ∧ w₁.session.pid = w.session.pid ∧
      Run.exec (onEntry arch regs) w =
        Run.exec (entryRule arch w.session.pid enter >>= fun _ => modifySelf fun s =>
          { s with pending := some { injectAddr := injectionAddr arch enter.nr enter.args } }) w₁ := by
  refine ⟨{ w with session := { w.session with
    cursor := w.session.cursor + skipFrom (w.session.records.drop w.session.cursor) + 1
    currentSeq := some record.seq } }, rfl, rfl, ?_⟩
  rw [onEntry, Run.bind_ok (exec_nextRecord hnext)]
  simp only [hkind, hdecode]
  rw [Run.bind_ok (exec_orFail_ok _ enter _), if_neg (not_not.mpr hnr.symm), hnr, hargs]
  rfl

/-- A syscall stop, once it is known whether the syscall was entered before. -/
theorem exec_onSyscallStop_of_pending {w : World ω} {pending : Option Pending}
    (hpending : w.session.pending = pending) :
    Run.exec (onSyscallStop arch) w = Run.exec (do
      let regs ← Regs.read arch w.session.pid
      modifySelf fun s => { s with lastRegs := some regs, pending := none }
      pending.elim (onEntry arch regs) (onExit arch)) w := by
  rw [onSyscallStop, Run.bind_ok (exec_self w), hpending]
  cases pending with
  | none => rfl
  | some pending => rfl

/-- The entry stop of a syscall that the trace records next. -/
theorem onSyscallStop_entry {w : World ω} {record : Record} {enter : SyscallEnter}
    (hpending : w.session.pending = none) (hnext : w.session.Upcoming record)
    (hkind : record.event.kind = .syscallEnter)
    (hdecode : SyscallEnter.decode record.event.payload = .ok enter)
    (hregs : EnteredAs arch w.os w.session.pid enter) :
    effect (Run.exec (onSyscallStop arch) w) =
        effect (Run.exec (atStop arch w.session.pid (entryRule arch w.session.pid enter)) w) ∧
      ∀ w', Run.exec (onSyscallStop arch) w = some (.ok (), w') →
        w'.session.pid = w.session.pid ∧
        w'.session.pending = some { injectAddr := injectionAddr arch enter.nr enter.args } := by
  have hself := exec_onSyscallStop_of_pending arch hpending
  rcases exec_regsRead arch w.session.pid w with ⟨full, os', hcall, hread⟩ | ⟨e, os', hread⟩
  · rcases hregs full os' hcall with ⟨hnr, hargs⟩
    rcases @exec_onEntry _ arch _
      { session := { w.session with lastRegs := some (normalize arch full), pending := none }
        os := os' } _ _ _ hnext hkind hdecode hnr hargs with ⟨w₁, hos, hpid, hentry⟩
    have hstop : Run.exec (onSyscallStop arch) w = Run.exec (onEntry arch (normalize arch full))
        { session := { w.session with lastRegs := some (normalize arch full), pending := none }
          os := os' } := by
      rw [hself, Run.bind_ok hread]
      rfl
    -- After the rule only the session is written.
    have hupdate (os : ω) : Run.exec (modifySelf fun s : ReplaySession =>
          { s with pending := some { injectAddr := injectionAddr arch enter.nr enter.args } })
        { w₁ with os } = some (.ok (), { os, session := { w₁.session with
          pending := some { injectAddr := injectionAddr arch enter.nr enter.args } } }) := rfl
    rw [hstop, hentry]
    constructor
    · rw [atStop, Run.bind_ok hread]
      exact (entryRule_callsOnly arch _ enter).effect_then hupdate hos
    · intro w' hrun
      rw [(entryRule_callsOnly arch _ enter).session_then hupdate hrun]
      exact ⟨hpid, rfl⟩
  · rw [hself, Run.bind_error hread]
    constructor
    · rw [atStop, Run.bind_error hread]
    · intro w' hrun
      cases hrun

/-- The exit handler, once the record is known. -/
theorem exec_onExit {w : World ω} {record : Record} {enter : SyscallEnter} {exit : SyscallExit}
    (hnext : w.session.Upcoming record) (hkind : record.event.kind = .syscallExit)
    (hdecode : SyscallExit.decode record.event.payload = .ok exit) :
    ∃ w₁ : World ω, w₁.os = w.os ∧
      Run.exec (onExit arch { injectAddr := injectionAddr arch enter.nr enter.args }) w =
        Run.exec (exitRule arch w.session.pid enter exit) w₁ := by
  refine ⟨{ w with session := { w.session with
    cursor := w.session.cursor + skipFrom (w.session.records.drop w.session.cursor) + 1
    currentSeq := some record.seq } }, rfl, ?_⟩
  rw [onExit, Run.bind_ok (exec_nextRecord hnext)]
  simp only [hkind, hdecode, exitRule]
  cases injectionAddr arch enter.nr enter.args with
  | none => rfl
  | some addr => rfl

/-- The exit stop of a syscall whose entry the driver has seen. -/
theorem onSyscallStop_exit {w : World ω} {record : Record} {enter : SyscallEnter}
    {exit : SyscallExit}
    (hpending : w.session.pending =
      some { injectAddr := injectionAddr arch enter.nr enter.args })
    (hnext : w.session.Upcoming record) (hkind : record.event.kind = .syscallExit)
    (hdecode : SyscallExit.decode record.event.payload = .ok exit) :
    effect (Run.exec (onSyscallStop arch) w) =
      effect (Run.exec (atStop arch w.session.pid (exitRule arch w.session.pid enter exit)) w) := by
  have hself := exec_onSyscallStop_of_pending arch hpending
  rcases exec_regsRead arch w.session.pid w with ⟨full, os', -, hread⟩ | ⟨e, os', hread⟩
  · rcases @exec_onExit _ arch _
      { session := { w.session with lastRegs := some (normalize arch full), pending := none }
        os := os' } _ enter _ hnext hkind hdecode with ⟨w₁, hos, hexit⟩
    have hstop : Run.exec (onSyscallStop arch) w = Run.exec (onExit arch
          { injectAddr := injectionAddr arch enter.nr enter.args })
        { session := { w.session with lastRegs := some (normalize arch full), pending := none }
          os := os' } := by
      rw [hself, Run.bind_ok hread]
      rfl
    rw [hstop, hexit, atStop, Run.bind_ok hread]
    exact (exitRule_callsOnly arch _ enter exit).effect_eq hos
  · rw [hself, Run.bind_error hread, atStop, Run.bind_error hread]

/-! ## The multi-threaded driver -/

variable [Unwind ω]

/-- The thread a record is tagged with, resumed with `signal`, runs to its next stop. -/
def Mt.approach (record : Record) (signal : Pid → Method ω (Option Signal)) :
    Method ω (Pid × WaitStatus) := do
  let tid ← Mt.enforceTid record
  let live ← Mt.liveFor tid record.seq
  let sig ← signal live
  let status ← Mt.stepThread arch live sig
  pure (live, status)

/-- The steps of an approach that returned. -/
theorem Mt.approach_inv {record : Record} {signal : Pid → Method ω (Option Signal)}
    {w w' : World ω} {live : Pid} {status : WaitStatus}
    (h : Run.exec (Mt.approach arch record signal) w = some (.ok (live, status), w')) :
    ∃ tid u v sig x, Run.exec (Mt.enforceTid record) w = some (.ok tid, u) ∧
      Run.exec (Mt.liveFor tid record.seq) u = some (.ok live, v) ∧
      Run.exec (signal live) v = some (.ok sig, x) ∧
      Run.exec (Mt.stepThread arch live sig) x = some (.ok status, w') := by
  rcases Run.bind_ok_inv h with ⟨tid, u, htid, h⟩
  rcases Run.bind_ok_inv h with ⟨live', v, hlive, h⟩
  rcases Run.bind_ok_inv h with ⟨sig, x, hsig, h⟩
  rcases Run.bind_ok_inv h with ⟨status', y, hstep, h⟩
  rcases Prod.mk.inj (Option.some.inj h) with ⟨hanswer, rfl⟩
  rcases Prod.mk.inj (Except.ok.inj hanswer) with ⟨rfl, rfl⟩
  exact ⟨tid, u, v, sig, x, htid, hlive, hsig, hstep⟩

/-- Handling an entry record starts with the approach of its thread. -/
theorem exec_onSyscallEnter {record : Record} {w w₁ : World ω} {live p : Pid}
    (h : Run.exec (Mt.approach arch record Mt.takeResumeSignal) w =
      some (.ok (live, .ptraceSyscall p), w₁)) :
    Run.exec (Mt.onSyscallEnter arch record) w = Run.exec (do
      let regs ← Regs.read arch live
      modifySelf fun s => { s with lastRegs := some regs }
      let enter ← orFail .payload (SyscallEnter.decode record.event.payload)
      if enter.nr ≠ regs.nr then Run.fail (.diverged record.seq enter.nr regs.nr)
      else do
        let pending := Mt.classify arch regs.nr regs.args
        Run.when pending.suppressed (Regs.suppressSyscall arch live)
        Mt.setPending live (some pending)
        Mt.advance record.seq) w₁ := by
  rcases Mt.approach_inv arch h with ⟨tid, u, v, sig, x, htid, hlive, hsig, hstep⟩
  rw [Mt.onSyscallEnter, Run.bind_ok htid, Run.bind_ok hlive, Run.bind_ok hsig,
    Run.bind_ok hstep]

/-- So does handling an exit record; no signal is delivered there. -/
theorem exec_onSyscallExit {record : Record} {w w₁ : World ω} {live p : Pid}
    (h : Run.exec (Mt.approach arch record fun _ => pure none) w =
      some (.ok (live, .ptraceSyscall p), w₁)) :
    ∃ tid : UInt32, Run.exec (Mt.onSyscallExit arch record) w = Run.exec (do
      let regs ← Regs.read arch live
      modifySelf fun s => { s with lastRegs := some regs }
      let exit ← orFail .payload (SyscallExit.decode record.event.payload)
      match ← Mt.takePending live with
      | none =>
        Run.fail (.scheduleDiverged record.seq
          s!"syscall-exit for recorded tid {tid} with no matching entry")
      | some pending => do
        Mt.injectResult arch live pending exit
        Mt.advance record.seq) w₁ := by
  rcases Mt.approach_inv arch h with ⟨tid, u, v, sig, x, htid, hlive, hsig, hstep⟩
  rcases Prod.mk.inj (Option.some.inj hsig) with ⟨hnone, rfl⟩
  rcases Except.ok.inj hnone with rfl
  refine ⟨tid, ?_⟩
  exact (Run.bind_ok htid).trans ((Run.bind_ok hlive).trans (Run.bind_ok hstep))

omit [Ptrace arch ω] [Unwind ω] in
/-- Taking up a signal keeps the thread found. -/
theorem takeResumeSignal_atLive {s₀ : ReplaySession} {record : Record} {tid : UInt32} {live : Pid} :
    KeepsSession (AtLive s₀ record tid live)
      (Mt.takeResumeSignal live : Method ω (Option Signal)) := by
  refine Keeps.bind state_keeps fun mt => ?_
  refine Keeps.bind (modifyState_spec ?_) fun _ => Keeps.pure
  intro s mt hat hmt
  exact hat.modifyThread hmt _

/-- An approach ends at the thread the record names, with the threads as `signal` leaves
them. -/
theorem Mt.approach_ends {record : Record} {signal : Pid → Method ω (Option Signal)}
    {w w₁ : World ω} {live : Pid} {status : WaitStatus} {P : UInt32 → ReplaySession → Prop}
    (hdriven : Driven w.session) (here : w.session.records[w.session.cursor]? = some record)
    (hconcrete : isConcrete record = true) (hits : ∀ tid, IgnoresHits (P tid))
    (hsignal : ∀ tid, Spec (On fun s => AtLive w.session record tid live s ∧
      SameThreads w.session s) (signal live) (fun _ => On (P tid)) (fun _ _ => True))
    (h : Run.exec (Mt.approach arch record signal) w = some (.ok (live, status), w₁)) :
    ∃ tid, P tid w₁.session := by
  rcases Mt.approach_inv arch h with ⟨tid, u, v, sig, x, htid, hlive, hsig, hstep⟩
  refine ⟨tid, ?_⟩
  have hfound := (enforceTid_finds hdriven here hconcrete).ok rfl htid
  have hat := (liveFor_finds record.seq).ok hfound hlive
  have hsignaled := (hsignal tid).ok hat hsig
  exact (stepThread_keeps arch (hits tid) live sig).ok hsignaled hstep

/-- The thread at hand is one the driver follows. -/
theorem AtLive.thread {s₀ s : ReplaySession} {record : Record} {tid : UInt32} {live : Pid}
    (h : AtLive s₀ record tid live s) :
    ∃ mt thread, s.mt = some mt ∧ mt.threads[live]? = some thread := by
  obtain ⟨mt, hmt⟩ := h.state
  have hbinds : mt.tidmap.Binds live := ⟨tid, h.bound mt hmt⟩
  have hfollows := ((h.followed mt hmt).exact (.inl hbinds.notEmpty) live).mpr hbinds
  obtain ⟨thread, hthread⟩ := Option.isSome_iff_exists.mp hfollows
  exact ⟨mt, thread, hmt, hthread⟩

omit [Ptrace arch ω] [Unwind ω] in
/-- Storing the syscall in flight on a followed thread, and going past the record. -/
theorem exec_setPending {s : ReplaySession} {mt : MtState} {thread : ThreadRt} {live : Pid}
    {pending : PendingSys} {seq : UInt64} (hmt : s.mt = some mt)
    (hthread : mt.threads[live]? = some thread) :
    ∃ s', s'.pendingOf live = some pending ∧ ∀ os : ω,
      Run.exec (do
        Mt.setPending live (some pending)
        Mt.advance seq : Method ω Unit) { session := s, os } =
          some (.ok (), { session := s', os }) := by
  refine ⟨{ s with
    mt := some { mt with threads := mt.threads.insert live { thread with pending := some pending } }
    currentSeq := some seq
    cursor := s.cursor + 1 }, ?_, ?_⟩
  · simp [ReplaySession.pendingOf]
  · intro os
    simp only [Mt.setPending, Mt.modifyState, Mt.state, Mt.advance, Run.exec_bind, exec_self, hmt,
      Run.exec_pure, exec_modifySelf, Mt.MtState.modifyThread, hthread]

/-- The entry stop of a syscall whose record is at the cursor. -/
theorem onSyscallEnter_entry {record : Record} {enter : SyscallEnter} {w w₁ : World ω}
    {live p : Pid} (hdriven : Driven w.session)
    (here : w.session.records[w.session.cursor]? = some record)
    (hkind : record.event.kind = .syscallEnter)
    (hdecode : SyscallEnter.decode record.event.payload = .ok enter)
    (happroach : Run.exec (Mt.approach arch record Mt.takeResumeSignal) w =
      some (.ok (live, .ptraceSyscall p), w₁))
    (hregs : EnteredAs arch w₁.os live enter) :
    effect (Run.exec (Mt.onSyscallEnter arch record) w) =
        effect (Run.exec (atStop arch live (entryRule arch live enter)) w₁) ∧
      ∀ w', Run.exec (Mt.onSyscallEnter arch record) w = some (.ok (), w') →
        w'.session.pendingOf live = some (Mt.classify arch enter.nr enter.args) := by
  have hconcrete : isConcrete record = true := by simp [isConcrete, hkind]
  obtain ⟨tid, hat⟩ := Mt.approach_ends arch hdriven here hconcrete
    (fun tid => AtLive.ignoresHits w.session record tid live)
    (fun tid => takeResumeSignal_atLive.mono (fun _ h => h.1) (fun _ _ h => h)
      fun _ _ _ => trivial) happroach
  obtain ⟨mt, thread, hmt, hthread⟩ := hat.thread
  -- The driver cancels the call exactly where there is an address to inject at.
  have hclassify : (Mt.classify arch enter.nr enter.args).suppressed =
      (injectionAddr arch enter.nr enter.args).isSome := by
    unfold Mt.classify
    cases injectionAddr arch enter.nr enter.args <;> rfl
  rw [exec_onSyscallEnter arch happroach]
  rcases exec_regsRead arch live w₁ with ⟨full, os', hcall, hread⟩ | ⟨e, os', hread⟩
  · rcases hregs full os' hcall with ⟨hnr, hargs⟩
    obtain ⟨s', hpending, hstore⟩ := @exec_setPending ω
      { w₁.session with lastRegs := some (normalize arch full) } mt thread live
      (Mt.classify arch enter.nr enter.args) record.seq hmt hthread
    rw [Run.bind_ok hread, Run.bind_ok (exec_modifySelf _ _), hdecode,
      Run.bind_ok (exec_orFail_ok _ enter _), if_neg (not_not.mpr hnr.symm), hnr, hargs]
    simp only [hclassify]
    constructor
    · rw [atStop, Run.bind_ok hread]
      exact (entryRule_callsOnly arch live enter).effect_then hstore rfl
    · intro w' hrun
      rw [(entryRule_callsOnly arch live enter).session_then hstore hrun]
      exact hpending
  · rw [Run.bind_error hread]
    constructor
    · rw [atStop, Run.bind_error hread]
    · intro w' hrun
      cases hrun

omit [Unwind ω] in
/-- Feeding the result of a classified syscall back is the rule at its exit. -/
theorem injectResult_classify (live : Pid) (enter : SyscallEnter) (exit : SyscallExit) :
    (Mt.injectResult arch live (Mt.classify arch enter.nr enter.args) exit : Method ω Unit) =
      exitRule arch live enter exit := by
  unfold Mt.injectResult Mt.classify exitRule
  cases injectionAddr arch enter.nr enter.args <;> rfl

omit [Ptrace arch ω] [Unwind ω] in
/-- Taking the syscall in flight off its thread. -/
theorem exec_takePending {w : World ω} {live : Pid} {pending : PendingSys}
    (h : w.session.pendingOf live = some pending) :
    ∃ s', Run.exec (Mt.takePending live) w = some (.ok (some pending), { w with session := s' }) := by
  obtain ⟨mt, hmt, hthread⟩ := Option.bind_eq_some_iff.mp h
  simp only [Mt.takePending, Mt.modifyState, Mt.state, Run.exec_bind, exec_self, hmt,
    Run.exec_pure, exec_modifySelf, hthread]
  exact ⟨_, rfl⟩

omit [Unwind ω] in
/-- The threads are the same, and so is the syscall in flight on one of them. -/
theorem SameThreads.pendingOf {s₀ s : ReplaySession} (h : SameThreads s₀ s) (p : Pid) :
    s.pendingOf p = s₀.pendingOf p := by
  have hbind (t : ReplaySession) : t.pendingOf p =
      (t.mt.map MtState.threads).bind fun threads => (threads[p]?).bind ThreadRt.pending := by
    unfold ReplaySession.pendingOf
    cases t.mt <;> rfl
  rw [hbind, hbind, h]

/-- The exit stop of a syscall in flight whose record is at the cursor. -/
theorem onSyscallExit_exit {record : Record} {enter : SyscallEnter} {exit : SyscallExit}
    {w w₁ : World ω} {live p : Pid} (hdriven : Driven w.session)
    (here : w.session.records[w.session.cursor]? = some record)
    (hkind : record.event.kind = .syscallExit)
    (hdecode : SyscallExit.decode record.event.payload = .ok exit)
    (happroach : Run.exec (Mt.approach arch record fun _ => pure none) w =
      some (.ok (live, .ptraceSyscall p), w₁))
    (hpending : w.session.pendingOf live = some (Mt.classify arch enter.nr enter.args)) :
    effect (Run.exec (Mt.onSyscallExit arch record) w) =
      effect (Run.exec (atStop arch live (exitRule arch live enter exit)) w₁) := by
  have hconcrete : isConcrete record = true := by simp [isConcrete, hkind]
  obtain ⟨tid, -, hsame⟩ := Mt.approach_ends arch hdriven here hconcrete
    (fun tid => AtLive.sameIgnoresHits w.session record tid live)
    (fun tid => by exact Spec.pure fun _ h => h) happroach
  obtain ⟨tid, hexit⟩ := exec_onSyscallExit arch happroach
  rw [hexit]
  rcases exec_regsRead arch live w₁ with ⟨full, os', -, hread⟩ | ⟨e, os', hread⟩
  · -- The call noted at the entry is still there at the exit.
    have hflight : ({ w₁.session with lastRegs := some (normalize arch full) } :
        ReplaySession).pendingOf live = some (Mt.classify arch enter.nr enter.args) :=
      (hsame.pendingOf live).trans hpending
    obtain ⟨s', htake⟩ := @exec_takePending ω
      { session := { w₁.session with lastRegs := some (normalize arch full) }, os := os' }
      live _ hflight
    rw [Run.bind_ok hread, Run.bind_ok (exec_modifySelf _ _), hdecode,
      Run.bind_ok (exec_orFail_ok _ exit _), Run.bind_ok htake, atStop, Run.bind_ok hread]
    simp only [injectResult_classify]
    refine (exitRule_callsOnly arch live enter exit).effect_then
      (s := { s' with currentSeq := some record.seq, cursor := s'.cursor + 1 }) ?_ rfl
    exact fun os => rfl
  · rw [Run.bind_error hread, atStop, Run.bind_error hread]

end Rule

/-! ## Recorder and drivers together -/

section Together

variable (arch : Arch) [Ptrace arch ω] [Unwind ω]

/-- Recorder and drivers follow one rule for a recorded syscall. -/
structure OneRule (enter : SyscallEnter) (exit : SyscallExit) : Prop where
  /-- What is captured is captured where it is injected. -/
  captured : ∀ ret addr len, kernelWrittenRegion arch enter.nr enter.args ret = some (addr, len) →
    injectionAddr arch enter.nr enter.args = some addr
  /-- Where nothing is injected nothing is captured, whatever the syscall returned. -/
  uncaptured : injectionAddr arch enter.nr enter.args = none →
    ∀ ret, kernelWrittenRegion arch enter.nr enter.args ret = none
  /-- The single-tracee driver at the entry stop. -/
  onEntry : ∀ (w : World ω) (record : Record), w.session.pending = none →
    w.session.Upcoming record → record.event.kind = .syscallEnter →
    SyscallEnter.decode record.event.payload = .ok enter →
    EnteredAs arch w.os w.session.pid enter →
    effect (Run.exec (onSyscallStop arch) w) =
        effect (Run.exec (atStop arch w.session.pid (entryRule arch w.session.pid enter)) w) ∧
      ∀ w', Run.exec (onSyscallStop arch) w = some (.ok (), w') →
        w'.session.pid = w.session.pid ∧
        w'.session.pending = some { injectAddr := injectionAddr arch enter.nr enter.args }
  /-- The single-tracee driver at the exit stop. -/
  onExit : ∀ (w : World ω) (record : Record),
    w.session.pending = some { injectAddr := injectionAddr arch enter.nr enter.args } →
    w.session.Upcoming record → record.event.kind = .syscallExit →
    SyscallExit.decode record.event.payload = .ok exit →
    effect (Run.exec (onSyscallStop arch) w) =
      effect (Run.exec (atStop arch w.session.pid (exitRule arch w.session.pid enter exit)) w)
  /-- The multi-threaded driver at the entry stop it ran the thread to. -/
  onSyscallEnter : ∀ (w w₁ : World ω) (record : Record) (live p : Pid), Driven w.session →
    w.session.records[w.session.cursor]? = some record → record.event.kind = .syscallEnter →
    SyscallEnter.decode record.event.payload = .ok enter →
    Run.exec (Mt.approach arch record Mt.takeResumeSignal) w =
      some (.ok (live, .ptraceSyscall p), w₁) →
    EnteredAs arch w₁.os live enter →
    effect (Run.exec (Mt.onSyscallEnter arch record) w) =
        effect (Run.exec (atStop arch live (entryRule arch live enter)) w₁) ∧
      ∀ w', Run.exec (Mt.onSyscallEnter arch record) w = some (.ok (), w') →
        w'.session.pendingOf live = some (Mt.classify arch enter.nr enter.args)
  /-- The multi-threaded driver at the exit stop it ran the thread to. -/
  onSyscallExit : ∀ (w w₁ : World ω) (record : Record) (live p : Pid), Driven w.session →
    w.session.records[w.session.cursor]? = some record → record.event.kind = .syscallExit →
    SyscallExit.decode record.event.payload = .ok exit →
    Run.exec (Mt.approach arch record fun _ => pure none) w =
      some (.ok (live, .ptraceSyscall p), w₁) →
    w.session.pendingOf live = some (Mt.classify arch enter.nr enter.args) →
    effect (Run.exec (Mt.onSyscallExit arch record) w) =
      effect (Run.exec (atStop arch live (exitRule arch live enter exit)) w₁)

/-- The recorder's table, the single-tracee driver and the multi-threaded driver agree on
every syscall, argument vector and result. -/
theorem one_injection_rule (enter : SyscallEnter) (exit : SyscallExit) :
    @OneRule ω arch _ _ enter exit where
  captured _ _ _ h := injectionAddr_of_region arch h
  uncaptured h := region_of_no_injection arch h
  onEntry _ _ hpending hnext hkind hdecode hregs :=
    onSyscallStop_entry arch hpending hnext hkind hdecode hregs
  onExit _ _ hpending hnext hkind hdecode :=
    onSyscallStop_exit arch hpending hnext hkind hdecode
  onSyscallEnter _ _ _ _ _ hdriven here hkind hdecode happroach hregs :=
    onSyscallEnter_entry arch hdriven here hkind hdecode happroach hregs
  onSyscallExit _ _ _ _ _ hdriven here hkind hdecode happroach hpending :=
    onSyscallExit_exit arch hdriven here hkind hdecode happroach hpending

end Together

end Mirrorscope.Replay
