import Mirrorscope.Linux.Journal
import Mirrorscope.Replay.Frame

/-! # What the replayer writes into the journal

In a system that keeps a journal, every part of the driver is known by the entries
it writes: most write none, and what steps a thread writes of that thread only.

`Writes J m` bounds the entries of `m` from above, whatever the session holds; `Silent m` is
the case of none. The order of the entries matters at one place only:
* `Stopped p es status`: since `es` the journal is about `p`, and it ends with the stop
  `status`.
* `stepThread_writes`: after `step_thread` it is so.
-/

namespace Mirrorscope.Replay

open Capture Linux Run
open Trace (EventKind Record)

variable {ω : Type}

instance [Unwind ω] : Unwind (Journal ω) where
  forPid pid := Journal.silent (Unwind.forPid pid)
  registers pid := Journal.silent (Unwind.registers pid)
  backtrace pid pc := Journal.silent (Unwind.backtrace pid pc)

/-! ## What is written into the journal -/

/-- The journal was extended by entries with `J`. -/
def Extended (J : Entry → Prop) (es : List Entry) (w : World (Journal ω)) : Prop :=
  ∃ new, w.os.entries = es ++ new ∧ ∀ e ∈ new, J e

/-- The method only writes entries with `J`, however it ends. -/
def Writes {α : Type} (J : Entry → Prop) (m : Method (Journal ω) α) : Prop :=
  ∀ es, Keeps (Extended J es) m

/-- The method writes nothing. -/
abbrev Silent {α : Type} (m : Method (Journal ω) α) : Prop := Writes (fun _ => False) m

namespace Writes

variable {α β ε : Type} {J J' : Entry → Prop}

theorem mono {m : Method (Journal ω) α} (h : Writes J m) (hJ : ∀ e, J e → J' e) : Writes J' m := by
  intro es w hw r w' hexec
  -- what was there before is the journal up to now, what is new has `J`
  have hpost := h w.os.entries w ⟨[], (List.append_nil _).symm, by simp⟩ r w' hexec
  have hextended : Extended J' es w' := by
    obtain ⟨old, hold, hall⟩ := hw
    have hnew : Extended J w.os.entries w' := by
      cases r with
      | ok a => exact hpost
      | error e => exact hpost
    obtain ⟨new, hnew, hall'⟩ := hnew
    refine ⟨old ++ new, by rw [hnew, hold, List.append_assoc], ?_⟩
    intro e he
    rcases List.mem_append.mp he with he | he
    · exact hall e he
    · exact hJ e (hall' e he)
  cases r with
  | ok a => exact hextended
  | error e => exact hextended

theorem pure {a : α} : Writes J (pure a : Method (Journal ω) α) := fun _ => Keeps.pure

theorem fail {e : ReplayError} : Writes J (Run.fail e : Method (Journal ω) α) := fun _ => Keeps.fail

theorem never : Writes J (Run.never : Method (Journal ω) α) := fun _ => Keeps.never

theorem bind {m : Method (Journal ω) α} {f : α → Method (Journal ω) β} (hm : Writes J m)
    (hf : ∀ a, Writes J (f a)) : Writes J (m >>= f) := fun es => Keeps.bind (hm es) fun a => hf a es

theorem when {c : Bool} {m : Method (Journal ω) Unit} (hm : Writes J m) :
    Writes J (Run.when c m) := fun es => Keeps.when (hm es)

theorem loop {body : Method (Journal ω) (Option α)} (h : Writes J body) :
    Writes J (Run.loop body) := fun es => Keeps.loop (h es)

theorem self : Writes J (Replay.self : Method (Journal ω) ReplaySession) := by
  intro es w hw r w' hexec
  rcases Prod.mk.inj (Option.some.inj hexec) with ⟨rfl, rfl⟩
  exact hw

theorem modifySelf {f : ReplaySession → ReplaySession} :
    Writes J (Replay.modifySelf f : Method (Journal ω) Unit) := by
  intro es w hw r w' hexec
  rcases Prod.mk.inj (Option.some.inj hexec) with ⟨rfl, rfl⟩
  exact hw

theorem orFail {err : ε → ReplayError} {x : Except ε α} :
    Writes J (Replay.orFail err x : Method (Journal ω) α) := by
  cases x with
  | ok a => exact pure
  | error e => exact fail

/-- A call that notes its answer writes what it notes of it. -/
theorem noting {err : ε → ReplayError} {note : Except ε α → List Entry} {call : Call ω ε α}
    (hnote : ∀ answer, ∀ e ∈ note answer, J e) : Writes J (osOr err (Journal.noting note call)) := by
  intro es w hw r w' hexec
  have hextended : Extended J es w' := by
    obtain ⟨old, hold, hall⟩ := hw
    obtain ⟨answer, hentries⟩ : ∃ answer, w'.os.entries = w.os.entries ++ note answer := by
      rcases exec_osOr_inv hexec with ⟨a, os', hcall, -, rfl⟩ | ⟨e, os', hcall, -, rfl⟩
      · exact ⟨_, Journal.noting_inv hcall⟩
      · exact ⟨_, Journal.noting_inv hcall⟩
    refine ⟨old ++ note answer, by rw [hentries, hold, List.append_assoc], ?_⟩
    intro e he
    rcases List.mem_append.mp he with he | he
    · exact hall e he
    · exact hnote _ e he
  cases r with
  | ok a => exact hextended
  | error e => exact hextended

/-- A call outside the journal writes nothing. -/
theorem silent {err : ε → ReplayError} {call : Call ω ε α} :
    Writes J (osOr err (Journal.silent call)) := by
  intro es w hw r w' hexec
  have hentries : w'.os.entries = w.os.entries := by
    rcases exec_osOr_inv hexec with ⟨a, os', hcall, -, rfl⟩ | ⟨e, os', hcall, -, rfl⟩
    · exact Journal.silent_inv hcall
    · exact Journal.silent_inv hcall
  have hextended : Extended J es w' := by
    obtain ⟨old, hold, hall⟩ := hw
    exact ⟨old, hentries.trans hold, hall⟩
  cases r with
  | ok a => exact hextended
  | error e => exact hextended

end Writes

/-! ## The parts of the driver -/

section Parts

variable {J : Entry → Prop} {arch : Arch}

theorem state_writes : Writes J (Mt.state : Method (Journal ω) MtState) := by
  refine Writes.bind Writes.self fun s => ?_
  split
  · exact Writes.pure
  · exact Writes.never

theorem modifyState_writes {f : MtState → MtState} :
    Writes J (Mt.modifyState f : Method (Journal ω) Unit) :=
  Writes.bind state_writes fun _ => Writes.modifySelf

theorem enforceTid_writes (record : Record) :
    Writes J (Mt.enforceTid record : Method (Journal ω) UInt32) := by
  unfold Mt.enforceTid
  split
  · exact Writes.fail
  refine Writes.bind state_writes fun mt => ?_
  split
  · exact Writes.bind modifyState_writes fun _ => Writes.pure
  · split
    · exact Writes.pure
    · exact Writes.fail

theorem liveFor_writes (tid : UInt32) (seq : UInt64) :
    Writes J (Mt.liveFor tid seq : Method (Journal ω) Pid) := by
  refine Writes.bind state_writes fun mt => ?_
  split
  · exact Writes.pure
  split
  · exact Writes.bind Writes.orFail fun _ => Writes.bind modifyState_writes fun _ => Writes.pure
  · exact Writes.fail

variable [Ptrace arch ω]

/-- Reading the registers enters them, if they are read. -/
theorem read_writes {p : Pid} (hJ : ∀ regs, J (.registers p regs)) :
    Writes J (Regs.read arch p : Method (Journal ω) Registers) := by
  refine Writes.bind (Writes.noting ?_) fun _ => Writes.pure
  intro answer e he
  cases answer with
  | error err => cases he
  | ok regs =>
    rcases List.mem_singleton.mp he with rfl
    exact hJ _

theorem getregs_writes {p : Pid} (hJ : ∀ regs, J (.registers p regs)) :
    Writes J (Regs.saveFull arch p : Method (Journal ω) (FullRegs arch)) := by
  refine Writes.noting ?_
  intro answer e he
  cases answer with
  | error err => cases he
  | ok regs =>
    rcases List.mem_singleton.mp he with rfl
    exact hJ _

/-- A wait enters the status it answers with, and no failure. -/
theorem wait_writes {p : Pid} {flags : WaitFlags} (hJ : ∀ status, J (.waited p status)) :
    Writes J (os (Ptrace.waitpid arch p flags) : Method (Journal ω) WaitStatus) := by
  refine Writes.noting ?_
  intro answer e he
  cases answer with
  | error err => cases he
  | ok status =>
    rcases List.mem_singleton.mp he with rfl
    exact hJ _

/-- On x86-64 the registers are read for it; on arm64 the number is written alone. -/
theorem suppressSyscall_writes {p : Pid} (hJ : ∀ regs, J (.registers p regs)) :
    Writes J (Regs.suppressSyscall arch p : Method (Journal ω) Unit) := by
  unfold Regs.suppressSyscall
  split
  · exact Writes.bind (getregs_writes hJ) fun _ => Writes.silent
  · exact Writes.silent

theorem setReturn_writes {p : Pid} (hJ : ∀ regs, J (.registers p regs)) (ret : Int64) :
    Writes J (Regs.setReturn arch p ret : Method (Journal ω) Unit) :=
  Writes.bind (getregs_writes hJ) fun _ => Writes.silent

theorem writeMemory_writes (p : Pid) (addr : UInt64) (data : Bytes) :
    Writes J (writeMemory arch p addr data : Method (Journal ω) Unit) := by
  unfold writeMemory
  split
  · exact Writes.pure
  · refine Writes.bind Writes.silent fun written => ?_
    split
    · exact Writes.fail
    · exact Writes.pure

/-- Debug registers are not in the journal. -/
theorem arm_writes (p : Pid) (addr : UInt64) (len : UInt8) (kind : WatchKind) :
    Writes J (WatchHw.arm arch p addr len kind : Method (Journal ω) Unit) := by
  unfold WatchHw.arm
  split
  · exact Writes.bind Writes.orFail fun _ => Writes.bind Writes.silent fun _ => Writes.silent
  · exact Writes.bind Writes.orFail fun _ => Writes.silent

theorem disarm_writes (p : Pid) : Writes J (WatchHw.disarm arch p : Method (Journal ω) Unit) := by
  unfold WatchHw.disarm
  split
  · exact Writes.silent
  · exact Writes.silent

theorem isWatchHit_writes (p : Pid) : Writes J (isWatchHit arch p : Method (Journal ω) Bool) := by
  refine Writes.bind Writes.self fun s => ?_
  split
  · exact Writes.pure
  · exact Writes.bind Writes.silent fun _ => Writes.pure

theorem injectResult_writes {p : Pid} (hJ : ∀ regs, J (.registers p regs)) (pending : PendingSys)
    (exit : SyscallExit) :
    Writes J (Mt.injectResult arch p pending exit : Method (Journal ω) Unit) := by
  refine Writes.when ?_
  split
  · exact Writes.bind (writeMemory_writes p _ _) fun _ => setReturn_writes hJ _
  · exact setReturn_writes hJ _

/-- A new task enters the journal by its first stop. -/
theorem registerChild_writes {child : Pid} (hJ : ∀ status, J (.waited child status))
    (seq : UInt64) : Writes J (Mt.registerChild arch child seq : Method (Journal ω) Unit) := by
  refine Writes.bind (wait_writes hJ) fun status => ?_
  split
  · exact Writes.silent
  · exact Writes.silent
  · exact Writes.fail

omit [Ptrace arch ω] in
theorem bindChild_writes (seq : UInt64) (childTid : UInt32) (child parent : Pid) (vforked : Bool) :
    Writes J (Mt.bindChild seq childTid child parent vforked : Method (Journal ω) Unit) :=
  Writes.bind state_writes fun _ => Writes.bind Writes.orFail fun _ => modifyState_writes

theorem armChild_writes (child : Pid) :
    Writes J (Mt.armChild arch child : Method (Journal ω) Unit) := by
  refine Writes.bind Writes.self fun s => ?_
  split
  · exact arm_writes _ _ _ _
  · exact Writes.pure

omit [Ptrace arch ω] in
/-- A backtrace is taken without the journal. -/
theorem captureBacktrace_writes [Unwind ω] (p : Pid) :
    Writes J (captureBacktrace p : Method (Journal ω) (UInt64 × List SymbolizedFrame)) := by
  refine Writes.bind Writes.self fun s => ?_
  refine Writes.bind Writes.modifySelf fun _ => ?_
  refine Writes.bind ?_ fun unwinder => ?_
  · unfold unwinderFor
    split
    · exact Writes.pure
    · exact Writes.bind Writes.silent fun _ => Writes.pure
  refine Writes.bind Writes.silent fun pc => ?_
  refine Writes.bind Writes.silent fun frames => ?_
  exact Writes.bind Writes.modifySelf fun _ => Writes.pure

/-- Servicing a watchpoint hit steps the thread that made it, and no other. -/
theorem onWatchHit_writes [Unwind ω] (p : Pid) :
    Writes (Entry.Of p) (onWatchHit arch p : Method (Journal ω) Unit) := by
  refine Writes.bind Writes.self fun s => ?_
  split
  · exact Writes.pure
  refine Writes.bind (captureBacktrace_writes p) fun trace => ?_
  refine Writes.bind ?_ fun _ => ?_
  · unfold stepOverWatch
    split
    · exact Writes.silent
    · -- On arm64 the watchpoint is off while the instruction is stepped.
      refine Writes.bind Writes.self fun s => ?_
      split
      · exact Writes.pure
      refine Writes.bind (disarm_writes p) fun _ => ?_
      refine Writes.bind (Writes.noting ?_) fun _ => ?_
      · intro answer e he
        rcases List.mem_singleton.mp he with rfl
        rfl
      refine Writes.bind (wait_writes fun _ => rfl) fun status => ?_
      split
      · exact arm_writes _ _ _ _
      · exact Writes.fail
  · exact Writes.bind (Writes.bind Writes.silent fun _ => Writes.pure) fun _ => Writes.modifySelf

/-! ## Stepping a thread -/

/-- The journal since `es` is about thread `p`, and ends with the stop of it. -/
def Stopped (p : Pid) (es : List Entry) (status : WaitStatus) (w : World (Journal ω)) : Prop :=
  ∃ new, w.os.entries = es ++ new ++ [.waited p status] ∧ ∀ e ∈ new, e.Of p

/-- The final stop is an entry about the thread, too. -/
theorem Stopped.extended {p : Pid} {es : List Entry} {status : WaitStatus} {w : World (Journal ω)}
    (h : Stopped p es status w) : Extended (Entry.Of p) es w := by
  obtain ⟨new, hentries, hall⟩ := h
  refine ⟨new ++ [.waited p status], by rw [hentries, List.append_assoc], ?_⟩
  intro e he
  rcases List.mem_append.mp he with he | he
  · exact hall e he
  · rcases List.mem_singleton.mp he with rfl
    rfl

/-- The journal is just `es`. -/
theorem extended_self (J : Entry → Prop) (w : World (Journal ω)) :
    Extended J w.os.entries w := ⟨[], (List.append_nil _).symm, by simp⟩

/-- A silent method leaves the journal as it is. -/
theorem Silent.entries {α : Type} {m : Method (Journal ω) α} (h : Silent m) {w w' : World (Journal ω)}
    {r : Except ReplayError α} (hexec : exec m w = some (r, w')) :
    w'.os.entries = w.os.entries := by
  have hpost := h w.os.entries w (extended_self _ w) r w' hexec
  have hextended : Extended (fun _ => False) w.os.entries w' := by
    cases r with
    | ok a => exact hpost
    | error e => exact hpost
  obtain ⟨new, hnew, hnone⟩ := hextended
  -- New entries would have to satisfy `False`.
  cases new with
  | nil => rw [hnew, List.append_nil]
  | cons e new => exact (hnone e List.mem_cons_self).elim

/-- A silent method leaves the stop at the end. -/
theorem Silent.stopped {α : Type} {m : Method (Journal ω) α} (h : Silent m) (p : Pid)
    (es : List Entry) (status : WaitStatus) : Keeps (Stopped p es status) m := by
  intro w hw r w' hexec
  have hstopped : Stopped p es status w' := by
    obtain ⟨new, hentries, hall⟩ := hw
    exact ⟨new, (Silent.entries h hexec).trans hentries, hall⟩
  cases r with
  | ok a => exact hstopped
  | error e => exact hstopped

/-- One round of `step_thread` ends with a stop of the thread, or goes round. -/
theorem stepRound_writes [Unwind ω] (p : Pid) (sig : Option Signal) (es : List Entry) :
    Spec (Extended (Entry.Of p) es)
      (Mt.stepRound arch p sig : Method (Journal ω) (Option WaitStatus))
      (Round (Extended (Entry.Of p) es) fun status => Stopped p es status)
      (fun _ => Extended (Entry.Of p) es) := by
  refine Spec.bind (Q := fun _ => Extended (Entry.Of p) es) ?_ fun _ => ?_
  · refine Writes.noting (J := Entry.Of p) ?_ es
    intro answer e he
    rcases List.mem_singleton.mp he with rfl
    rfl
  refine Spec.bind (Q := fun status => Stopped p es status) ?_ fun status => ?_
  · -- the wait writes the status it answers with
    intro w hw r w' hexec
    obtain ⟨old, hold, hall⟩ := hw
    rcases exec_osOr_inv hexec with ⟨status, os', hcall, rfl, rfl⟩ | ⟨e, os', hcall, rfl, rfl⟩
    · refine ⟨old, ?_, hall⟩
      rw [← hold]
      exact Journal.noting_inv hcall
    · exact ⟨old, (Journal.noting_inv hcall).trans ((List.append_nil _).trans hold), hall⟩
  -- Going round, the stop at the end is one entry more about the thread.
  have hagain : ∀ w : World (Journal ω), Stopped p es status w → Extended (Entry.Of p) es w :=
    fun _ h => h.extended
  split
  · split
    · exact Spec.pure hagain
    · exact Spec.pure fun _ h => h
  · rename_i pid
    refine Spec.bind (Q := fun _ => Stopped p es (.stopped pid .trap)) ?_ fun hit => ?_
    · exact (Silent.stopped (isWatchHit_writes p) p es _).mono (fun _ h => h) (fun _ _ h => h)
        fun _ _ h => h.extended
    split
    · refine Spec.bind (Q := fun _ => Extended (Entry.Of p) es) ?_ fun _ => Spec.pure fun _ h => h
      exact (onWatchHit_writes p es).mono hagain (fun _ _ h => h) fun _ _ h => h
    · exact Spec.pure fun _ h => h
  · exact Spec.pure fun _ h => h

/-- Stepping a thread only resumes that thread, and ends with a stop of it. -/
theorem stepThread_writes [Unwind ω] (p : Pid) (sig : Option Signal) (es : List Entry) :
    Spec (Extended (Entry.Of p) es) (Mt.stepThread arch p sig : Method (Journal ω) WaitStatus)
      (fun status => Stopped p es status) (fun _ => Extended (Entry.Of p) es) := by
  refine Spec.bind (stepRound_writes p sig es) fun status => ?_
  cases status with
  | some status => exact Spec.pure fun _ h => h
  | none => exact Spec.loop (stepRound_writes p none es)

end Parts

end Mirrorscope.Replay
