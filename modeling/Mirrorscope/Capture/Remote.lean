import Mirrorscope.Capture.Lifetimes
import Mirrorscope.Linux.Remote

/-! # What the recorder reads of its tracee

The data of every syscall exit in a recording is the buffer of one filmed read, of the
region the kernel wrote, or empty where there is none.
-/

namespace Mirrorscope.Capture

open Linux Run
open Trace (Event EventKind)

variable {arch : Arch} {ω σ : Type} [Ptrace arch ω]

/-! ## One read -/

/-- The bytes are an answer of a read of the tracee. -/
def ReadsTracee (arch : Arch) [Ptrace arch ω] (r : RemoteRead) (w : Hosted σ ω) (bytes : Bytes) :
    Prop :=
  ∃ w', exec (readTraceeMemory arch r.pid r.addr r.len) w = some (.ok bytes, w')

theorem readsTracee_iff (r : RemoteRead) (w : Hosted σ ω) (bytes : Bytes) :
    ReadsTracee arch r w bytes ↔
      ∃ copied, r.copies arch w.host copied ∧ bytes = buffer r.len copied := by
  constructor
  · rintro ⟨w', hexec⟩
    obtain ⟨copied, u, hcall, hpure⟩ := bind_ok_inv hexec
    obtain ⟨hcopied, -⟩ := exec_call_ok hcall
    obtain ⟨hbytes, -⟩ := Prod.mk.inj (Option.some.inj hpure)
    exact ⟨copied, hcopied, (Except.ok.inj hbytes).symm⟩
  · rintro ⟨copied, hcopies, rfl⟩
    exact ⟨_, bind_ok (exec_call (Prod.ext hcopies rfl))⟩

/-! ## A recording -/

instance [Host ω] : Host (Filmed RemoteRead ω) where
  kill pid sig := Monitored.silent (Host.kill pid sig)
  schedSetaffinity pid cpu := Monitored.silent (Host.schedSetaffinity pid cpu)
  timerCreate := Monitored.silent Host.timerCreate
  setInterval n := Monitored.silent (Host.setInterval n)
  elapsed o := ((Host.elapsed o.os).1, { o with os := (Host.elapsed o.os).2 })
  append event := Monitored.silent (Host.append event)

/-- The data of a syscall exit is the buffer of a filmed read of the region, if there is
one. -/
def Region (arch : Arch) [Ptrace arch ω] (film : List (Shot RemoteRead ω)) (pid : Pid)
    (enter : Registers) (ret : Int64) (data : Bytes) : Prop :=
  match kernelWrittenRegion arch enter.nr enter.args ret with
  | some (addr, len) => ∃ os, Supplied arch film ⟨pid, addr, len⟩ data os
  | none => data = []

/-- The event is that of a syscall exit whose data was read. -/
def ReadOut (arch : Arch) [Ptrace arch ω] (film : List (Shot RemoteRead ω)) (e : Event) : Prop :=
  ∃ ts pid enter ret data,
    e = syscallExitEvent ts pid enter ret data ∧ Region arch film pid enter ret data

/-- Every syscall exit in the log was read. -/
def Faithful (arch : Arch) [Ptrace arch ω] (w : Hosted Scheduler (Filmed RemoteRead ω)) : Prop :=
  ∀ e ∈ w.object.writer, e.kind = .syscallExit → ReadOut arch w.host.notes e

theorem Region.append {film more : List (Shot RemoteRead ω)} {pid : Pid} {enter : Registers}
    {ret : Int64} {data : Bytes} (h : Region arch film pid enter ret data) :
    Region arch (film ++ more) pid enter ret data := by
  unfold Region at h ⊢
  split
  · rename_i addr len hregion
    rw [hregion] at h
    obtain ⟨os, hos⟩ := h
    exact ⟨os, hos.append⟩
  · rename_i hregion
    rw [hregion] at h
    exact h

theorem ReadOut.append {film more : List (Shot RemoteRead ω)} {e : Event}
    (h : ReadOut arch film e) : ReadOut arch (film ++ more) e := by
  obtain ⟨ts, pid, enter, ret, data, he, hregion⟩ := h
  exact ⟨ts, pid, enter, ret, data, he, hregion.append⟩

/-! ### The parts of a turn -/

section Parts

variable {δ α : Type}

theorem silent_faithful (c : Call ω δ α) :
    Keeps (Faithful arch) (tryCall (Monitored.silent c) : Method (Filmed RemoteRead ω) _) := by
  intro w hw r w' h
  obtain ⟨rfl, rfl⟩ := exec_tryCall_inv h
  exact hw

theorem call_faithful (err : δ → CaptureError) (c : Call ω δ α) :
    Keeps (Faithful arch) (call err (Monitored.silent c) : Method (Filmed RemoteRead ω) α) := by
  refine Keeps.bind (silent_faithful c) fun answer => ?_
  cases answer with
  | ok a => exact Keeps.pure
  | error e => exact Keeps.fail

theorem object_faithful :
    Keeps (Faithful arch) (object : Method (Filmed RemoteRead ω) Scheduler) := by
  intro w hw r w' h
  obtain ⟨rfl, rfl⟩ := exec_object_inv h
  exact hw

/-- An update that leaves the log alone. -/
theorem modify_faithful {f : Scheduler → Scheduler} (hf : ∀ s, (f s).writer = s.writer) :
    Keeps (Faithful arch) (modifyObject f : Method (Filmed RemoteRead ω) Unit) := by
  intro w hw r w' h
  obtain ⟨rfl, rfl⟩ := exec_modifyObject_inv h
  intro e he
  exact hw e (by rwa [hf] at he)

variable [Host ω]

theorem now_faithful : Keeps (Faithful arch) (now : Method (Filmed RemoteRead ω) UInt64) := by
  intro w hw r w' h
  obtain ⟨rfl, rfl⟩ := Prod.mk.inj (Option.some.inj h)
  exact hw

/-- A record that is no syscall exit, or one that was read. -/
theorem append_faithful (e : Event) :
    Spec (fun w => Faithful arch w ∧ (e.kind = .syscallExit → ReadOut arch w.host.notes e))
      (append e : Method (Filmed RemoteRead ω) Unit) (fun _ => Faithful arch)
      (fun _ => Faithful arch) := by
  refine Spec.bind (Q := fun _ w => Faithful arch w ∧
    (e.kind = .syscallExit → ReadOut arch w.host.notes e)) ?_ fun _ => ?_
  · rintro w ⟨hw, he⟩ r w' h
    have hkeeps := call_faithful CaptureError.trace (Host.append e) w hw r w' h
    cases r with
    | error e => exact hkeeps
    | ok a =>
      obtain ⟨-, rfl⟩ := exec_call_ok h
      exact ⟨hkeeps, he⟩
  · rintro w ⟨hw, he⟩ r w' h
    obtain ⟨rfl, rfl⟩ := exec_modifyObject_inv h
    intro e' he' hkind
    rcases List.mem_append.mp he' with hmem | hmem
    · exact hw e' hmem hkind
    · obtain rfl := List.mem_singleton.mp hmem
      exact he hkind

theorem append_other (e : Event) (he : e.kind ≠ .syscallExit) :
    Keeps (Faithful arch) (append e : Method (Filmed RemoteRead ω) Unit) :=
  (append_faithful e).mono (fun _ hw => ⟨hw, fun hkind => absurd hkind he⟩) (fun _ _ hw => hw)
    (fun _ _ hw => hw)

omit [Host ω] in
/-- A read of the tracee is in the film after it. -/
theorem readTraceeMemory_supplied (pid : Pid) (addr : UInt64) (len : Nat) :
    Spec (Faithful arch)
      (readTraceeMemory arch pid addr len : Method (Filmed RemoteRead ω) Bytes)
      (fun data w => Faithful arch w ∧ ∃ os, Supplied arch w.host.notes ⟨pid, addr, len⟩ data os)
      (fun _ => Faithful arch) := by
  have hshot {w : Hosted Scheduler (Filmed RemoteRead ω)} (hw : Faithful arch w) :
      Faithful arch { w with
        host := (Ptrace.processVmReadv arch pid addr len w.host).2 } := by
    intro e he hkind
    exact (hw e he hkind).append
  refine Spec.bind (Q := fun copied w => Faithful arch w ∧
    ∃ os, Supplied arch w.host.notes ⟨pid, addr, len⟩ (buffer len copied) os) ?_ fun copied => ?_
  · refine Spec.bind (Q := fun answer w => Faithful arch w ∧ ∀ copied, answer = .ok copied →
      ∃ os, Supplied arch w.host.notes ⟨pid, addr, len⟩ (buffer len copied) os) ?_ fun answer => ?_
    · intro w hw r w' h
      obtain ⟨rfl, rfl⟩ := exec_tryCall_inv h
      refine ⟨hshot hw, fun copied hcopied => ⟨w.host.os, ⟨?_, copied, hcopied, rfl⟩⟩⟩
      refine ⟨(Ptrace.processVmReadv arch pid addr len w.host.os).2, ?_⟩
      exact List.mem_append_right _ (List.mem_singleton.mpr rfl)
    · cases answer with
      | ok copied => exact Spec.pure fun w hw => ⟨hw.1, hw.2 copied rfl⟩
      | error e => exact Spec.fail fun w hw => hw.1
  · exact Spec.pure fun w hw => hw

omit [Host ω] in
theorem exitEvent_readOut (ts : UInt64) (pid : Pid) (enter : Registers) (ret : Int64) :
    Spec (Faithful arch)
      (exitEvent arch ts (tidOf pid) pid enter ret : Method (Filmed RemoteRead ω) Event)
      (fun e w => Faithful arch w ∧ ReadOut arch w.host.notes e) (fun _ => Faithful arch) := by
  unfold exitEvent
  split
  · rename_i addr len hregion
    refine Spec.bind (readTraceeMemory_supplied pid addr len) fun data => ?_
    refine Spec.pure fun w hw => ⟨hw.1, ts, pid, enter, ret, data, rfl, ?_⟩
    unfold Region
    rw [hregion]
    exact hw.2
  · rename_i hregion
    refine Spec.pure fun w hw => ⟨hw, ts, pid, enter, ret, [], rfl, ?_⟩
    unfold Region
    rw [hregion]

theorem onSyscall_faithful (pid : Pid) :
    Keeps (Faithful arch) (onSyscall arch pid : Method (Filmed RemoteRead ω) Unit) := by
  refine Keeps.bind (Keeps.bind (call_faithful _ _) fun _ => Keeps.pure) fun regs => ?_
  refine Keeps.bind now_faithful fun ts => ?_
  refine Keeps.bind object_faithful fun s => ?_
  refine Keeps.bind (modify_faithful fun s => Scheduler.writer_modifyThread s _ _) fun _ => ?_
  split
  · refine Keeps.bind (append_other _ (by simp [enterEvent, Event.newWithTid])) fun _ => ?_
    exact modify_faithful fun s => Scheduler.writer_modifyThread s _ _
  · rename_i enter _
    refine Spec.bind (exitEvent_readOut ts pid enter regs.ret) fun event => ?_
    exact (append_faithful event).mono (fun w hw => ⟨hw.1, fun _ => hw.2⟩) (fun _ _ hw => hw)
      (fun _ _ hw => hw)

theorem onSpawn_faithful (pid : Pid) :
    Keeps (Faithful arch) (onSpawn arch pid : Method (Filmed RemoteRead ω) Pid) := by
  refine Keeps.bind (call_faithful _ _) fun child => ?_
  refine Keeps.bind now_faithful fun ts => ?_
  exact Keeps.bind (append_other _ (by simp [Event.newWithTid])) fun _ => Keeps.pure

theorem onStopped_faithful (pid : Pid) (sig : Signal) :
    Keeps (Faithful arch) (onStopped arch pid sig : Method (Filmed RemoteRead ω) Unit) := by
  refine Keeps.bind object_faithful fun s => ?_
  split
  · refine Keeps.bind ?_ fun _ => modify_faithful fun s => Scheduler.writer_requeue s pid
    refine Keeps.bind (call_faithful _ _) fun _ => ?_
    exact Keeps.bind (call_faithful _ _) fun _ => modify_faithful fun _ => rfl
  · refine Keeps.bind (modify_faithful fun s => Scheduler.writer_clearRunning s pid) fun _ => ?_
    refine Keeps.bind (Keeps.when ?_) fun _ =>
      modify_faithful fun s => Scheduler.writer_requeue s pid
    refine Keeps.bind now_faithful fun ts => ?_
    refine Keeps.bind (append_other _ (by simp [Event.newWithTid])) fun _ => ?_
    exact modify_faithful fun s => Scheduler.writer_modifyThread s _ _

theorem onExit_faithful (pid : Pid) (code : Option Int32) :
    Keeps (Faithful arch) (onExit pid code : Method (Filmed RemoteRead ω) Unit) := by
  refine Keeps.bind (modify_faithful fun s => Scheduler.writer_clearRunning s pid) fun _ => ?_
  refine Keeps.bind object_faithful fun s => ?_
  refine Keeps.bind (modify_faithful fun _ => rfl) fun _ => ?_
  refine Keeps.bind (Keeps.when ?_) fun _ => ?_
  · refine Keeps.bind now_faithful fun ts => ?_
    exact append_other _ (by simp [Event.newWithTid])
  · refine Keeps.bind (modify_faithful fun _ => rfl) fun _ => ?_
    exact modify_faithful fun s => Scheduler.writer_release s pid

theorem handle_faithful (status : WaitStatus) :
    Keeps (Faithful arch) (handle arch status : Method (Filmed RemoteRead ω) Unit) := by
  cases status with
  | exited pid code => exact onExit_faithful pid _
  | signaled pid sig core => exact onExit_faithful pid _
  | stopped pid sig => exact onStopped_faithful pid sig
  | continued pid => exact Keeps.pure
  | stillAlive => exact Keeps.pure
  | ptraceSyscall pid =>
    refine Keeps.bind (modify_faithful fun s => Scheduler.writer_clearRunning s pid) fun _ => ?_
    refine Keeps.bind (onSyscall_faithful pid) fun _ => ?_
    exact modify_faithful fun s => Scheduler.writer_requeue s pid
  | ptraceEvent pid sig event =>
    refine Keeps.bind (modify_faithful fun s => Scheduler.writer_clearRunning s pid) fun _ => ?_
    split
    · refine Keeps.bind (onSpawn_faithful pid) fun child => ?_
      split
      · exact modify_faithful fun _ => rfl
      · exact modify_faithful fun s => Scheduler.writer_requeue s pid
    · exact modify_faithful fun s => Scheduler.writer_requeue s pid

theorem resumeNext_faithful :
    Keeps (Faithful arch) (resumeNext arch : Method (Filmed RemoteRead ω) Unit) := by
  refine Keeps.bind object_faithful fun s => ?_
  split
  · exact Keeps.pure
  · rename_i next ready _
    refine Keeps.bind (modify_faithful fun _ => rfl) fun _ => ?_
    refine Keeps.bind ?_ fun _ => ?_
    · refine Keeps.bind object_faithful fun s => ?_
      split
      · exact Keeps.pure
      · refine Keeps.bind (modify_faithful fun _ => rfl) fun _ => ?_
        refine Keeps.bind now_faithful fun ts => ?_
        exact append_other _ (by simp [Event.newWithTid])
    · refine Keeps.bind object_faithful fun s => ?_
      refine Keeps.bind (modify_faithful fun s => Scheduler.writer_modifyThread s _ _) fun _ => ?_
      exact Keeps.bind (call_faithful _ _) fun _ => modify_faithful fun _ => rfl

theorem preemptRunning_faithful :
    Keeps (Faithful arch) (preemptRunning arch : Method (Filmed RemoteRead ω) Unit) := by
  refine Keeps.bind object_faithful fun s => ?_
  split
  · rename_i cur _
    refine Keeps.bind ?_ fun _ => ?_
    · refine Keeps.bind (silent_faithful _) fun answer => ?_
      split
      · exact Keeps.pure
      · split
        · exact Keeps.pure
        · exact Keeps.fail
    · exact Keeps.bind (call_faithful _ _) fun status => handle_faithful status
  · exact Keeps.pure

theorem turn_faithful :
    Keeps (Faithful arch) (turn arch : Method (Filmed RemoteRead ω) (Option Unit)) := by
  refine Keeps.bind object_faithful fun s => ?_
  split
  · exact Keeps.pure
  refine Keeps.bind (Keeps.when resumeNext_faithful) fun _ => ?_
  refine Keeps.bind (call_faithful _ _) fun _ => ?_
  refine Keeps.bind (silent_faithful _) fun answer => ?_
  cases answer with
  | ok status =>
    refine Keeps.bind (call_faithful _ _) fun _ => ?_
    exact Keeps.bind (handle_faithful status) fun _ => Keeps.pure
  | error e =>
    simp only [react]
    split
    · refine Keeps.bind (call_faithful _ _) fun _ => ?_
      exact Keeps.bind preemptRunning_faithful fun _ => Keeps.pure
    · split
      · exact Keeps.pure
      · exact Keeps.fail

end Parts

/-! ### The whole of it -/

/-- A state of a recording: after any number of turns, or where the last of them ended or
failed. -/
def Recorded (arch : Arch) [Ptrace arch ω] [Host ω] (leader : Pid) (w : Hosted Scheduler ω) :
    Prop :=
  ∃ start first n last, exec (new leader) start = some (.ok (), first) ∧
    Rounds (turn arch) n first last ∧ (w = last ∨ ∃ r, exec (turn arch) last = some (r, w))

/-- Every syscall exit of a recording was read. -/
theorem recorded_faithful [Host ω] {leader : Pid} {w : Hosted Scheduler (Filmed RemoteRead ω)}
    (h : Recorded arch leader w) : Faithful arch w := by
  obtain ⟨start, first, n, last, hnew, hrounds, hlast⟩ := h
  have hfirst : Faithful arch first := by
    intro e he
    rw [new_ok hnew] at he
    exact absurd he List.not_mem_nil
  have hkeeps : Faithful arch last :=
    hrounds.invariant _ (fun _ _ hv hturn => turn_faithful.ok hv hturn) hfirst
  rcases hlast with rfl | ⟨r, hturn⟩
  · exact hkeeps
  · have hpost := turn_faithful last hkeeps r w hturn
    cases r with
    | ok a => exact hpost
    | error e => exact hpost

end Mirrorscope.Capture
