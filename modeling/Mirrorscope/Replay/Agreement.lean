import Mirrorscope.Capture.Solo
import Mirrorscope.Replay.Injection
import Mirrorscope.Replay.Matching
import Mirrorscope.Replay.Routing

/-! # Replaying a target of one thread

The single-tracee driver on the target that was recorded. Its tracee runs without
`PTRACE_O_TRACEEXEC`, so that a successful exec is a `SIGTRAP` to it, which it delivers:
the target dies there. Every target without an exec is replayed to its recorded end.

* `Standing`: the tracee stands at a stop, its program in a given state.
* `Follows`: what the target still does and what the log still has, between two rounds.
* `Follows.ends`: how the run ends, by the acts of the target.
-/

namespace Mirrorscope.Replay

open Capture Linux Run
open Trace (Cmdline Event Record storedRecords)

variable {arch : Arch} {target : SoloTarget arch}

/-! ## Where the replay is -/

/-- The tracee stands at a stop that was waited for, its program in a state with `P`. -/
def Standing (P : Playing arch → Prop) (w : World (Os target.machine)) : Prop :=
  ∃ i img, w.os.At w.session.pid i 0 img ∧ Ready img ∧ P img.group

/-- A plain session of the single-tracee driver, with the records of these events ahead. -/
structure OnScript (events : List Event) (s : ReplaySession) : Prop where
  ahead : s.records.drop s.cursor = storedRecords s.cursor events
  within : s.cursor ≤ s.records.length
  finished : s.finished = none
  watchpoint : s.watchpoint = none
  interval : s.checkpointInterval = 0
  multithreaded : s.multithreaded = false

/-- Between two rounds: what is ahead of the tracee, and what is ahead in the trace. -/
structure Follows (todo : List (Item arch)) (events : List Event) (pending : Option Pending)
    (w : World (Os target.machine)) : Prop where
  session : OnScript events w.session
  pending : w.session.pending = pending
  standing : Standing (Ahead todo) w

variable {todo : List (Item arch)} {event : Event} {events : List Event}
  {pending : Option Pending} {w : World (Os target.machine)} {P Q : Playing arch → Prop}
  {s : ReplaySession}

theorem storedRecords_cons (n : Nat) (event : Event) (events : List Event) :
    storedRecords n (event :: events) =
      { seq := UInt64.ofNat n, event := event.stored } :: storedRecords (n + 1) events := rfl

/-- The record of the next event. -/
theorem OnScript.here (h : OnScript (event :: events) s) :
    s.records[s.cursor]? = some { seq := UInt64.ofNat s.cursor, event := event.stored } := by
  have hhead := congrArg List.head? h.ahead
  rwa [List.head?_drop, storedRecords_cons] at hhead

theorem OnScript.skip (h : OnScript (event :: events) s) (hkind : IsPlain event) :
    skipFrom (s.records.drop s.cursor) = 0 := by
  rw [h.ahead, storedRecords_cons]
  refine if_neg ?_
  rw [stored_plain hkind]
  rcases hkind with hkind | hkind | hkind
  · rw [hkind]
    decide
  · rw [hkind]
    decide
  · rw [hkind]
    decide

/-- The session after the next record was consumed. -/
theorem OnScript.consume (h : OnScript (event :: events) s) (seq : Option UInt64) :
    OnScript events { s with cursor := s.cursor + 1, currentSeq := seq } where
  ahead := by
    have htail := congrArg List.tail h.ahead
    rwa [List.tail_drop, storedRecords_cons] at htail
  within := (List.getElem?_eq_some_iff.mp h.here).1
  finished := h.finished
  watchpoint := h.watchpoint
  interval := h.interval
  multithreaded := h.multithreaded

/-- Nothing is ahead just when all records were consumed. -/
theorem OnScript.consumed_iff (h : OnScript events s) :
    s.cursor = s.records.length ↔ events = [] := by
  have hlen := congrArg List.length h.ahead
  have hwithin := h.within
  simp only [List.length_drop, storedRecords, List.length_map, List.length_zipIdx] at hlen
  rw [← List.length_eq_zero_iff]
  omega

theorem OnScript.exec_nextRecord (h : OnScript (event :: events) w.session)
    (hkind : IsPlain event) :
    exec nextRecord w =
      some (.ok { seq := UInt64.ofNat w.session.cursor, event := event.stored },
        { w with session := { w.session with cursor := w.session.cursor + 1 } }) := by
  have hskip := h.skip hkind
  have hupcoming : w.session.Upcoming
      { seq := UInt64.ofNat w.session.cursor, event := event.stored } := by
    rw [ReplaySession.Upcoming, hskip]
    exact h.here
  rw [Replay.exec_nextRecord hupcoming, hskip]

/-! ## The tracee -/

theorem Standing.mono (h : Standing P w) (hPQ : ∀ g, P g → Q g) : Standing Q w := by
  obtain ⟨i, img, hat, hready, hP⟩ := h
  exact ⟨i, img, hat, hready, hPQ _ hP⟩

/-- Resuming the tracee towards its next stop. -/
theorem Standing.nextStop (h : Standing P w) (stop : Stop)
    (hresume : ∀ g, P g → (g.resume setupOptions w.session.resumeSignal).2 = stop ∧
      Q (g.resume setupOptions w.session.resumeSignal).1) :
    ∃ w₁, exec (nextStop arch) w = some (.ok (stop.status w.session.pid), w₁) ∧
      w₁.session = { w.session with resumeSignal := none } ∧
      (stop.isExit = false → Standing Q w₁) := by
  obtain ⟨i, img, hat, hready, hP⟩ := h
  obtain ⟨os', hcall, hwait⟩ :=
    Os.syscall_waitpid hat hready.collected w.session.resumeSignal .none
  have heq : img.resume 0 w.session.resumeSignal =
      ((img.group.resume setupOptions w.session.resumeSignal).2, { img with
        group := (img.group.resume setupOptions w.session.resumeSignal).1
        stops := Function.update img.stops 0
          (some (img.group.resume setupOptions w.session.resumeSignal).2) }) := by
    rw [target.image_resume img 0, hready.options]
    rfl
  -- The target spawns nobody, so its own stop is the only new one.
  have hspawn := target.resume_isSpawn img 0 w.session.resumeSignal
  obtain ⟨hstop, hQ⟩ := hresume img.group hP
  rw [heq] at hwait
  simp only [hstop] at hwait heq
  let after : Image target.machine :=
    { img with
      group := (img.group.resume setupOptions w.session.resumeSignal).1
      stops := Function.update img.stops 0 (some stop) }
  let os'' := w.os.resumed w.session.pid i 0 img w.session.resumeSignal
  refine ⟨⟨{ w.session with resumeSignal := none }, os''⟩, ?_, rfl,
    fun hexit => ⟨i, after.collect 0, ⟨?_, ?_⟩, ⟨?_, hready.options⟩, hQ⟩⟩
  · refine (bind_ok (exec_self w)).trans ?_
    refine (bind_ok (exec_modifySelf _ w)).trans ?_
    have hresumed : exec (os (Ptrace.syscall arch w.session.pid w.session.resumeSignal))
        ⟨{ w.session with resumeSignal := none }, w.os⟩ =
          some (.ok (), ⟨{ w.session with resumeSignal := none }, os'⟩) := exec_osOr_ok hcall
    exact (bind_ok hresumed).trans (exec_osOr_ok hwait)
  · exact Os.procs_resumed_of_some (by rw [heq]; exact hexit) hat.proc
  · change os''.images[i]? = _
    rw [Os.images_resumed hat, if_pos rfl, heq]
  · simp [Image.collect]

/-- A call on the tracee that changes its program at most. -/
theorem Standing.call {α : Type} {R : α → Prop} (h : Standing P w) (err : Errno → ReplayError)
    (f : Image target.machine → Nat → Except Errno α × Image target.machine)
    (hf : ∀ img : Image target.machine, P img.group →
      ∃ a g, f img 0 = (.ok a, { img with group := g }) ∧ Q g ∧ R a) :
    ∃ a w', exec (osOr err (Os.onImage w.session.pid f)) w = some (.ok a, w') ∧
      w'.session = w.session ∧ Standing Q w' ∧ R a := by
  obtain ⟨i, img, hat, hready, hP⟩ := h
  obtain ⟨a, g, heq, hQ, hR⟩ := hf img hP
  have hcall := hat.onImage f
  rw [heq] at hcall
  exact ⟨a, _, exec_osOr_ok hcall, rfl,
    ⟨i, _, hat.setImage, ⟨hready.collected, hready.options⟩, hQ⟩, hR⟩

/-- The registers of the stop. -/
theorem Standing.saveFull {full : FullRegs arch} (h : Standing (fun g => P g ∧ g.regs = full) w) :
    ∃ w', exec (Regs.saveFull arch w.session.pid) w = some (.ok full, w') ∧
      w'.session = w.session ∧ Standing P w' := by
  obtain ⟨a, w', hexec, hsame, hstanding, rfl⟩ := h.call (Q := P) (R := fun a => a = full) .ptrace
    (fun img task => (.ok (target.machine.regs img.group task), img))
    (fun img hP => ⟨img.group.regs, img.group, rfl, hP.1, hP.2⟩)
  exact ⟨w', hexec, hsame, hstanding⟩

theorem Standing.restoreFull (h : Standing (Ahead todo) w) (full : FullRegs arch) :
    ∃ w', exec (Regs.restoreFull arch w.session.pid full) w = some (.ok (), w') ∧
      w'.session = w.session ∧ Standing (Ahead todo) w' := by
  obtain ⟨a, w', hexec, hsame, hstanding, -⟩ := h.call (Q := Ahead todo) (R := fun _ => True)
    .ptrace
    (fun img task => (.ok (), { img with group := target.machine.setRegs img.group task full }))
    (fun img hP => ⟨(), _, rfl, hP, trivial⟩)
  exact ⟨w', hexec, hsame, hstanding⟩

/-- Rewriting the registers of the stop. -/
theorem Standing.rewrite (h : Standing (Ahead todo) w) (f : FullRegs arch → FullRegs arch) :
    ∃ w', exec (do
        let full ← Regs.saveFull arch w.session.pid
        Regs.restoreFull arch w.session.pid (f full)) w = some (.ok (), w') ∧
      w'.session = w.session ∧ Standing (Ahead todo) w' := by
  obtain ⟨i, img, hat, hready, hP⟩ := h
  have hnow : Standing (fun g => Ahead todo g ∧ g.regs = img.group.regs) w :=
    ⟨i, img, hat, hready, hP, rfl⟩
  obtain ⟨w₁, hsave, hsame, hstanding⟩ := hnow.saveFull
  obtain ⟨w₂, hrestore, hsame', hstanding'⟩ := hstanding.restoreFull (f img.group.regs)
  rw [hsame] at hrestore
  exact ⟨w₂, (bind_ok hsave).trans hrestore, hsame'.trans hsame, hstanding'⟩

theorem Standing.suppress (h : Standing (Ahead todo) w) :
    ∃ w', exec (Regs.suppressSyscall arch w.session.pid) w = some (.ok (), w') ∧
      w'.session = w.session ∧ Standing (Ahead todo) w' := by
  cases arch with
  | x86_64 => exact h.rewrite (Regs.withSuppressed .x86_64)
  | aarch64 =>
    obtain ⟨a, w', hexec, hsame, hstanding, -⟩ := h.call (Q := Ahead todo) (R := fun _ => True)
      .ptrace
      (fun img task => (.ok (), { img with group := target.machine.setNr img.group task (-1) }))
      (fun img hP => ⟨(), _, rfl, hP, trivial⟩)
    exact ⟨w', hexec, hsame, hstanding⟩

/-- Injecting a result: the memory of the tracee takes all of it. -/
theorem Standing.inject (h : Standing (Ahead todo) w) (addr : UInt64) (data : Bytes)
    (ret : Int64) :
    ∃ w', exec (do
        writeMemory arch w.session.pid addr data
        Regs.setReturn arch w.session.pid ret) w = some (.ok (), w') ∧
      w'.session = w.session ∧ Standing (Ahead todo) w' := by
  have hwrite : ∃ w₁, exec (writeMemory arch w.session.pid addr data) w = some (.ok (), w₁) ∧
      w₁.session = w.session ∧ Standing (Ahead todo) w₁ := by
    unfold writeMemory
    split
    · exact ⟨w, rfl, rfl, h⟩
    · obtain ⟨a, w₁, hexec, hsame, hstanding, rfl⟩ :=
        h.call (Q := Ahead todo) (R := fun a => a = data.length) (.memory addr data.length)
          (fun img task =>
            let (answer, group) := target.machine.write img.group task addr data
            (answer, { img with group }))
          (fun img hP => ⟨data.length, _, rfl, hP, rfl⟩)
      refine ⟨w₁, (bind_ok hexec).trans ?_, hsame, hstanding⟩
      rw [if_neg (not_not.mpr rfl)]
      rfl
  obtain ⟨w₁, hexec, hsame, hstanding⟩ := hwrite
  obtain ⟨w₂, hreturn, hsame', hstanding'⟩ := hstanding.rewrite (Regs.withReturn arch ret)
  rw [hsame] at hreturn
  exact ⟨w₂, (bind_ok hexec).trans hreturn, hsame'.trans hsame, hstanding'⟩

/-! ## Stops and their records -/

/-- The entry of a syscall is the next record. -/
theorem Standing.onEntry {ts : UInt64} {tid : UInt32} {regs : Registers}
    (h : Standing (Ahead todo) w)
    (hscript : OnScript (enterEvent ts tid regs :: events) w.session) :
    ∃ w' p, exec (onEntry arch regs) w = some (.ok (), w') ∧ OnScript events w'.session ∧
      w'.session.pending = some p ∧ Standing (Ahead todo) w' := by
  have hplain : IsPlain (enterEvent ts tid regs) := .inl rfl
  have hdecode : SyscallEnter.decode (enterEvent ts tid regs).stored.payload =
      .ok { nr := regs.nr, args := regs.args } := SyscallEnter.decode_encode _
  have hnext := hscript.consume (some (UInt64.ofNat w.session.cursor))
  let w₁ : World (Os target.machine) :=
    { w with session := { w.session with
        cursor := w.session.cursor + 1
        currentSeq := some (UInt64.ofNat w.session.cursor) } }
  -- Only a call whose result is injected is cancelled.
  have hsuppress : ∃ w₂, exec (when (injectionAddr arch regs.nr regs.args).isSome
        (Regs.suppressSyscall arch w.session.pid)) w₁ = some (.ok (), w₂) ∧
      w₂.session = w₁.session ∧ Standing (Ahead todo) w₂ := by
    have h₁ : Standing (Ahead todo) w₁ := h
    cases (injectionAddr arch regs.nr regs.args).isSome with
    | true => exact h₁.suppress
    | false => exact ⟨w₁, rfl, rfl, h₁⟩
  obtain ⟨w₂, hexec, hsame, hstanding⟩ := hsuppress
  refine ⟨{ w₂ with session := { w₂.session with
      pending := some { injectAddr := injectionAddr arch regs.nr regs.args } } }, _, ?_, ?_, rfl,
    hstanding⟩
  · refine (bind_ok (hscript.exec_nextRecord hplain)).trans ?_
    rw [show (enterEvent ts tid regs).stored.kind = .syscallEnter from stored_plain hplain]
    rw [hdecode]
    refine (bind_ok (exec_orFail_ok _ _ _)).trans ?_
    rw [if_neg (not_not.mpr rfl)]
    refine (bind_ok (exec_modifySelf _ _)).trans ?_
    refine (bind_ok (exec_self _)).trans ?_
    exact bind_ok hexec
  · rw [hsame]
    exact ⟨hnext.ahead, hnext.within, hnext.finished, hnext.watchpoint, hnext.interval,
      hnext.multithreaded⟩

/-- The exit of a syscall is the next record. -/
theorem Standing.onExit {ts : UInt64} {leader : Pid} {enter : Registers} {ret : Int64}
    {data : Bytes} (p : Pending) (hlen : data.length ≤ maxRwCount) (h : Standing (Ahead todo) w)
    (hscript : OnScript (syscallExitEvent ts leader enter ret data :: events) w.session) :
    ∃ w', exec (onExit arch p) w = some (.ok (), w') ∧ OnScript events w'.session ∧
      w'.session.pending = w.session.pending ∧ Standing (Ahead todo) w' := by
  have hplain : IsPlain (syscallExitEvent ts leader enter ret data) := .inr (.inl rfl)
  have hdecode : SyscallExit.decode (syscallExitEvent ts leader enter ret data).stored.payload =
      .ok { nr := enter.nr, ret, data } :=
    SyscallExit.decode_encode (Nat.lt_of_le_of_lt hlen (by decide))
  have hnext := hscript.consume (some (UInt64.ofNat w.session.cursor))
  let w₁ : World (Os target.machine) :=
    { w with session := { w.session with
        cursor := w.session.cursor + 1
        currentSeq := some (UInt64.ofNat w.session.cursor) } }
  -- What the call would have written comes from the record.
  have hinject : ∃ w₂, exec (p.injectAddr.elim (pure ()) fun addr => do
          let s ← self
          writeMemory arch s.pid addr data
          Regs.setReturn arch s.pid ret) w₁ = some (.ok (), w₂) ∧
      w₂.session = w₁.session ∧ Standing (Ahead todo) w₂ := by
    have h₁ : Standing (Ahead todo) w₁ := h
    cases p.injectAddr with
    | some addr =>
      obtain ⟨w₂, hexec, hsame, hstanding⟩ := h₁.inject addr data ret
      exact ⟨w₂, (bind_ok (exec_self _)).trans hexec, hsame, hstanding⟩
    | none => exact ⟨w₁, rfl, rfl, h₁⟩
  obtain ⟨w₂, hexec, hsame, hstanding⟩ := hinject
  refine ⟨w₂, ?_, ?_, ?_, hstanding⟩
  · refine (bind_ok (hscript.exec_nextRecord hplain)).trans ?_
    rw [show (syscallExitEvent ts leader enter ret data).stored.kind = .syscallExit from
      stored_plain hplain]
    rw [hdecode]
    refine (bind_ok (exec_orFail_ok _ _ _)).trans ?_
    refine (bind_ok (exec_modifySelf _ _)).trans ?_
    cases haddr : p.injectAddr with
    | none =>
      rw [haddr] at hexec
      exact hexec
    | some addr =>
      rw [haddr] at hexec
      exact hexec
  · rw [hsame]
    exact hnext
  · rw [hsame]

theorem exec_skipCheckpoints (hskip : skipFrom (w.session.records.drop w.session.cursor) = 0) :
    exec skipCheckpoints w = some (.ok (), w) := by
  rw [skipCheckpoints, exec_modifySelf, hskip]
  rfl

/-- A signal stop, before its signal is queued. -/
theorem exec_onSignalStop (sig : Signal) {w' : World (Os target.machine)}
    (hskip : skipFrom (w.session.records.drop w.session.cursor) = 0)
    (hmatch : exec (matchSignal sig) w = some (.ok (), w')) :
    exec (onSignalStop sig) w =
      some (.ok (), { w' with session := { w'.session with resumeSignal := some sig } }) := by
  refine (bind_ok (exec_skipCheckpoints hskip)).trans ?_
  exact bind_ok hmatch

theorem isPlain_signalEvent (ts : UInt64) (leader : Pid) (sig : Signal) :
    IsPlain (signalEvent ts leader sig) := .inr (.inr rfl)

/-- A signal's own record is consumed. -/
theorem OnScript.matchSignal {ts : UInt64} {leader : Pid} {sig : Signal}
    (h : OnScript (signalEvent ts leader sig :: events) w.session) :
    exec (matchSignal sig) w = some (.ok (), { w with session := { w.session with
      cursor := w.session.cursor + 1
      currentSeq := some (UInt64.ofNat w.session.cursor) } }) := by
  have hdecode : SignalDelivery.decode (signalEvent ts leader sig).stored.payload =
      .ok { signum := sig.num } := SignalDelivery.decode_encode _
  have hkind : (signalEvent ts leader sig).stored.kind = .signal :=
    stored_plain (isPlain_signalEvent ts leader sig)
  refine (bind_ok (exec_self w)).trans ?_
  rw [h.here]
  simp only [hkind, if_true, hdecode]
  refine (bind_ok (exec_orFail_ok _ _ _)).trans ?_
  rw [if_neg (not_not.mpr rfl)]
  rfl

/-- The record of another signal is a divergence. -/
theorem OnScript.onSignalStop_other {ts : UInt64} {leader : Pid} {sig other : Signal}
    (h : OnScript (signalEvent ts leader other :: events) w.session) (hne : other ≠ sig) :
    exec (onSignalStop sig) w =
      some (.error (.scheduleDiverged (UInt64.ofNat w.session.cursor)
        ("expected delivered signal " ++ toString other.num ++ ", got " ++
          toString sig.num)), w) := by
  have hdecode : SignalDelivery.decode (signalEvent ts leader other).stored.payload =
      .ok { signum := other.num } := SignalDelivery.decode_encode _
  have hkind : (signalEvent ts leader other).stored.kind = .signal :=
    stored_plain (isPlain_signalEvent ts leader other)
  have hskip := h.skip (isPlain_signalEvent ts leader other)
  refine (bind_ok (exec_skipCheckpoints hskip)).trans (bind_error ?_)
  refine (bind_ok (exec_self w)).trans ?_
  rw [h.here]
  simp only [hkind, if_true, hdecode]
  refine (bind_ok (exec_orFail_ok _ _ _)).trans ?_
  rw [if_pos fun heq => hne (Signal.num_injective heq)]
  rfl

/-- Where no signal is recorded next, a signal passes. -/
theorem OnScript.matchSignal_passes (h : OnScript events w.session) {sig : Signal}
    (hnext : ∀ e ∈ events.head?, IsPlain e ∧ e.kind ≠ .signal) :
    skipFrom (w.session.records.drop w.session.cursor) = 0 ∧
      exec (Replay.matchSignal sig) w = some (.ok (), w) := by
  cases events with
  | nil =>
    have hnone : w.session.records[w.session.cursor]? = none := by
      rw [List.getElem?_eq_none_iff, h.consumed_iff.mpr rfl]
    constructor
    · rw [h.ahead]
      rfl
    · refine (bind_ok (exec_self w)).trans ?_
      rw [hnone]
      rfl
  | cons event events =>
    obtain ⟨hplain, hkind⟩ := hnext event rfl
    refine ⟨h.skip hplain, (bind_ok (exec_self w)).trans ?_⟩
    rw [h.here]
    exact congrFun (if_neg (by rw [stored_plain hplain]; exact hkind)) w

/-! ## Rounds -/

/-- At a clean boundary no checkpoint is due: none was asked for. -/
theorem OnScript.maybeCheckpoint (h : OnScript events w.session) :
    exec (maybeCheckpoint arch) w = some (.ok (), w) := by
  refine (bind_ok (exec_self w)).trans ?_
  rw [h.multithreaded]
  simp only [Bool.false_eq_true, if_false]
  split
  · rfl
  · split
    · rfl
    · rename_i seq _
      have hdue (last : Option UInt64) :
          isCheckpointDue last seq w.session.checkpointInterval = false := by
        rw [h.interval]
        rfl
      rw [if_pos (by rw [hdue]; decide)]
      rfl

/-- The stops ahead of the tracee, one after the other. -/
theorem Standing.advance (h : Standing (Ahead todo) w) (stop : Stop)
    (hadvance : ∀ g : Playing arch, g.trapped = false →
      (g.advance setupOptions todo).2 = stop ∧ Q (g.advance setupOptions todo).1) :
    ∃ w₁, exec (Replay.nextStop arch) w = some (.ok (stop.status w.session.pid), w₁) ∧
      w₁.session = { w.session with resumeSignal := none } ∧
      (stop.isExit = false → Standing Q w₁) :=
  h.nextStop stop fun g hg => by
    rw [Playing.resume_of_ahead hg]
    exact hadvance g hg.2

/-- A round that stops at a syscall: the registers are read, and the entry or the exit is
handled. -/
theorem Follows.syscallStop {ahead : List (Item arch)} {full : FullRegs arch}
    (h : Follows ahead events pending w) (rest : List (Item arch))
    (hadvance : ∀ g : Playing arch, g.trapped = false →
      (g.advance setupOptions ahead).2 = .syscall ∧
        Ahead rest (g.advance setupOptions ahead).1 ∧
        (g.advance setupOptions ahead).1.regs = full) :
    ∃ w₁, Standing (Ahead rest) w₁ ∧ OnScript events w₁.session ∧ w₁.session.pending = none ∧
      ∀ w₂ events', exec (match pending with
          | none => onEntry arch (normalize arch full)
          | some p => onExit arch p) w₁ = some (.ok (), w₂) →
        OnScript events' w₂.session → exec (driveRound arch none) w = some (.ok none, w₂) := by
  obtain ⟨hscript, rfl, hstanding⟩ := h
  obtain ⟨w₁, hstop, hsession, hnext⟩ := hstanding.advance
    (Q := fun g => Ahead rest g ∧ g.regs = full) .syscall hadvance
  obtain ⟨w₂, hread, hsame, hstanding₂⟩ := (hnext rfl).saveFull
  have hpid : w₁.session.pid = w.session.pid := by rw [hsession]
  rw [hpid] at hread
  obtain ⟨-, hsyscall⟩ := exec_onSyscallStop hsession (bind_ok hread)
  refine ⟨{ w₂ with session := { w₂.session with
    lastRegs := some (normalize arch full), pending := none } }, hstanding₂, ?_, rfl, ?_⟩
  · rw [hsame, hsession]
    exact ⟨hscript.ahead, hscript.within, hscript.finished, hscript.watchpoint, hscript.interval,
      hscript.multithreaded⟩
  · intro w₃ events' hhandled hscript₃
    rw [exec_driveRound hstop]
    refine (bind_ok (hsyscall.trans hhandled)).trans ?_
    exact bind_ok hscript₃.maybeCheckpoint

/-- The entry of a syscall is replayed. -/
theorem Follows.entry {full : FullRegs arch} {ts : UInt64} {tid : UInt32}
    (h : Follows (.entry full :: todo) (enterEvent ts tid (normalize arch full) :: events) none w) :
    ∃ w' p, exec (driveRound arch none) w = some (.ok none, w') ∧
      Follows todo events (some p) w' := by
  obtain ⟨w₁, hstanding, hscript, -, hround⟩ := h.syscallStop todo
    fun g hg => ⟨rfl, ⟨rfl, hg⟩, rfl⟩
  obtain ⟨w₂, p, hentry, hscript₂, hpending, hstanding₂⟩ := hstanding.onEntry hscript
  exact ⟨w₂, p, hround w₂ events hentry hscript₂, hscript₂, hpending, hstanding₂⟩

/-- The exit of a syscall is replayed; the exec itself is no stop, but it has left its
`SIGTRAP`. -/
theorem Follows.exit {c : Crossing arch} {ofExec : Bool} {ts : UInt64} {leader : Pid}
    {data : Bytes} {p : Pending} {ahead : List (Item arch)} (hlen : data.length ≤ maxRwCount)
    (hahead : ahead = .exit c ofExec :: todo ∨ ahead = .execed :: .exit c ofExec :: todo)
    (h : Follows ahead
      (syscallExitEvent ts leader (normalize arch c.entry) (normalize arch c.exit).ret data ::
        events) (some p) w) :
    ∃ w', exec (driveRound arch none) w = some (.ok none, w') ∧
      Follows (if ofExec then .execTrap :: todo else todo) events none w' := by
  have hadvance (g : Playing arch) : g.advance setupOptions ahead =
      g.advance setupOptions (.exit c ofExec :: todo) := by
    rcases hahead with rfl | rfl
    · rfl
    · rfl
  obtain ⟨w₁, hstanding, hscript, hnone, hround⟩ := h.syscallStop
    (if ofExec then .execTrap :: todo else todo) fun g hg => by
      rw [hadvance]
      exact ⟨rfl, ⟨by cases ofExec <;> rfl, hg⟩, rfl⟩
  obtain ⟨w₂, hexit, hscript₂, hpending, hstanding₂⟩ := hstanding.onExit p hlen hscript
  exact ⟨w₂, hround w₂ events hexit hscript₂, hscript₂, hpending.trans hnone, hstanding₂⟩

/-- A round that stops at a signal. -/
theorem Follows.signalStop {ahead : List (Item arch)} (h : Follows ahead events pending w)
    (sig : Signal)
    (hadvance : ∀ g : Playing arch, g.trapped = false →
      (g.advance setupOptions ahead).2 = .signal sig ∧ Q (g.advance setupOptions ahead).1) :
    ∃ w₁, Standing Q w₁ ∧ OnScript events w₁.session ∧ w₁.session.pending = pending ∧
      exec (driveRound arch none) w =
        exec (do onSignalStop sig; pure (none : Option ExitOutcome)) w₁ := by
  obtain ⟨hscript, hpending, hstanding⟩ := h
  obtain ⟨w₁, hstop, hsession, hnext⟩ := hstanding.advance (.signal sig) hadvance
  have hscript₁ : OnScript events w₁.session := by
    rw [hsession]
    exact ⟨hscript.ahead, hscript.within, hscript.finished, hscript.watchpoint, hscript.interval,
      hscript.multithreaded⟩
  refine ⟨w₁, hnext rfl, hscript₁, by rw [hsession]; exact hpending, ?_⟩
  rw [exec_driveRound hstop]
  simp only [Stop.status, onStatus, exec_bind, exec_onStopped hscript₁.watchpoint]

/-- The signal at hand has its record next: it is consumed, and the signal is queued. -/
theorem Standing.signal {ts : UInt64} {leader : Pid} {sig : Signal} (h : Standing Q w)
    (hscript : OnScript (signalEvent ts leader sig :: events) w.session) :
    ∃ w', exec (onSignalStop sig) w = some (.ok (), w') ∧ Standing Q w' ∧
      OnScript events w'.session ∧ w'.session.pending = w.session.pending ∧
      w'.session.resumeSignal = some sig := by
  have hnext := hscript.consume (some (UInt64.ofNat w.session.cursor))
  exact ⟨_, exec_onSignalStop sig (hscript.skip (isPlain_signalEvent ts leader sig))
    hscript.matchSignal, h, ⟨hnext.ahead, hnext.within, hnext.finished, hnext.watchpoint,
      hnext.interval, hnext.multithreaded⟩, rfl, rfl⟩

/-- A recorded signal is replayed. -/
theorem Follows.signal {sig : Signal} {ts : UInt64} {leader : Pid}
    (h : Follows (.signal sig :: todo) (signalEvent ts leader sig :: events) pending w) :
    ∃ w', exec (driveRound arch none) w = some (.ok none, w') ∧ Follows todo events pending w' := by
  obtain ⟨w₁, hstanding, hscript, hpending, hround⟩ := h.signalStop (Q := Ahead todo) sig
    fun g hg => ⟨rfl, rfl, hg⟩
  obtain ⟨w₂, hexec, hstanding₂, hscript₂, hpending₂, -⟩ := hstanding.signal hscript
  exact ⟨w₂, hround.trans (bind_ok hexec), hscript₂, hpending₂.trans hpending, hstanding₂⟩

/-- How the driver reports the end of a target. -/
def outcomeOf : Fate → ExitOutcome
  | .exited code => .exited code
  | .signaled sig _ => .signaled sig.num

/-- A round in which the tracee ends. -/
theorem exec_driveRound_end {fate : Fate} {w₁ : World (Os target.machine)}
    (hstop : exec (nextStop arch) w = some (.ok (fate.stop.status w.session.pid), w₁))
    (hsession : w₁.session = { w.session with resumeSignal := none }) :
    ∃ w', exec (driveRound arch none) w = some (.ok (some (outcomeOf fate)), w') ∧
      w'.session.cursor = w.session.cursor ∧ w'.session.records = w.session.records := by
  rw [exec_driveRound hstop]
  refine ⟨{ w₁ with session := { w₁.session with finished := some (outcomeOf fate) } }, ?_,
    by rw [hsession], by rw [hsession]⟩
  cases fate
  · rfl
  · rfl

/-- The end of a target is replayed. -/
theorem Follows.ended {fate : Fate} (h : Follows [.ended fate] events pending w) :
    ∃ w', exec (driveRound arch none) w = some (.ok (some (outcomeOf fate)), w') ∧
      w'.session.cursor = w.session.cursor ∧ w'.session.records = w.session.records := by
  obtain ⟨w₁, hstop, hsession, -⟩ := h.standing.advance (Q := fun _ => True) fate.stop
    fun g _ => ⟨rfl, trivial⟩
  exact exec_driveRound_end hstop hsession

/-- At the `SIGTRAP` of an exec that is about to be delivered, the tracee is killed. -/
theorem Standing.killed (h : Standing (fun g => g.trapped = true) w)
    (hsig : w.session.resumeSignal = some .trap) :
    ∃ w', exec (driveRound arch none) w = some (.ok (some (.signaled Signal.trap.num)), w') ∧
      w'.session.cursor = w.session.cursor ∧ w'.session.records = w.session.records := by
  obtain ⟨w₁, hstop, hsession, -⟩ := h.nextStop (Q := fun _ => True) (.signaled .trap true)
    fun g hg => by
      rw [hsig, Playing.resume, if_pos ⟨hg, rfl⟩]
      exact ⟨rfl, trivial⟩
  exact @exec_driveRound_end _ _ _ (.signaled .trap true) _ hstop hsession

/-! ## Whole targets -/

variable {leader : Pid} {last : Option (FullRegs arch)} {fate : Fate} {acts : List (Act arch)}

/-- The driver comes to its last round from `w`, which answers `r`; all records are consumed
then just when `all` holds. -/
def Ends (w : World (Os target.machine)) (r : Except ReplayError ExitOutcome) (all : Prop) : Prop :=
  ∃ k u w', Rounds (driveRound arch none) k w u ∧ Leaves (driveRound arch none) u r w' ∧
    (w'.session.cursor = w'.session.records.length ↔ all)

theorem Ends.after {r : Except ReplayError ExitOutcome} {all : Prop} {k : Nat}
    {u : World (Os target.machine)} (hrounds : Rounds (driveRound arch none) k w u)
    (h : Ends u r all) : Ends w r all := by
  obtain ⟨k', v, w', hrounds', hleaves, hall⟩ := h
  exact ⟨k + k', v, w', hrounds.trans hrounds', hleaves, hall⟩

/-- A round that answers ends the drive. -/
theorem OnScript.ends {outcome : ExitOutcome} (h : OnScript events w.session)
    (hround : ∃ w', exec (driveRound arch none) w = some (.ok (some outcome), w') ∧
      w'.session.cursor = w.session.cursor ∧ w'.session.records = w.session.records) :
    Ends w (.ok outcome) (events = []) := by
  obtain ⟨w', hexec, hcursor, hrecords⟩ := hround
  refine ⟨0, w, w', .zero w, .inl ⟨outcome, hexec, rfl⟩, ?_⟩
  rw [hcursor, hrecords]
  exact h.consumed_iff

/-- A syscall is replayed. -/
theorem Follows.crossing {c : Crossing arch} {chunk : List Event} {ahead : List (Item arch)}
    {ofExec : Bool} (hlogs : LogsCrossing leader c chunk)
    (hahead : ahead = .exit c ofExec :: todo ∨ ahead = .execed :: .exit c ofExec :: todo)
    (h : Follows (.entry c.entry :: ahead) (chunk ++ events) none w) :
    ∃ k w', Rounds (driveRound arch none) k w w' ∧
      Follows (if ofExec then .execTrap :: todo else todo) events none w' := by
  cases hlogs with
  | intro ts ts' hlen =>
    obtain ⟨w₁, p, hentry, hinside⟩ := Follows.entry h
    obtain ⟨w₂, hexit, hafter⟩ := hinside.exit (hlen.trans_le c.captured_le) hahead
    exact ⟨2, w₂, .succ hentry (.succ hexit (.zero w₂)), hafter⟩

/-- What comes after a list of acts: the entry of a syscall, or the end. -/
theorem Follows.ending (hlogs : LogsLast leader last events)
    (h : Follows ((last.map Item.entry).toList ++ [.ended fate]) events none w) :
    Ends w (.ok (outcomeOf fate)) True := by
  cases hlogs with
  | none =>
    have hends := h.session.ends h.ended
    simpa using hends
  | @some full ts =>
    obtain ⟨w₁, p, hentry, hinside⟩ := Follows.entry h
    have hends := hinside.session.ends hinside.ended
    exact .after (.succ hentry (.zero w₁)) (by simpa using hends)

/-- At the `SIGTRAP` of an exec where no signal is recorded next, the tracee is killed. -/
theorem Follows.trap (hnext : ∀ e ∈ events.head?, IsPlain e ∧ e.kind ≠ .signal)
    (h : Follows (.execTrap :: todo) events none w) :
    Ends w (.ok (.signaled Signal.trap.num)) (events = []) := by
  obtain ⟨w₁, hstanding, hscript, -, hround⟩ :=
    h.signalStop (Q := fun g => g.trapped = true) .trap fun g hg => ⟨rfl, rfl⟩
  obtain ⟨hskip, hmatch⟩ := hscript.matchSignal_passes hnext
  let w₂ : World (Os target.machine) :=
    { w₁ with session := { w₁.session with resumeSignal := some .trap } }
  have hfirst : exec (driveRound arch none) w = some (.ok none, w₂) :=
    hround.trans (bind_ok (exec_onSignalStop .trap hskip hmatch))
  have hscript₂ : OnScript events w₂.session :=
    ⟨hscript.ahead, hscript.within, hscript.finished, hscript.watchpoint, hscript.interval,
      hscript.multithreaded⟩
  have hstanding₂ : Standing (fun g => g.trapped = true) w₂ := hstanding
  exact .after (.succ hfirst (.zero w₂)) (hscript₂.ends (hstanding₂.killed rfl))

/-- Where a `SIGTRAP` is recorded next, it is taken for that one, and kills as well. -/
theorem Follows.trap_recorded {ts : UInt64}
    (h : Follows (.execTrap :: todo) (signalEvent ts leader .trap :: events) none w) :
    Ends w (.ok (.signaled Signal.trap.num)) (events = []) := by
  obtain ⟨w₁, hstanding, hscript, -, hround⟩ :=
    h.signalStop (Q := fun g => g.trapped = true) .trap fun g hg => ⟨rfl, rfl⟩
  obtain ⟨w₂, hexec, hstanding₂, hscript₂, -, hsig⟩ := hstanding.signal hscript
  exact .after (.succ (hround.trans (bind_ok hexec)) (.zero w₂))
    (hscript₂.ends (hstanding₂.killed hsig))

/-- Where another signal is recorded next, the drive diverges. -/
theorem Follows.trap_diverges {ts : UInt64} {other : Signal} (hne : other ≠ .trap)
    (h : Follows (.execTrap :: todo) (signalEvent ts leader other :: events) none w) :
    ∃ e all, Ends w (.error e) all := by
  obtain ⟨w₁, hstanding, hscript, -, hround⟩ :=
    h.signalStop (Q := fun g => g.trapped = true) .trap fun g hg => ⟨rfl, rfl⟩
  have hdiverges := hscript.onSignalStop_other hne
  exact ⟨_, _, 0, w, _, .zero w, .inr ⟨_, hround.trans (bind_error hdiverges), rfl⟩, Iff.rfl⟩

/-- No exec succeeds, but for one at which the target dies of a `SIGTRAP` anyway. -/
def ExecsLast (last : Option (FullRegs arch)) (fate : Fate) : List (Act arch) → Prop
  | [] => True
  | .exec _ :: acts =>
    (acts = [] ∨ ∃ genuine, acts = [.signal .trap genuine]) ∧ last = none ∧
      ∃ core, fate = .signaled .trap core
  | .call _ :: acts => ExecsLast last fate acts
  | .signal _ _ :: acts => ExecsLast last fate acts

theorem outcomeOf_eq_killed :
    ExitOutcome.signaled Signal.trap.num = outcomeOf fate ↔
      ∃ core, fate = .signaled .trap core := by
  constructor
  · intro h
    cases fate with
    | exited code => cases h
    | signaled sig core =>
      rcases Signal.num_injective (ExitOutcome.signaled.inj h) with rfl
      exact ⟨core, rfl⟩
  · rintro ⟨core, rfl⟩
    rfl

/-- Every act leaves an event. -/
theorem acts_eq_nil {body : List Event} (h : LogsActs leader acts body) :
    body = [] ↔ acts = [] := by
  cases h with
  | nil => exact ⟨fun _ => rfl, fun _ => rfl⟩
  | cons hfirst _ =>
    rcases hfirst with ⟨ts, ts', _⟩ | _ | ⟨ts, ts', _⟩
    · simp
    · simp
    · simp

theorem last_eq_none {tail : List Event} (h : LogsLast leader last tail) :
    tail = [] ↔ last = none := by
  cases h with
  | none => exact ⟨fun _ => rfl, fun _ => rfl⟩
  | some _ => simp

/-- At the exec of a target the drive ends. -/
theorem Follows.exec_ends {body tail : List Event} {c : Crossing arch}
    (hbody : LogsActs leader acts body) (htail : LogsLast leader last tail)
    (h : Follows (.execTrap :: todo) (body ++ tail) none w) :
    ∃ r all, Ends w r all ∧
      ((r = .ok (outcomeOf fate) ∧ all) ↔ ExecsLast last fate (.exec c :: acts)) := by
  have henter (ts : UInt64) (regs : Registers) :
      IsPlain (enterEvent ts (tidOf leader) regs) ∧
        (enterEvent ts (tidOf leader) regs).kind ≠ .signal := ⟨.inl rfl, by rintro ⟨⟩⟩
  cases hbody with
  | nil =>
    have hends := Follows.trap (by
      intro e he
      cases htail with
      | none => cases he
      | some ts =>
        rcases Option.some.inj he with rfl
        exact henter ts _) h
    refine ⟨_, _, hends, ?_⟩
    rw [Except.ok.injEq, outcomeOf_eq_killed, List.nil_append, last_eq_none htail]
    simp [ExecsLast, and_comm]
  | @cons act acts first rest hfirst hrest =>
    cases hfirst with
    | @call c chunk hchunk =>
      rcases hchunk with ⟨ts, ts', _⟩
      have hends := Follows.trap (by
        intro e he
        rcases Option.some.inj he with rfl
        exact henter ts _) h
      refine ⟨_, _, hends, ?_⟩
      simp [ExecsLast]
    | @exec c chunk hchunk =>
      rcases hchunk with ⟨ts, ts', _⟩
      have hends := Follows.trap (by
        intro e he
        rcases Option.some.inj he with rfl
        exact henter ts _) h
      refine ⟨_, _, hends, ?_⟩
      simp [ExecsLast]
    | @signal sig genuine ts =>
      -- The trap of the exec is taken for a recorded signal only if that is a trap, too.
      by_cases htrap : sig = .trap
      · subst htrap
        have hends : Ends w (.ok (.signaled Signal.trap.num)) (rest ++ tail = []) :=
          Follows.trap_recorded h
        refine ⟨_, _, hends, ?_⟩
        rw [Except.ok.injEq, outcomeOf_eq_killed, List.append_eq_nil_iff, acts_eq_nil hrest,
          last_eq_none htail]
        simp only [ExecsLast, List.cons_ne_nil, false_or, List.cons.injEq, true_and]
        constructor
        · rintro ⟨hfate, hacts, hlast⟩
          exact ⟨⟨genuine, hacts⟩, hlast, hfate⟩
        · rintro ⟨⟨-, hacts⟩, hlast, hfate⟩
          exact ⟨hfate, hacts, hlast⟩
      · obtain ⟨e, all, hends⟩ := Follows.trap_diverges htrap h
        refine ⟨_, all, hends, ?_⟩
        simp [ExecsLast, htrap]

/-- How the drive of a target ends, and whether that is as recorded. -/
theorem Follows.ends {body tail : List Event} (hbody : LogsActs leader acts body)
    (htail : LogsLast leader last tail)
    (h : Follows (acts.flatMap Act.items ++ ((last.map Item.entry).toList ++ [.ended fate]))
      (body ++ tail) none w) :
    ∃ r all, Ends w r all ∧ ((r = .ok (outcomeOf fate) ∧ all) ↔ ExecsLast last fate acts) := by
  induction hbody generalizing w with
  | nil =>
    refine ⟨_, True, Follows.ending htail h, ?_⟩
    simp [ExecsLast]
  | @cons act acts first rest hfirst hrest ih =>
    rw [List.flatMap_cons, List.append_assoc, List.append_assoc] at h
    cases hfirst with
    -- Two rounds: the entry and the exit.
    | @call c chunk hchunk =>
      obtain ⟨k, w₁, hrounds, hafter⟩ := Follows.crossing hchunk (.inl rfl) h
      obtain ⟨r, all, hends, hiff⟩ := ih hafter
      exact ⟨r, all, hends.after hrounds, hiff⟩
    | @signal sig genuine ts =>
      obtain ⟨w₁, hround, hafter⟩ := Follows.signal h
      obtain ⟨r, all, hends, hiff⟩ := ih hafter
      exact ⟨r, all, hends.after (.succ hround (.zero w₁)), hiff⟩
    -- The exec is a trap here, and the replay delivers it.
    | @exec c chunk hchunk =>
      obtain ⟨k, w₁, hrounds, htrap⟩ := Follows.crossing hchunk (.inr rfl) h
      obtain ⟨r, all, hends, hiff⟩ := Follows.exec_ends hrest htail htrap
      exact ⟨r, all, hends.after hrounds, hiff⟩

/-! ## Agreement -/

/-- A session is driven to the recorded end of its target, and consumes every record. -/
def Agrees (target : SoloTarget arch) (f : World (Os target.machine)) : Prop :=
  ∃ w, exec (drive arch none) f = some (.ok (outcomeOf target.fate), w) ∧
    w.session.cursor = w.session.records.length

/-- The records of a target are those of a single thread. -/
theorem traceIsMultithreaded_logs (hlogs : Logs leader target events) :
    traceIsMultithreaded (storedRecords 0 events) = false := by
  have hcrossing {c : Crossing arch} {chunk : List Event} (h : LogsCrossing leader c chunk) :
      ∀ e ∈ chunk, IsPlain e := by
    cases h with
    | intro ts ts' _ =>
      intro e he
      rcases List.mem_cons.mp he with rfl | he
      · exact .inl rfl
      · rcases List.mem_singleton.mp he with rfl
        exact .inr (.inl rfl)
  have hacts {acts : List (Act arch)} {body : List Event} (h : LogsActs leader acts body) :
      ∀ e ∈ body, IsPlain e := by
    induction h with
    | nil =>
      intro e he
      cases he
    | cons hfirst _ ih =>
      intro e he
      rcases List.mem_append.mp he with he | he
      · cases hfirst with
        | call h => exact hcrossing h e he
        | signal ts =>
          rcases List.mem_singleton.mp he with rfl
          exact isPlain_signalEvent ..
        | exec h => exact hcrossing h e he
      · exact ih e he
  have hlast {last : Option (FullRegs arch)} {tail : List Event} (h : LogsLast leader last tail) :
      ∀ e ∈ tail, IsPlain e := by
    intro e he
    cases h with
    | none => cases he
    | some ts =>
      rcases List.mem_singleton.mp he with rfl
      exact .inl rfl
  -- A log of one thread has no event of another's life or turn.
  have hplain : ∀ e ∈ events, IsPlain e := by
    obtain ⟨body, tail, rfl, hbody, htail⟩ := hlogs
    intro e he
    rcases List.mem_append.mp he with he | he
    · exact hacts hbody e he
    · exact hlast htail e he
  rw [traceIsMultithreaded_stored, List.any_eq_false]
  intro e he
  rw [not_lifecycle_of_plain (hplain e he)]
  decide

/-- A session launched on the records of a target has all of it ahead. -/
theorem Launched.follows {cmdline : Cmdline} (hlogs : Logs leader target events)
    {f : World (Os target.machine)} (hf : Launched cmdline (storedRecords 0 events) f) :
    Follows target.items events none f := by
  have hsingle := traceIsMultithreaded_logs hlogs
  obtain ⟨⟨pid, hsession⟩, j, hseat⟩ := hf
  constructor
  · rw [hsession]
    exact ⟨rfl, Nat.zero_le _, rfl, rfl, rfl, hsingle⟩
  · rw [hsession]
    rfl
  · exact ⟨j, _, hseat, entryImage_ready _ _, rfl, rfl⟩

/-- The drive answers as its last round does. -/
theorem Ends.drive {r : Except ReplayError ExitOutcome} {all : Prop}
    (hscript : OnScript events w.session) (h : Ends w r all) :
    ∃ w', exec (drive arch none) w = some (r, w') ∧
      (w'.session.cursor = w'.session.records.length ↔ all) := by
  obtain ⟨k, u, w', hrounds, hleaves, hall⟩ := h
  refine ⟨w', ?_, hall⟩
  rw [exec_drive_single hscript.finished hscript.multithreaded]
  exact loop_returns hrounds hleaves

/-- A recorded target is replayed to its recorded end just when no exec succeeds in it, but
for one at which it dies of a `SIGTRAP` anyway. -/
theorem Launched.agrees_iff {cmdline : Cmdline} (hlogs : Logs leader target events)
    {f : World (Os target.machine)} (hf : Launched cmdline (storedRecords 0 events) f) :
    Agrees target f ↔ ExecsLast target.last target.fate target.acts := by
  have hfollows := hf.follows hlogs
  obtain ⟨body, tail, rfl, hbody, htail⟩ := hlogs
  obtain ⟨r, all, hends, hiff⟩ := Follows.ends hbody htail hfollows
  obtain ⟨w', hdrive, hall⟩ := hends.drive hfollows.session
  rw [← hiff]
  constructor
  · rintro ⟨w, hexec, hcursor⟩
    rw [hdrive] at hexec
    obtain ⟨hr, rfl⟩ := Prod.mk.inj (Option.some.inj hexec)
    exact ⟨hr, hall.mp hcursor⟩
  · rintro ⟨rfl, hyes⟩
    exact ⟨w', hdrive, hall.mpr hyes⟩

/-- A session can be launched on any trace. -/
theorem exists_launched {M : Machine arch} (cmdline : Cmdline) (records : List Record)
    (os : Os M) :
    ∃ f, exec (launch arch) ⟨ReplaySession.ofTrace cmdline records, os⟩ = some (.ok (), f) := by
  have hspawn := exec_spawnStopped ⟨ReplaySession.ofTrace cmdline records, os⟩ cmdline
  exact ⟨_, bind_ok (f := fun pid => modifySelf fun s => { s with pid }) hspawn⟩

/-- Whatever the preemptions, a single-threaded target is recorded to its end; launched on
the records, a session is driven to that end, every record consumed, just when no exec
succeeds in the target, but for one at which it dies of a `SIGTRAP` anyway. -/
theorem solo_agrees_iff (target : SoloTarget arch) (cmdline : Cmdline) (policy : PidPolicy)
    (waits : List WaitCourse) (clock : Nat → UInt64) (os : Os target.machine) :
    ∃ outcome w f,
      exec (recordCommand arch cmdline)
          ⟨.ofLeader 0, RecordingHost.start target.machine policy waits clock⟩ =
        some (.ok outcome, w) ∧
      outcome.exitCode = target.fate.code ∧
      exec (launch arch)
          ⟨ReplaySession.ofTrace cmdline (storedRecords 0 w.object.writer), os⟩ =
        some (.ok (), f) ∧
      (Agrees target f ↔ ExecsLast target.last target.fate target.acts) := by
  obtain ⟨leader, outcome, w, hrecord, hlogs, hcode⟩ :=
    exec_recordCommand target policy waits clock cmdline
  obtain ⟨f, hlaunch⟩ := exists_launched cmdline (storedRecords 0 w.object.writer) os
  exact ⟨outcome, w, f, hrecord, hcode, hlaunch, (launch_launched hlaunch).agrees_iff hlogs⟩

/-! ## A target that execs -/

/-- The registers of a target with the number of a syscall, and its result. -/
def syscallRegs (nr ret : UInt64) : FullRegs .x86_64 :=
  ({ rax := ret, origRax := nr, rdi := 0, rsi := 0, rdx := 0, r10 := 0, r8 := 0, r9 := 0, rip := 0,
     others := [] } : X86Regs)

/-- A successful `execve`. -/
def execCrossing : Crossing .x86_64 where
  entry := syscallRegs 59 0
  exit := syscallRegs 59 0
  memory _ := 0
  fits := by rintro addr len ⟨⟩

/-- The target execs, and then exits. -/
def execTarget : SoloTarget .x86_64 where
  start := syscallRegs 59 0
  memory _ := 0
  acts := [.exec execCrossing]
  last := some (syscallRegs 231 0)
  fate := .exited 0

/-- It is recorded with exit code 0; the replay kills it at its exec. -/
theorem exec_killed_in_replay :
    ∃ outcome w f w',
      exec (recordCommand .x86_64 ⟨"sh", []⟩)
          ⟨.ofLeader 0, RecordingHost.start execTarget.machine nextFree [] fun _ => 0⟩ =
        some (.ok outcome, w) ∧
      outcome.exitCode = some 0 ∧
      exec (launch .x86_64)
          ⟨ReplaySession.ofTrace ⟨"sh", []⟩ (storedRecords 0 w.object.writer),
            emptyOs execTarget.machine⟩ = some (.ok (), f) ∧
      exec (drive .x86_64 none) f = some (.ok (.signaled Signal.trap.num), w') ∧
      w'.session.cursor ≠ w'.session.records.length ∧ ¬ Agrees execTarget f := by
  obtain ⟨leader, outcome, w, hrecord, hlogs, hcode⟩ :=
    exec_recordCommand execTarget nextFree [] (fun _ => 0) ⟨"sh", []⟩
  obtain ⟨f, hlaunch⟩ := exists_launched ⟨"sh", []⟩ (storedRecords 0 w.object.writer)
    (emptyOs execTarget.machine)
  have hlaunched := launch_launched hlaunch
  have hfollows := hlaunched.follows hlogs
  obtain ⟨body, tail, hevents, hbody, htail⟩ := hlogs
  rw [hevents] at hfollows
  -- the exec is the only act, and the entry of `exit_group` is recorded after it
  have hchunk : LogsCrossing leader execCrossing body := by
    generalize hacts : execTarget.acts = acts at hbody
    cases hbody with
    | nil => cases hacts
    | cons hfirst hrest =>
      cases hacts
      cases hrest
      cases hfirst with
      | exec hchunk => rwa [List.append_nil]
  have hlast : ∃ ts, tail =
      [enterEvent ts (tidOf leader) (normalize .x86_64 (syscallRegs 231 0))] := by
    generalize hlast : execTarget.last = last at htail
    cases htail with
    | none => cases hlast
    | some ts =>
      cases hlast
      exact ⟨ts, rfl⟩
  obtain ⟨ts, rfl⟩ := hlast
  obtain ⟨k, w₁, hrounds, htrap⟩ := Follows.crossing hchunk (.inr rfl) hfollows
  have hends := (Follows.trap (by
    intro e he
    rcases Option.some.inj he with rfl
    exact ⟨.inl rfl, by rintro ⟨⟩⟩) htrap).after hrounds
  obtain ⟨w', hdrive, hall⟩ := hends.drive hfollows.session
  refine ⟨outcome, w, f, w', hrecord, hcode, hlaunch, hdrive, ?_, ?_⟩
  · intro hcursor
    cases hall.mp hcursor
  · rintro ⟨v, hexec, -⟩
    rw [hdrive] at hexec
    cases hexec

end Mirrorscope.Replay
