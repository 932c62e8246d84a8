import Mirrorscope.Capture.Remote
import Mirrorscope.Replay.Upkeep

/-! # What the replayer reads of its tracee

Every value that a session remembers of a watched range, and every value of a hit, is the
buffer of one filmed read.

The invariant is `Remembered`: each value the session holds of a watched range stands in the
film as the answer of a read. Only `watch` and `onWatchHit` add values, each right after its
read; everything else keeps the values or drops some.
* `readMemory_remembered`: a read puts its answer in the film.
* `remembered_upkeep`, `remembered_calls`: the invariant over the parts of a session.
* `reachable_remembered`: the invariant of every reachable session.
-/

namespace Mirrorscope.Replay

open Linux Run
open Trace (Cmdline Record)

variable {arch : Arch} {ω α ε : Type} [Ptrace arch ω]

/-! ## One read -/

/-- The bytes are an answer of a read of the tracee. -/
def ReadsMemory (arch : Arch) [Ptrace arch ω] (r : RemoteRead) (w : World ω) (bytes : Bytes) :
    Prop :=
  ∃ w', exec (readMemory arch r.pid r.addr r.len) w = some (.ok bytes, w')

theorem readsMemory_iff (r : RemoteRead) (w : World ω) (bytes : Bytes) :
    ReadsMemory arch r w bytes ↔
      ∃ copied, r.copies arch w.os copied ∧ bytes = buffer r.len copied := by
  constructor
  · rintro ⟨w', hexec⟩
    obtain ⟨copied, u, hcall, hpure⟩ := bind_ok_inv hexec
    obtain ⟨hbytes, -⟩ := Prod.mk.inj (Option.some.inj hpure)
    rcases exec_osOr_inv hcall with ⟨a, os', hread, ha, -⟩ | ⟨e, os', -, he, -⟩
    · rcases Except.ok.inj ha with rfl
      exact ⟨copied, congrArg Prod.fst hread, (Except.ok.inj hbytes).symm⟩
    · cases he
  · rintro ⟨copied, hcopies, rfl⟩
    exact ⟨_, bind_ok (exec_osOr_ok (Prod.ext hcopies rfl))⟩

/-! ## A session -/

instance [Unwind ω] : Unwind (Filmed RemoteRead ω) where
  forPid pid := Monitored.silent (Unwind.forPid pid)
  registers pid := Monitored.silent (Unwind.registers pid)
  backtrace pid pc := Monitored.silent (Unwind.backtrace pid pc)

/-- The values a session has of the watched range. -/
def ReplaySession.watchValues (s : ReplaySession) : List Bytes :=
  s.lastValue.toList ++ s.watchHits.flatMap fun hit => hit.oldValue.toList ++ [hit.newValue]

/-- Every such value is the buffer of a filmed read. -/
def Remembered (arch : Arch) [Ptrace arch ω] (s : ReplaySession)
    (film : List (Shot RemoteRead ω)) : Prop :=
  ∀ value ∈ s.watchValues, ∃ r os, Supplied arch film r value os

theorem Remembered.congr {s s' : ReplaySession} {film : List (Shot RemoteRead ω)}
    (h : Remembered arch s film) (hvalues : ∀ value ∈ s'.watchValues, value ∈ s.watchValues) :
    Remembered arch s' film :=
  fun value hvalue => h value (hvalues value hvalue)

theorem Remembered.append {s : ReplaySession} {film more : List (Shot RemoteRead ω)}
    (h : Remembered arch s film) : Remembered arch s (film ++ more) := by
  intro value hvalue
  obtain ⟨r, os, hsupplied⟩ := h value hvalue
  exact ⟨r, os, hsupplied.append⟩

/-- A hit adds the value that was read for it. -/
theorem Remembered.hit {s : ReplaySession} {film : List (Shot RemoteRead ω)}
    (h : Remembered arch s film) {value : Bytes} (hvalue : ∃ r os, Supplied arch film r value os)
    {hit : WatchHit} (hold : hit.oldValue = s.lastValue) (hnew : hit.newValue = value) :
    Remembered arch { s with lastValue := some value, watchHits := s.watchHits ++ [hit] } film := by
  intro v hv
  simp only [ReplaySession.watchValues, List.flatMap_append, List.flatMap_singleton, hold, hnew,
    Option.toList_some, List.mem_append, List.mem_singleton] at hv
  rcases hv with rfl | hv | hv | rfl
  · exact hvalue
  · exact h v (List.mem_append_right _ hv)
  · exact h v (List.mem_append_left _ hv)
  · exact hvalue

/-! ### The parts of a session -/

section Parts

/-- A read is in the film after it. -/
theorem readMemory_remembered (pid : Pid) (addr : UInt64) (len : Nat) :
    Spec (Seen (Remembered arch))
      (readMemory arch pid addr len : Method (Filmed RemoteRead ω) Bytes)
      (fun value => Seen fun s film => Remembered arch s film ∧
        ∃ r os, Supplied arch film r value os)
      (fun _ => Seen (Remembered arch)) := by
  refine Spec.bind (Q := fun copied => Seen fun s film => Remembered arch s film ∧
    ∃ r os, Supplied arch film r (buffer len copied) os) ?_ fun copied => Spec.pure fun w hw => hw
  intro w hw r w' hexec
  rcases exec_osOr_inv hexec with ⟨copied, os', hcall, rfl, rfl⟩ | ⟨e, os', hcall, rfl, rfl⟩
  · obtain ⟨hcopied, rfl⟩ := Prod.mk.inj hcall
    refine ⟨hw.append, ⟨pid, addr, len⟩, w.os.os, ⟨?_, copied, hcopied, rfl⟩⟩
    refine ⟨(Ptrace.processVmReadv arch pid addr len w.os.os).2, ?_⟩
    exact List.mem_append_right _ (List.mem_singleton.mpr rfl)
  · obtain ⟨-, rfl⟩ := Prod.mk.inj hcall
    exact hw.append

omit [Ptrace arch ω] in
/-- Writing the session leaves the film as it is. -/
theorem modify_remembered {P Q : ReplaySession → List (Shot RemoteRead ω) → Prop}
    {E : ReplayError → World (Filmed RemoteRead ω) → Prop} {f : ReplaySession → ReplaySession}
    (h : ∀ s film, P s film → Q (f s) film) :
    Spec (Seen P) (modifySelf f : Method (Filmed RemoteRead ω) Unit) (fun _ => Seen Q) E :=
  modifySelf_upkeep fun w hw => h w.session w.os.notes hw

/-- Arming writes debug registers, and films nothing. -/
theorem arm_remembered (pid : Pid) (addr : UInt64) (len : UInt8) (kind : WatchKind) :
    Keeps (Seen (Remembered arch))
      (WatchHw.arm arch pid addr len kind : Method (Filmed RemoteRead ω) Unit) := by
  cases arch with
  | x86_64 =>
    refine Keeps.bind orFail_upkeep fun _ => ?_
    exact Keeps.bind silent_seen fun _ => silent_seen
  | aarch64 =>
    refine Keeps.bind orFail_upkeep fun control => ?_
    exact silent_seen

theorem disarm_remembered (pid : Pid) :
    Keeps (Seen (Remembered arch))
      (WatchHw.disarm arch pid : Method (Filmed RemoteRead ω) Unit) := by
  cases arch with
  | x86_64 => exact silent_seen
  | aarch64 => exact silent_seen

theorem forEach_remembered {β : Type} {f : β → Method (Filmed RemoteRead ω) Unit}
    (h : ∀ b, Keeps (Seen (Remembered arch)) (f b)) (bs : List β) :
    Keeps (Seen (Remembered arch)) (forEach f bs) := by
  induction bs with
  | nil => exact Keeps.pure
  | cons b bs ih => exact Keeps.bind (h b) fun _ => ih

/-- A snapshot is made of calls that are not filmed. -/
theorem forkSnapshot_remembered (pid : Pid) :
    Keeps (Seen (Remembered arch))
      (forkSnapshot arch pid : Method (Filmed RemoteRead ω) Pid) := by
  refine Keeps.bind silent_seen fun saved => ?_
  refine Keeps.bind silent_seen fun _ => ?_
  refine Keeps.bind silent_seen fun _ => ?_
  refine Keeps.bind ?_ fun child => ?_
  · refine Keeps.bind silent_seen fun status => ?_
    split
    · split
      · exact silent_seen
      · exact Keeps.fail
    · exact Keeps.fail
  refine Keeps.bind ?_ fun _ => ?_
  · refine Keeps.bind silent_seen fun status => ?_
    split
    · exact Keeps.pure
    · exact Keeps.pure
    · exact Keeps.fail
  refine Keeps.bind silent_seen fun _ => ?_
  refine Keeps.bind ?_ fun _ => ?_
  · refine Keeps.bind silent_seen fun _ => Keeps.bind silent_seen fun status => ?_
    split
    · exact Keeps.pure
    · exact Keeps.fail
  refine Keeps.bind silent_seen fun _ => ?_
  exact Keeps.bind silent_seen fun _ => Keeps.pure

theorem rearmWatchpoint_remembered :
    Keeps (Seen (Remembered arch))
      (rearmWatchpoint arch : Method (Filmed RemoteRead ω) Unit) := by
  refine Keeps.bind (modify_remembered fun s film hs => hs.congr fun _ hv => hv) fun _ => ?_
  refine Keeps.bind self_upkeep fun s => ?_
  split
  · exact arm_remembered _ _ _ _
  · exact Keeps.pure

theorem killActive_remembered :
    Keeps (Seen (Remembered arch)) (killActive arch : Method (Filmed RemoteRead ω) Unit) := by
  refine Keeps.bind self_upkeep fun s => ?_
  split
  · exact Keeps.pure
  · exact Keeps.bind (Keeps.attempt silent_seen) fun _ => Keeps.attempt silent_seen

/-- The session of a restarted process keeps its values; they were read of an earlier one. -/
theorem restart_remembered (start : StartPoint) :
    Keeps (Seen (Remembered arch)) (restart arch start : Method (Filmed RemoteRead ω) Unit) := by
  unfold restart
  split
  · refine Keeps.bind self_upkeep fun s => ?_
    split
    · exact Keeps.never
    · refine Keeps.bind (forkSnapshot_remembered _) fun fresh => ?_
      refine Keeps.bind killActive_remembered fun _ => ?_
      refine Keeps.bind (modify_remembered fun s film hs => hs.congr fun _ hv => hv) fun _ => ?_
      exact rearmWatchpoint_remembered
  · refine Keeps.bind killActive_remembered fun _ => ?_
    refine Keeps.bind self_upkeep fun s => ?_
    refine Keeps.bind ?_ fun pid => ?_
    · refine Keeps.bind silent_seen fun pid => ?_
      refine Keeps.bind silent_seen fun _ => ?_
      exact Keeps.bind silent_seen fun _ => Keeps.pure
    refine Keeps.bind (modify_remembered fun s film hs => hs.congr fun _ hv => hv) fun _ => ?_
    exact rearmWatchpoint_remembered

/-- The value of a fresh watchpoint is the one read for it. -/
theorem watch_remembered (addr : UInt64) (len : UInt8) (kind : WatchKind) :
    Keeps (Seen (Remembered arch))
      (watch arch addr len kind : Method (Filmed RemoteRead ω) Unit) := by
  refine Keeps.bind orFail_upkeep fun _ => ?_
  refine Keeps.bind self_upkeep fun s => ?_
  refine Keeps.bind (forEach_remembered (fun live => arm_remembered live addr len kind) _)
    fun _ => ?_
  refine Spec.bind (readMemory_remembered s.pid addr len.toNat) fun value => ?_
  refine modify_remembered fun s film hs v hv => ?_
  -- A value is the one just read, or of an earlier hit.
  rcases List.mem_append.mp hv with hlast | hhits
  · obtain rfl : v = value := by simpa using hlast
    exact hs.2
  · exact hs.1 v (List.mem_append_right _ hhits)

/-- Clearing drops the cached value and keeps the hits. -/
theorem clearWatch_remembered :
    Keeps (Seen (Remembered arch))
      (clearWatch arch : Method (Filmed RemoteRead ω) Unit) := by
  refine Keeps.bind self_upkeep fun s => ?_
  refine Keeps.bind (modify_remembered fun s film hs => hs.congr fun _ hv => hv) fun _ => ?_
  refine Keeps.bind (Keeps.when (forEach_remembered disarm_remembered _)) fun _ => ?_
  exact modify_remembered fun s film hs => hs.congr fun _ hv => List.mem_append_right _ hv

variable [Unwind ω]

theorem captureBacktrace_remembered (pid : Pid) :
    Keeps (Seen (Remembered arch))
      (captureBacktrace pid : Method (Filmed RemoteRead ω) (UInt64 × List SymbolizedFrame)) := by
  refine Keeps.bind self_upkeep fun s => ?_
  refine Keeps.bind (modify_remembered fun s film hs => hs.congr fun _ hv => hv) fun _ => ?_
  refine Keeps.bind ?_ fun u => ?_
  · cases s.unwinder with
    | some u => exact Keeps.pure
    | none => exact Keeps.bind silent_seen fun _ => Keeps.pure
  refine Keeps.bind silent_seen fun pc => ?_
  refine Keeps.bind silent_seen fun frames => ?_
  refine Keeps.bind (modify_remembered fun s film hs => hs.congr fun _ hv => hv) fun _ => ?_
  exact Keeps.pure

omit [Unwind ω] in
theorem stepOverWatch_remembered (pid : Pid) :
    Keeps (Seen (Remembered arch))
      (stepOverWatch arch pid : Method (Filmed RemoteRead ω) Unit) := by
  cases arch with
  | x86_64 => exact silent_seen
  | aarch64 =>
    refine Keeps.bind self_upkeep fun s => ?_
    split
    · exact Keeps.pure
    refine Keeps.bind (disarm_remembered pid) fun _ => ?_
    refine Keeps.bind silent_seen fun _ => ?_
    refine Keeps.bind silent_seen fun status => ?_
    split
    · exact arm_remembered _ _ _ _
    · exact Keeps.fail

/-- A hit is recorded with the value read after the step over it. -/
theorem onWatchHit_remembered (pid : Pid) :
    Keeps (Seen (Remembered arch))
      (onWatchHit arch pid : Method (Filmed RemoteRead ω) Unit) := by
  refine Keeps.bind self_upkeep fun s => ?_
  split
  · exact Keeps.pure
  · rename_i wp _
    refine Keeps.bind (captureBacktrace_remembered pid) fun read => ?_
    refine Keeps.bind (stepOverWatch_remembered pid) fun _ => ?_
    refine Spec.bind (readMemory_remembered pid wp.addr wp.len.toNat) fun value => ?_
    exact modify_remembered fun s film hs => hs.1.hit hs.2 rfl rfl

omit [Unwind ω] in
theorem isWatchHit_remembered (pid : Pid) :
    Keeps (Seen (Remembered arch))
      (isWatchHit arch pid : Method (Filmed RemoteRead ω) Bool) := by
  refine Keeps.bind self_upkeep fun s => ?_
  split
  · exact Keeps.pure
  · exact Keeps.bind silent_seen fun code => Keeps.pure

end Parts

/-! ### The whole of it -/

variable [Unwind ω]

/-- The invariant, with one condition for every stage of a stop. -/
theorem remembered_upkeep :
    Upkeep arch (Seen (Remembered arch) : World (Filmed RemoteRead ω) → Prop)
      (Seen (Remembered arch))
    { Running := fun _ => Seen (Remembered arch)
      Stopped := fun _ _ => Seen (Remembered arch)
      Trapped := fun _ => Seen (Remembered arch)
      Born := fun _ => Seen (Remembered arch)
      Bound := fun _ => Seen (Remembered arch) } where
  weaken w hw := hw
  setoptions pid := silent_seen
  saveFull pid := silent_seen
  restoreFull pid regs := silent_seen
  setSyscallNr pid nr := silent_seen
  processVmWritev pid addr data := silent_seen
  resume pid sig := silent_seen
  wait pid flags := silent_seen (P := Remembered arch)
  rest pid status w hne hw := hw
  trap pid q := (isWatchHit_remembered pid).mono (fun _ hw => hw)
    (fun hit w hw => by cases hit <;> exact hw) (fun _ _ hw => hw)
  hit := onWatchHit_remembered
  event pid := silent_seen
  register child seq := by
    show Keeps (Seen (Remembered arch)) _
    refine Keeps.bind silent_seen fun status => ?_
    split
    · exact silent_seen
    · exact silent_seen
    · exact Keeps.fail
  bindChild seq tid child parent vforked := by
    show Keeps (Seen (Remembered arch)) _
    refine Keeps.bind state_keeps_upkeep fun mt => ?_
    refine Keeps.bind orFail_upkeep fun tidmap => ?_
    refine Keeps.bind state_keeps_upkeep fun mt => ?_
    exact modify_remembered fun s film hs => hs.congr fun _ hv => hv
  armChild child := by
    refine Keeps.bind self_upkeep fun s => ?_
    split
    · exact arm_remembered _ _ _ _
    · exact Keeps.pure
  place w cursor currentSeq pending resumeSignal lastRegs hw := hw.congr fun _ hv => hv
  threads w mt mt' hmt hshrinks hw := hw.congr fun _ hv => hv
  seat w hmt hfinished hw := hw.congr fun _ hv => hv
  finished w outcome hw := hw.congr fun _ hv => hv
  checkpoints w cs hsingle hw := hw.congr fun _ hv => hv
  snapshot pid := (forkSnapshot_remembered pid).mono (fun _ hw => hw.2) (fun _ _ hw => hw)
    (fun _ _ hw => hw)

omit [Unwind ω] in
/-- The calls that do not drive: of these only the draining of the hits drops values. -/
theorem remembered_calls :
    CallUpkeep arch (Seen (Remembered arch) : World (Filmed RemoteRead ω) → Prop)
      (Seen (Remembered arch)) where
  interval w n hw := hw.congr fun _ hv => hv
  drained w hw := hw.congr fun v hv => by
    refine List.mem_append_left _ ?_
    simpa [ReplaySession.watchValues, World.withSession] using hv
  restart := restart_remembered

/-- Every watch value of a session was read. -/
theorem reachable_remembered {w : World (Filmed RemoteRead ω)} (h : Reachable arch w) :
    Remembered arch w.session w.os.notes := by
  induction h with
  | @launch cmdline records os w hlaunch =>
    obtain ⟨pid, hsession⟩ := launch_session arch hlaunch
    intro value hvalue
    rw [hsession] at hvalue
    exact absurd hvalue List.not_mem_nil
  | @call w w' r hw c hcall ih =>
    have hpost := remembered_upkeep.perform remembered_calls c
      (fun addr len kind _ => watch_remembered addr len kind) (fun _ => clearWatch_remembered)
      w ih r w' hcall
    cases r with
    | ok outcome => exact hpost
    | error e => exact hpost

end Mirrorscope.Replay
