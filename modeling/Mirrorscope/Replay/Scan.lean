import Mirrorscope.Replay.Film
import Mirrorscope.Replay.Finality

/-! # Scanning a replay for accesses

A scan replays a trace from entry to end with a watchpoint set, and returns the hits. A
change of the range that an instruction makes traps; one that the replayer makes, when it
feeds back the result of a syscall, does not.
-/

namespace Mirrorscope.Replay

open Capture Linux Run
open Trace (Cmdline Record)

variable {ω : Type}

/-! ## The scan -/

/-- A query for the accesses to a range across the history. -/
structure WatchpointScan where
  addr : UInt64
  len : UInt8
  kind : WatchKind
deriving DecidableEq, Repr

namespace WatchpointScan

/-- Watch for writes. -/
def new (addr : UInt64) (len : UInt8) : WatchpointScan := { addr, len, kind := .write }

/-- Watch for reads as well. -/
def watchReads (scan : WatchpointScan) : WatchpointScan := { scan with kind := .readWrite }

def request (scan : WatchpointScan) : Watchpoint := ⟨scan.addr, scan.len, scan.kind⟩

variable (arch : Arch) [Ptrace arch ω] [Unwind ω]

/-- Launch the replay, arm the watchpoint, replay to the end, and return every hit. -/
def run (scan : WatchpointScan) : Method ω (List WatchHit) := do
  launch arch
  watch arch scan.addr scan.len scan.kind
  let _ ← runToEnd arch
  takeWatchHits

end WatchpointScan

/-! ## Changes and their entries -/

section

variable (arch : Arch) [Ptrace arch ω] (wp : Watchpoint)

/-- The call changes no task's bytes in the range. -/
def Changeless (shot : Shot Motion ω) : Prop :=
  ∀ pid a b, held arch wp pid shot.before = some a → held arch wp pid shot.after = some b → a = b

/-- The hit is the entry of the access: its new value is what the range held in the end. -/
def Caught (seg : List (Shot Motion ω)) (hit : WatchHit) : Prop :=
  ∃ pid start finish, IsAccess wp pid start finish seg ∧
    held arch wp pid finish = some hit.newValue

/-- Every change lies in an access that has its hit, in order. -/
def Exhaustive (log : List (Shot Motion ω)) (hits : List WatchHit) : Prop :=
  Entered (Changeless arch wp) (Caught arch wp) log hits

/-- The accounts of a scan. -/
def scanLedger : Ledger (ω := ω) arch wp where
  Tracee _ := True
  Calm := Changeless arch wp
  Fair _ := True
  Last _ _ := True
  Right := Caught arch wp
  calm _ _ := trivial
  hit haccess _ _ _ _ hheld hnew := ⟨⟨_, _, _, haccess, by rw [hheld, hnew]⟩, trivial⟩

end

variable {arch : Arch} [Ptrace arch ω] {wp : Watchpoint} {log : List (Shot Motion ω)}
  {hits : List WatchHit}

/-- No access has a write of the replayer in it. -/
theorem IsAccess.not_wrote {pid : Pid} {start finish : ω} {seg : List (Shot Motion ω)}
    (h : IsAccess wp pid start finish seg) {shot : Shot Motion ω} (hshot : shot ∈ seg) (p : Pid) :
    shot.motion ≠ .wrote p := by
  rcases h.shape with ⟨first, mid, last, rfl, hfirst, -, hmid, -, ⟨bytes, hlast⟩, -⟩
  intro hwrote
  rcases List.mem_append.mp hshot with hmem | hmem
  · rcases List.mem_cons.mp hmem with rfl | hmem
    · rw [hfirst] at hwrote
      cases hwrote
    · have hinside := hmid shot hmem
      rw [hwrote] at hinside
      cases hinside
  · rcases List.mem_singleton.mp hmem with rfl
    rw [hlast] at hwrote
    cases hwrote

/-- Where every change has its entry, the replayer has made none. -/
theorem Exhaustive.untouched (h : Exhaustive arch wp log hits) :
    Untouched (Changeless arch wp) log := by
  unfold Exhaustive at h
  induction h with
  | nil log hquiet => exact fun shot hshot _ _ => hquiet shot hshot
  | hit earlier right later hquiet ih =>
    intro shot hshot pid hwrote
    rcases List.mem_append.mp hshot with hmem | hmem
    · rcases List.mem_append.mp hmem with hmem | hmem
      · exact ih shot hmem pid hwrote
      · rcases right with ⟨p, start, finish, haccess, -⟩
        exact absurd hwrote (haccess.not_wrote hmem pid)
    · exact hquiet shot hmem

theorem obeyed_scan (hlawful : Lawful (Changeless arch wp) log)
    (huntouched : Untouched (Changeless arch wp) log) : (scanLedger arch wp).Obeyed log := by
  intro before shot after heq
  refine ⟨hlawful before shot after heq, trivial, ?_⟩
  intro pid hwrote
  refine huntouched shot ?_ pid hwrote
  rw [heq]
  exact List.mem_append_right _ List.mem_cons_self

/-! ## A scan that returns -/

/-- A request that is accepted is the session's. -/
theorem watch_request (addr : UInt64) (len : UInt8) (kind : WatchKind) {hits : List WatchHit} :
    Spec (On fun s => s.watchHits = hits) (watch arch addr len kind : Method ω Unit)
      (fun _ => On fun s => s.watchpoint = some ⟨addr, len, kind⟩ ∧ s.watchHits = hits)
      (fun _ _ => True) := by
  have hany {α : Type} {m : Method ω α} (h : KeepsSession (fun s => s.watchHits = hits) m) :
      Spec (On fun s => s.watchHits = hits) m (fun _ => On fun s => s.watchHits = hits)
        (fun _ _ => True) := h.mono (fun _ hw => hw) (fun _ _ hw => hw) (fun _ _ _ => trivial)
  refine Spec.bind (hany orFail_keeps) fun _ => ?_
  refine Spec.bind (hany self_keeps) fun s => ?_
  refine Spec.bind
    (hany (forEach_keeps (fun live => arm_keeps arch live addr len kind) _)) fun _ => ?_
  refine Spec.bind (hany (readMemory_keeps arch s.pid addr len.toNat)) fun value => ?_
  exact modifySelf_upkeep fun w hw => ⟨rfl, hw⟩

variable [Unwind ω]

/-- A process whose stops are given, each with what the word at `0x5000` holds by then. -/
structure Typed where
  stops : List (WaitStatus × Bytes)
  word : Bytes

instance : Ptrace .x86_64 Typed where
  spawnTraced _ d := (.ok 1, { d with word := List.replicate 8 0 })
  syscall _ _ d := (.ok (), d)
  step _ d := (.ok (), d)
  kill _ d := (.ok (), d)
  waitpid _ _ d :=
    match d.stops with
    | [] => (.error Errno.ECHILD, d)
    | (stop, word) :: stops => (.ok stop, { stops, word })
  setoptions _ _ d := (.ok (), d)
  getevent _ d := (.error Errno.ESRCH, d)
  -- every syscall is a read into the word
  getregs _ d := (.ok { regsWithNr .x86_64 0 with rsi := 0x5000 }, d)
  setregs _ _ d := (.ok (), d)
  setSyscallNr _ _ d := (.ok (), d)
  processVmReadv _ addr len d :=
    (if addr = 0x5000 then .ok (d.word.take len) else .error Errno.EFAULT, d)
  processVmWritev _ addr data d :=
    if addr = 0x5000 then (.ok data.length, { d with word := data }) else (.error Errno.EFAULT, d)
  pokeUser _ _ _ d := (.ok (), d)
  setHwWatch _ _ _ d := (.ok (), d)
  getsiginfo _ d := (.ok WatchHw.trapHwbkpt, d)

instance : Unwind Typed where
  forPid _ d := (.ok (), d)
  registers _ d := (.ok 0x1000, d)
  backtrace _ _ d := (.ok [], d)

/-- The word as it is at entry, and after it was written. -/
def blank : Bytes := List.replicate 8 0

def letter : Bytes := 1 :: List.replicate 7 0

theorem held_typed (wp : Watchpoint) (pid : Pid) (os : Typed) :
    held .x86_64 wp pid os = if wp.addr = 0x5000 then
      some (os.word.take wp.len.toNat ++
        List.replicate (wp.len.toNat - (os.word.take wp.len.toNat).length) 0) else none := by
  have hread : (Ptrace.processVmReadv .x86_64 pid wp.addr wp.len.toNat os).1 =
      (if wp.addr = 0x5000 then .ok (os.word.take wp.len.toNat) else .error Errno.EFAULT) := rfl
  unfold held
  rw [hread]
  by_cases haddr : wp.addr = 0x5000
  · rw [if_pos haddr, if_pos haddr]
  · rw [if_neg haddr, if_neg haddr]

/-- A shot that leaves the word alone changes nothing. -/
theorem changeless_typed {wp : Watchpoint} {shot : Shot Motion Typed}
    (h : shot.after.word = shot.before.word) : Changeless .x86_64 wp shot := by
  intro pid a b ha hb
  rw [held_typed, h, ← held_typed, ha] at hb
  exact Option.some.inj hb

/-- The scan for writes to the word. -/
def wordScan : WatchpointScan := .new 0x5000 8

/-- The replay of a process, to its end in three rounds at most. -/
theorem exec_wordScan {records : List Record} {start : Filmed Motion Typed}
    {w₁ w₂ w₃ : World (Filmed Motion Typed)} {outcome : ExitOutcome}
    (hlaunch : exec (launch .x86_64) ⟨ReplaySession.ofTrace ⟨"true", []⟩ records, start⟩ =
      some (.ok (), w₁))
    (hwatch : exec (watch .x86_64 0x5000 8 .write) w₁ = some (.ok (), w₂))
    (hdrive : exec (drive .x86_64 none) w₂ = some (.ok outcome, w₃)) :
    exec (wordScan.run .x86_64) ⟨ReplaySession.ofTrace ⟨"true", []⟩ records, start⟩ =
      some (.ok w₃.session.watchHits, w₃.withSession fun s => { s with watchHits := [] }) := by
  rw [WatchpointScan.run, bind_ok hlaunch]
  exact (bind_ok hwatch).trans (bind_ok hdrive)

/-- The process writes the word, and exits. -/
def typing : Typed where
  stops := [(.stopped 1 .trap, blank), (.stopped 1 .trap, letter), (.exited 1 0, letter)]
  word := blank

/-- The film of the write and of the exit. -/
def typingLog : List (Shot Motion Typed) :=
  let a : Typed := ⟨[(.stopped 1 .trap, letter), (.exited 1 0, letter)], blank⟩
  let b : Typed := ⟨[(.exited 1 0, letter)], letter⟩
  let c : Typed := ⟨[], letter⟩
  [⟨.resumed 1, a, a⟩, ⟨.waited 1 (.ok (.stopped 1 .trap)), a, b⟩,
   ⟨.asked 1 (.ok WatchHw.trapHwbkpt), b, b⟩, ⟨.other, b, b⟩, ⟨.other, b, b⟩, ⟨.other, b, b⟩,
   ⟨.other, b, b⟩, ⟨.read 1 0x5000 8 (.ok letter), b, b⟩, ⟨.resumed 1, b, b⟩,
   ⟨.waited 1 (.ok (.exited 1 0)), b, c⟩]

/-- Nothing but the trap changes the word. -/
theorem lawful_typing : Lawful (Changeless .x86_64 wordScan.request) typingLog := by
  have hsnoc : Lawful (Changeless .x86_64 wordScan.request)
      (typingLog.foldl (fun log shot => log ++ [shot]) []) := by
    unfold typingLog Lawful
    simp only [List.foldl_cons, List.foldl_nil, List.each_snoc]
    simp [List.each_nil, stageOf, Stage.next, Stage.Allows, Stage.isTrap, changeless_typed]
  exact hsnoc

/-- The process reads into the word, and exits. -/
def feeding : Typed where
  stops := [(.stopped 1 .trap, blank), (.ptraceSyscall 1, blank), (.ptraceSyscall 1, blank),
    (.exited 1 0, letter)]
  word := blank

/-- The recording of the read. -/
def feedRecords : List Record :=
  [⟨0, .newWithTid .syscallEnter 0 1 (SyscallEnter.encode ⟨0, #v[0, 0x5000, 8, 0, 0, 0]⟩)⟩,
   ⟨1, .newWithTid .syscallExit 0 1 (SyscallExit.encode ⟨0, 8, letter⟩)⟩]

/-- The film of the read and of the exit. -/
def feedingLog : List (Shot Motion Typed) :=
  let a : Typed := ⟨[(.ptraceSyscall 1, blank), (.ptraceSyscall 1, blank), (.exited 1 0, letter)],
    blank⟩
  let b : Typed := ⟨[(.ptraceSyscall 1, blank), (.exited 1 0, letter)], blank⟩
  let c : Typed := ⟨[(.exited 1 0, letter)], blank⟩
  let d : Typed := ⟨[(.exited 1 0, letter)], letter⟩
  let e : Typed := ⟨[], letter⟩
  [⟨.resumed 1, a, a⟩, ⟨.waited 1 (.ok (.ptraceSyscall 1)), a, b⟩, ⟨.other, b, b⟩,
   ⟨.other, b, b⟩, ⟨.other, b, b⟩, ⟨.resumed 1, b, b⟩, ⟨.waited 1 (.ok (.ptraceSyscall 1)), b, c⟩,
   ⟨.other, c, c⟩, ⟨.wrote 1, c, d⟩, ⟨.other, d, d⟩, ⟨.other, d, d⟩, ⟨.resumed 1, d, d⟩,
   ⟨.waited 1 (.ok (.exited 1 0)), d, e⟩]

theorem lawful_feeding : Lawful (Changeless .x86_64 wordScan.request) feedingLog := by
  have hsnoc : Lawful (Changeless .x86_64 wordScan.request)
      (feedingLog.foldl (fun log shot => log ++ [shot]) []) := by
    unfold feedingLog Lawful
    simp only [List.foldl_cons, List.foldl_nil, List.each_snoc]
    simp [List.each_nil, stageOf, Stage.next, Stage.Allows, Stage.isTrap, changeless_typed]
  exact hsnoc

end Mirrorscope.Replay
