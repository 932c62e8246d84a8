import Mirrorscope.Lib.Each
import Mirrorscope.Replay.Upkeep

/-! # A film of the watched range

Every call into the kernel is filmed with the system before and after it, so that what a
range of the tracee's memory held, and when it changed, are facts about the film. A task
that is resumed runs until its next stop; a stop with `SIGTRAP` that the kernel says is a
watchpoint trap ends an access, which lasts until the range is read.
-/

namespace Mirrorscope.Replay

open Capture Linux Run
open Trace (Cmdline Record)

variable {ω α ε : Type}

/-! ## The film -/

/-- What a call did: a task is resumed, or stepped over one instruction, is waited for, is
asked about its signal, a range of its memory is read, or is written by the replayer. -/
inductive Motion where
  | resumed (pid : Pid)
  | stepped (pid : Pid)
  | waited (pid : Pid) (answer : Except Errno WaitStatus)
  | asked (pid : Pid) (answer : Except Errno Int32)
  | read (pid : Pid) (addr : UInt64) (len : Nat) (answer : Except Errno Bytes)
  | wrote (pid : Pid)
  | other

namespace Motion

/-- A task that could not be resumed does not run. -/
def ofResume (pid : Pid) : Except Errno Unit → Motion
  | .ok _ => resumed pid
  | .error _ => other

/-- The motion can be a part of an access between its start and its read. -/
def inside : Motion → Bool
  | resumed _ | read .. | wrote _ => false
  | _ => true

end Motion

instance {arch : Arch} [Ptrace arch ω] : Ptrace arch (Filmed Motion ω) where
  spawnTraced cmdline := Filmed.film (fun _ => .other) (Ptrace.spawnTraced arch cmdline)
  syscall pid sig := Filmed.film (.ofResume pid) (Ptrace.syscall arch pid sig)
  step pid := Filmed.film (fun _ => .stepped pid) (Ptrace.step arch pid)
  kill pid := Filmed.film (fun _ => .other) (Ptrace.kill arch pid)
  waitpid pid flags := Filmed.film (.waited pid) (Ptrace.waitpid arch pid flags)
  setoptions pid options := Filmed.film (fun _ => .other) (Ptrace.setoptions arch pid options)
  getevent pid := Filmed.film (fun _ => .other) (Ptrace.getevent arch pid)
  getregs pid := Filmed.film (fun _ => .other) (Ptrace.getregs pid)
  setregs pid regs := Filmed.film (fun _ => .other) (Ptrace.setregs pid regs)
  setSyscallNr pid nr := Filmed.film (fun _ => .other) (Ptrace.setSyscallNr arch pid nr)
  processVmReadv pid addr len :=
    Filmed.film (.read pid addr len) (Ptrace.processVmReadv arch pid addr len)
  processVmWritev pid addr data :=
    Filmed.film (fun _ => .wrote pid) (Ptrace.processVmWritev arch pid addr data)
  pokeUser pid offset data := Filmed.film (fun _ => .other) (Ptrace.pokeUser arch pid offset data)
  setHwWatch pid addr ctrl := Filmed.film (fun _ => .other) (Ptrace.setHwWatch arch pid addr ctrl)
  getsiginfo pid := Filmed.film (.asked pid) (Ptrace.getsiginfo arch pid)

instance [Unwind ω] : Unwind (Filmed Motion ω) where
  forPid pid := Filmed.film (fun _ => .other) (Unwind.forPid pid)
  registers pid := Filmed.film (fun _ => .other) (Unwind.registers pid)
  backtrace pid pc := Filmed.film (fun _ => .other) (Unwind.backtrace pid pc)

/-- What a task's memory holds in the watched range, if it can be read. -/
def held (arch : Arch) [Ptrace arch ω] (wp : Watchpoint) (pid : Pid) (os : ω) : Option Bytes :=
  match (Ptrace.processVmReadv arch pid wp.addr wp.len.toNat os).1 with
  | .ok copied => some (copied ++ List.replicate (wp.len.toNat - copied.length) 0)
  | .error _ => none

/-! ## Accesses -/

/-- How far the film is in what may be an access: no task runs, a task runs, it has stopped
with `SIGTRAP`, or the stop is a trap that is being served. -/
inductive Stage (ω : Type) where
  | rest
  | running (run : List (Shot Motion ω))
  | stopped (run : List (Shot Motion ω))
  | trapped

namespace Stage

def isTrap : WaitStatus → Bool
  | .stopped _ sig => sig == .trap
  | _ => false

def next (stage : Stage ω) (shot : Shot Motion ω) : Stage ω :=
  match shot.motion, stage with
  | .resumed _, _ => running [shot]
  | .waited _ (.ok status), running run =>
    if isTrap status then stopped (run ++ [shot]) else rest
  | .asked _ (.ok code), stopped _ => if code = WatchHw.trapHwbkpt then trapped else rest
  | .read _ _ _ (.ok _), trapped => rest
  | _, stage => stage

/-- What a processor with the watchpoint set promises: a run that does not end in a
watchpoint trap is calm, and so is any call that runs no task. What the replayer writes is
not the processor's. -/
def Allows (Calm : Shot Motion ω → Prop) (stage : Stage ω) (shot : Shot Motion ω) : Prop :=
  match shot.motion, stage with
  | .resumed _, _ | .wrote _, _ => True
  | .waited _ (.ok status), running run => isTrap status = true ∨ ∀ s ∈ run ++ [shot], Calm s
  | .waited _ (.error _), running _ => True
  | .asked _ (.ok code), stopped run =>
    code = WatchHw.trapHwbkpt ∨ ∀ s ∈ run ++ [shot], Calm s
  | .asked _ (.error _), stopped _ => True
  | .read .., _ => Calm shot
  | _, trapped => True
  | _, _ => Calm shot

end Stage

def stageOf (log : List (Shot Motion ω)) : Stage ω := log.foldl Stage.next .rest

/-- The processor keeps its promise all along the film. -/
def Lawful (Calm : Shot Motion ω → Prop) : List (Shot Motion ω) → Prop :=
  List.Each fun before shot => (stageOf before).Allows Calm shot

/-- Nothing the replayer writes shows in the range. -/
def Untouched (Calm : Shot Motion ω → Prop) (log : List (Shot Motion ω)) : Prop :=
  ∀ shot ∈ log, ∀ pid, shot.motion = .wrote pid → Calm shot

/-- The shots follow each other, from one state of the system to another. -/
def Linked : ω → List (Shot Motion ω) → ω → Prop
  | a, [], b => a = b
  | a, shot :: shots, b => shot.before = a ∧ Linked shot.after shots b

/-- One access of a task to the watched range: the task is resumed, traps, and the trap is
served until the range is read. -/
structure IsAccess (wp : Watchpoint) (pid : Pid) (start finish : ω) (seg : List (Shot Motion ω)) :
    Prop where
  shape : ∃ first mid last, seg = first :: mid ++ [last] ∧
    first.motion = .resumed pid ∧ first.before = start ∧
    (∀ shot ∈ mid, shot.motion.inside = true) ∧ stageOf (first :: mid) = .trapped ∧
    (∃ bytes, last.motion = .read pid wp.addr wp.len.toNat (.ok bytes)) ∧ last.before = finish
  linked : ∃ after, Linked start seg after

/-- The hits, each with an access of its own, in order, and what lies between them. -/
inductive Entered (Quiet : Shot Motion ω → Prop) (Right : List (Shot Motion ω) → WatchHit → Prop) :
    List (Shot Motion ω) → List WatchHit → Prop where
  | nil (log : List (Shot Motion ω)) (quiet : ∀ shot ∈ log, Quiet shot) : Entered Quiet Right log []
  | hit {log seg : List (Shot Motion ω)} {hits : List WatchHit} {hit : WatchHit}
      (earlier : Entered Quiet Right log hits) (right : Right seg hit)
      (later : List (Shot Motion ω)) (quiet : ∀ shot ∈ later, Quiet shot) :
      Entered Quiet Right (log ++ seg ++ later) (hits ++ [hit])

section Film

variable {log log' seg : List (Shot Motion ω)} {shot first : Shot Motion ω} {a b c : ω}

theorem stageOf_snoc : stageOf (log ++ [shot]) = (stageOf log).next shot := by
  unfold stageOf
  rw [List.foldl_append]
  rfl

/-- A resumption starts anew. -/
theorem stageOf_resumed {pid : Pid} (h : first.motion = .resumed pid) (mid : List (Shot Motion ω)) :
    stageOf (log ++ first :: mid) = stageOf (first :: mid) := by
  have hnext (stage : Stage ω) : stage.next first = .running [first] := by
    unfold Stage.next
    rw [h]
  unfold stageOf
  rw [List.foldl_append, List.foldl_cons, List.foldl_cons, hnext, hnext]

theorem Linked.append (h : Linked a log b) (h' : Linked b log' c) : Linked a (log ++ log') c := by
  induction log generalizing a with
  | nil =>
    rcases h with rfl
    exact h'
  | cons shot log ih => exact ⟨h.1, ih h.2⟩

theorem Linked.snoc (h : Linked a log shot.before) : Linked a (log ++ [shot]) shot.after :=
  h.append ⟨rfl, rfl⟩

theorem Entered.append {Quiet : Shot Motion ω → Prop}
    {Right : List (Shot Motion ω) → WatchHit → Prop} {hits : List WatchHit}
    (h : Entered Quiet Right log hits) (hquiet : ∀ shot ∈ log', Quiet shot) :
    Entered Quiet Right (log ++ log') hits := by
  cases h with
  | nil log hlog =>
    refine .nil _ ?_
    intro shot hshot
    rcases List.mem_append.mp hshot with hmem | hmem
    · exact hlog shot hmem
    · exact hquiet shot hmem
  | hit earlier right later hlater =>
    rw [List.append_assoc]
    refine .hit earlier right (later ++ log') ?_
    intro shot hshot
    rcases List.mem_append.mp hshot with hmem | hmem
    · exact hlater shot hmem
    · exact hquiet shot hmem

end Film

/-! ## Keeping accounts -/

/-- What the film has to show for a request: which tracee it is of, which shots are calm,
which are fair, when the remembered value is that of the range, and when a hit is right for
its access. -/
structure Ledger (arch : Arch) [Ptrace arch ω] (wp : Watchpoint) where
  Tracee : Pid → Prop
  Calm : Shot Motion ω → Prop
  Fair : Shot Motion ω → Prop
  Last : Option Bytes → ω → Prop
  Right : List (Shot Motion ω) → WatchHit → Prop
  calm : ∀ {shot value}, Calm shot → Last value shot.before → Last value shot.after
  hit : ∀ {pid start finish seg read bytes hit}, IsAccess wp pid start finish (seg ++ [read]) →
    (∀ shot ∈ seg ++ [read], Fair shot) → Calm read → read.before = finish →
    Last hit.oldValue start → held arch wp pid finish = some bytes → hit.newValue = bytes →
    Right (seg ++ [read]) hit ∧ Last (some bytes) read.after

section Accounts

variable {arch : Arch} [Ptrace arch ω] {wp : Watchpoint} (ledger : Ledger (ω := ω) arch wp)

/-- The film keeps to the rules: the processor's, and the replayer writes nothing into the
range. -/
def Ledger.Obeyed : List (Shot Motion ω) → Prop :=
  List.Each fun before shot => (stageOf before).Allows ledger.Calm shot ∧ ledger.Fair shot ∧
    ∀ pid, shot.motion = .wrote pid → ledger.Calm shot

/-- The hits after `earlier` have their accesses in the film, and the remembered value is
that of the range at its end. -/
structure Balanced (earlier : List WatchHit) (log : List (Shot Motion ω)) (os : ω)
    (s : ReplaySession) : Prop where
  request : s.watchpoint = some wp
  tracee : ledger.Tracee s.pid
  balance : ledger.Obeyed log → ∃ hits, s.watchHits = earlier ++ hits ∧
    Entered ledger.Calm ledger.Right log hits ∧ ledger.Last s.lastValue os

/-- The accounts since `before` are in order, and no task runs. -/
def Accounts (before : List (Shot Motion ω)) (earlier : List WatchHit)
    (w : World (Filmed Motion ω)) : Prop :=
  ∃ log, w.os.notes = before ++ log ∧ stageOf log = .rest ∧
    Balanced ledger earlier log w.os.os w.session

/-- A failure in the middle of what may be an access leaves the accounts open. -/
def Interrupted (before : List (Shot Motion ω)) (earlier : List WatchHit)
    (w : World (Filmed Motion ω)) : Prop :=
  ∃ log, w.os.notes = before ++ log ∧ (stageOf log = .rest → Accounts ledger before earlier w)

/-- A task was resumed when the accounts were in order, and `S` holds of what was filmed
since. -/
def Serving (before : List (Shot Motion ω)) (earlier : List WatchHit) (pid : Pid)
    (S : Shot Motion ω → List (Shot Motion ω) → Prop) (w : World (Filmed Motion ω)) : Prop :=
  ∃ log first mid, w.os.notes = before ++ (log ++ first :: mid) ∧
    Balanced ledger earlier log first.before w.session ∧ first.motion = .resumed pid ∧
    Linked first.before (first :: mid) w.os.os ∧ (∀ shot ∈ mid, shot.motion.inside = true) ∧
    S first mid

variable {ledger} {before log seg : List (Shot Motion ω)} {earlier : List WatchHit}
  {shot : Shot Motion ω} {s s' : ReplaySession} {here : ω} {w : World (Filmed Motion ω)}

theorem Ledger.Obeyed.snoc (h : ledger.Obeyed (log ++ [shot])) :
    ledger.Obeyed log ∧ (stageOf log).Allows ledger.Calm shot ∧ ledger.Fair shot ∧
      ∀ pid, shot.motion = .wrote pid → ledger.Calm shot := List.each_snoc.mp h

theorem Ledger.Obeyed.of_append (h : ledger.Obeyed (log ++ seg)) : ledger.Obeyed log :=
  List.each_of_append h

/-- The remembered value outlasts calm. -/
theorem Ledger.last_linked {a b : ω} {value : Option Bytes} (hcalm : ∀ shot ∈ seg, ledger.Calm shot)
    (hlinked : Linked a seg b) (h : ledger.Last value a) : ledger.Last value b := by
  induction seg generalizing a with
  | nil =>
    rcases hlinked with rfl
    exact h
  | cons shot seg ih =>
    rcases hlinked with ⟨rfl, hrest⟩
    exact ih (fun s hs => hcalm s (List.mem_cons_of_mem _ hs)) hrest
      (ledger.calm (hcalm shot List.mem_cons_self) h)

namespace Balanced

theorem congr (h : Balanced ledger earlier log here s) (hpid : s'.pid = s.pid)
    (hwp : s'.watchpoint = s.watchpoint) (hhits : s'.watchHits = s.watchHits)
    (hlast : s'.lastValue = s.lastValue) : Balanced ledger earlier log here s' where
  request := hwp.trans h.request
  tracee := by
    rw [hpid]
    exact h.tracee
  balance hobeyed := by
    rw [hhits, hlast]
    exact h.balance hobeyed

/-- What is calm leaves the balance. -/
theorem calmly (h : Balanced ledger earlier log here s) {there : ω}
    (hlinked : Linked here seg there)
    (hcalm : ledger.Obeyed (log ++ seg) → ∀ shot ∈ seg, ledger.Calm shot) :
    Balanced ledger earlier (log ++ seg) there s where
  request := h.request
  tracee := h.tracee
  balance hobeyed := by
    rcases h.balance hobeyed.of_append with ⟨hits, hhits, hentered, hlast⟩
    exact ⟨hits, hhits, hentered.append (hcalm hobeyed),
      ledger.last_linked (hcalm hobeyed) hlinked hlast⟩

end Balanced

theorem Accounts.interrupted (h : Accounts ledger before earlier w) :
    Interrupted ledger before earlier w := by
  rcases h with ⟨log, hnotes, hstage, hbalanced⟩
  exact ⟨log, hnotes, fun _ => ⟨log, hnotes, hstage, hbalanced⟩⟩

theorem Accounts.withSession (h : Accounts ledger before earlier w)
    {f : ReplaySession → ReplaySession} (hpid : (f w.session).pid = w.session.pid)
    (hwp : (f w.session).watchpoint = w.session.watchpoint)
    (hhits : (f w.session).watchHits = w.session.watchHits)
    (hlast : (f w.session).lastValue = w.session.lastValue) :
    Accounts ledger before earlier (w.withSession f) := by
  rcases h with ⟨log, hnotes, hstage, hbalanced⟩
  exact ⟨log, hnotes, hstage, hbalanced.congr hpid hwp hhits hlast⟩

/-! ## Shots -/

/-- The state after a filmed call. -/
def World.filmed (w : World (Filmed Motion ω)) (motion : Motion) (os : ω) :
    World (Filmed Motion ω) :=
  ⟨w.session, ⟨os, w.os.notes ++ [⟨motion, w.os.os, os⟩]⟩⟩

omit [Ptrace arch ω] in
theorem film_spec {P : World (Filmed Motion ω) → Prop} {Q : α → World (Filmed Motion ω) → Prop}
    {E : ReplayError → World (Filmed Motion ω) → Prop} {err : ε → ReplayError}
    {motion : Except ε α → Motion} {call : Call ω ε α}
    (hok : ∀ w a os, P w → call w.os.os = (.ok a, os) → Q a (w.filmed (motion (.ok a)) os))
    (herr : ∀ w e os, P w → call w.os.os = (.error e, os) →
      E (err e) (w.filmed (motion (.error e)) os)) :
    Spec P (osOr err (Filmed.film motion call)) Q E := by
  intro w hw r w' hexec
  rcases hcall : call w.os.os with ⟨answer, os⟩
  have hfilm : Filmed.film motion call w.os =
      (answer, ⟨os, w.os.notes ++ [⟨motion answer, w.os.os, os⟩]⟩) := by
    unfold Filmed.film
    rw [hcall]
  rcases exec_osOr_inv hexec with ⟨a, os', hdone, rfl, rfl⟩ | ⟨e, os', hdone, rfl, rfl⟩
  · rcases Prod.mk.inj (hfilm.symm.trans hdone) with ⟨rfl, rfl⟩
    exact hok w a os hw hcall
  · rcases Prod.mk.inj (hfilm.symm.trans hdone) with ⟨rfl, rfl⟩
    exact herr w e os hw hcall

/-- Without a resumption, nothing starts. -/
theorem Stage.next_rest (h : ∀ pid, shot.motion ≠ .resumed pid) :
    (Stage.rest : Stage ω).next shot = .rest := by
  unfold Stage.next
  split
  · rename_i pid heq
    exact absurd heq (h pid)
  · cases ‹Stage.rest = Stage.running _›
  · cases ‹Stage.rest = Stage.stopped _›
  · rfl
  · rfl

/-- A call that runs no task is calm, and so is one that writes, by the rules. -/
theorem Ledger.Obeyed.calm_rest (h : ledger.Obeyed (log ++ [shot])) (hrest : stageOf log = .rest)
    (hmotion : ∀ pid, shot.motion ≠ .resumed pid) : ledger.Calm shot := by
  rcases h.snoc with ⟨-, hallows, -, hwrote⟩
  rw [hrest] at hallows
  unfold Stage.Allows at hallows
  split at hallows
  · rename_i pid heq
    exact absurd heq (hmotion pid)
  · rename_i pid heq
    exact hwrote pid heq
  · cases ‹Stage.rest = Stage.running _›
  · cases ‹Stage.rest = Stage.running _›
  · cases ‹Stage.rest = Stage.stopped _›
  · cases ‹Stage.rest = Stage.stopped _›
  · exact hallows
  · cases ‹Stage.rest = Stage.trapped›
  · exact hallows

theorem Accounts.filmed (h : Accounts ledger before earlier w) {motion : Motion} (os : ω)
    (hmotion : ∀ pid, motion ≠ .resumed pid) :
    Accounts ledger before earlier (w.filmed motion os) := by
  rcases h with ⟨log, hnotes, hstage, hbalanced⟩
  let shot : Shot Motion ω := ⟨motion, w.os.os, os⟩
  refine ⟨log ++ [shot], ?_, ?_, ?_⟩
  · show w.os.notes ++ [shot] = _
    rw [hnotes, List.append_assoc]
  · rw [stageOf_snoc, hstage]
    exact Stage.next_rest hmotion
  · refine hbalanced.calmly ⟨rfl, rfl⟩ ?_
    intro hobeyed s hs
    rcases List.mem_singleton.mp hs with rfl
    exact hobeyed.calm_rest hstage hmotion

/-- A call that resumes no task keeps the accounts. -/
theorem film_accounts {err : ε → ReplayError} {motion : Except ε α → Motion} {call : Call ω ε α}
    (hmotion : ∀ answer pid, motion answer ≠ .resumed pid) :
    Upholds (Accounts ledger before earlier) (Interrupted ledger before earlier)
      (osOr err (Filmed.film motion call)) :=
  film_spec (fun _ _ os hw _ => hw.filmed os (hmotion _))
    (fun _ _ os hw _ => (hw.filmed os (hmotion _)).interrupted)

/-! ## Running a task -/

/-- The task was resumed and not waited for yet. -/
def Resumed (_ : Shot Motion ω) (mid : List (Shot Motion ω)) : Prop := mid = []

/-- The stop of the task was waited for. -/
def StoppedIn (pid : Pid) (status : WaitStatus) (_ : Shot Motion ω) (mid : List (Shot Motion ω)) :
    Prop := ∃ shot : Shot Motion ω, mid = [shot] ∧ shot.motion = .waited pid (.ok status)

/-- The stop is a trap of the watchpoint. -/
def TrappedIn (first : Shot Motion ω) (mid : List (Shot Motion ω)) : Prop :=
  stageOf (first :: mid) = .trapped

theorem stageOf_run {first : Shot Motion ω} {pid : Pid} (h : first.motion = .resumed pid) :
    stageOf [first] = .running [first] := by
  show Stage.next .rest first = _
  unfold Stage.next
  rw [h]

theorem syscall_serving (pid : Pid) (sig : Option Signal) :
    Spec (Accounts ledger before earlier)
      (os (Ptrace.syscall arch pid sig) : Method (Filmed Motion ω) Unit)
      (fun _ => Serving ledger before earlier pid Resumed)
      (fun _ => Interrupted ledger before earlier) := by
  refine film_spec ?_ ?_
  · rintro w a os ⟨log, hnotes, hstage, hbalanced⟩ -
    refine ⟨log, ⟨.resumed pid, w.os.os, os⟩, [], ?_, hbalanced, rfl, ⟨rfl, rfl⟩, ?_, rfl⟩
    · show w.os.notes ++ [_] = _
      rw [hnotes, List.append_assoc]
      rfl
    · exact fun _ hnone => absurd hnone List.not_mem_nil
  · intro w e os hw _
    exact (hw.filmed os (fun _ heq => Motion.noConfusion heq)).interrupted

/-- One more shot while a task is served. -/
theorem Serving.filmed {pid : Pid} {S S' : Shot Motion ω → List (Shot Motion ω) → Prop}
    (h : Serving ledger before earlier pid S w) {motion : Motion} (os : ω)
    (hinside : motion.inside = true)
    (hS : ∀ first mid, first.motion = .resumed pid → S first mid →
      S' first (mid ++ [⟨motion, w.os.os, os⟩])) :
    Serving ledger before earlier pid S' (w.filmed motion os) := by
  rcases h with ⟨log, first, mid, hnotes, hbalanced, hfirst, hlinked, hmid, hstage⟩
  let shot : Shot Motion ω := ⟨motion, w.os.os, os⟩
  refine ⟨log, first, mid ++ [shot], ?_, hbalanced, hfirst, ?_, ?_, hS first mid hfirst hstage⟩
  · show w.os.notes ++ [shot] = _
    rw [hnotes]
    simp
  · have hmore : Linked first.before ((first :: mid) ++ [shot]) os := hlinked.append ⟨rfl, rfl⟩
    exact hmore
  · intro s hs
    rcases List.mem_append.mp hs with hmem | hmem
    · exact hmid s hmem
    · rcases List.mem_singleton.mp hmem with rfl
      exact hinside

/-- What was filmed while a task is served is not at rest. -/
theorem Serving.interrupted {pid : Pid} {S : Shot Motion ω → List (Shot Motion ω) → Prop}
    (h : Serving ledger before earlier pid S w)
    (hS : ∀ first mid, first.motion = .resumed pid → S first mid → stageOf (first :: mid) ≠ .rest) :
    Interrupted ledger before earlier w := by
  rcases h with ⟨log, first, mid, hnotes, -, hfirst, -, -, hstage⟩
  refine ⟨log ++ first :: mid, hnotes, ?_⟩
  rw [stageOf_resumed hfirst]
  intro hrest
  exact absurd hrest (hS first mid hfirst hstage)

theorem waitpid_serving (pid : Pid) (flags : WaitFlags) :
    Spec (Serving ledger before earlier pid Resumed)
      (os (Ptrace.waitpid arch pid flags) : Method (Filmed Motion ω) WaitStatus)
      (fun status => Serving ledger before earlier pid (StoppedIn pid status))
      (fun _ => Interrupted ledger before earlier) := by
  refine film_spec ?_ ?_
  · intro w status os hw _
    refine hw.filmed os rfl ?_
    rintro first mid - rfl
    exact ⟨_, rfl, rfl⟩
  · intro w e os hw _
    have hfailed : Serving ledger before earlier pid
        (fun first mid => stageOf (first :: mid) = .running [first])
        (w.filmed (.waited pid (.error e)) os) := by
      refine hw.filmed os rfl ?_
      rintro first mid hfirst rfl
      show stageOf ([first] ++ [_]) = _
      rw [stageOf_snoc, stageOf_run hfirst]
      rfl
    refine hfailed.interrupted ?_
    rintro first mid - hrun hrest
    rw [hrun] at hrest
    cases hrest

/-- A stop that is not a `SIGTRAP` ends a calm run. -/
theorem Serving.accounts_stop {pid : Pid} {status : WaitStatus}
    (h : Serving ledger before earlier pid (StoppedIn pid status) w)
    (hstatus : Stage.isTrap status = false) : Accounts ledger before earlier w := by
  rcases h with ⟨log, first, mid, hnotes, hbalanced, hfirst, hlinked, -, shot, rfl, hshot⟩
  have hrun : stageOf (log ++ [first]) = .running [first] := by
    rw [stageOf_resumed hfirst, stageOf_run hfirst]
  refine ⟨log ++ [first, shot], hnotes, ?_, hbalanced.calmly hlinked ?_⟩
  · rw [List.append_cons, stageOf_snoc, hrun]
    unfold Stage.next
    rw [hshot]
    simp [hstatus]
  · intro hobeyed
    rw [List.append_cons] at hobeyed
    rcases hobeyed.snoc with ⟨-, hallows, -, -⟩
    rw [hrun] at hallows
    unfold Stage.Allows at hallows
    rw [hshot] at hallows
    rcases hallows with htrap | hcalm
    · rw [hstatus] at htrap
      cases htrap
    · exact hcalm

theorem stageOf_stop {first : Shot Motion ω} {pid : Pid} {status : WaitStatus}
    (h : first.motion = .resumed pid) (hshot : shot.motion = .waited pid (.ok status))
    (hstatus : Stage.isTrap status = true) :
    stageOf ([first] ++ [shot]) = .stopped [first, shot] := by
  rw [stageOf_snoc, stageOf_run h]
  unfold Stage.next
  rw [hshot]
  simp [hstatus]

/-- Whatever the stop is, it may be the last of the film. -/
theorem Serving.interrupted_stop {pid : Pid} {status : WaitStatus}
    (h : Serving ledger before earlier pid (StoppedIn pid status) w) :
    Interrupted ledger before earlier w := by
  cases hstatus : Stage.isTrap status with
  | false => exact (h.accounts_stop hstatus).interrupted
  | true =>
    refine h.interrupted ?_
    rintro first mid hfirst ⟨shot, rfl, hshot⟩ hrest
    have hstop := stageOf_stop hfirst hshot hstatus
    rw [show [first] ++ [shot] = [first, shot] from rfl, hrest] at hstop
    cases hstop

/-- A `SIGTRAP` that is not a trap of the watchpoint ends a calm run. -/
theorem Serving.accounts_asked {pid q : Pid} {code : Int32}
    (h : Serving ledger before earlier pid (StoppedIn pid (.stopped q .trap)) w) (os : ω)
    (hcode : code ≠ WatchHw.trapHwbkpt) :
    Accounts ledger before earlier (w.filmed (.asked pid (.ok code)) os) := by
  rcases h with ⟨log, first, mid, hnotes, hbalanced, hfirst, hlinked, -, shot, rfl, hshot⟩
  let asked : Shot Motion ω := ⟨.asked pid (.ok code), w.os.os, os⟩
  have hstop : stageOf (log ++ [first, shot]) = .stopped [first, shot] := by
    rw [stageOf_resumed hfirst]
    exact stageOf_stop hfirst hshot rfl
  have hsplit : log ++ [first, shot, asked] = log ++ [first, shot] ++ [asked] := by simp
  refine ⟨log ++ [first, shot, asked], ?_, ?_, hbalanced.calmly ?_ ?_⟩
  · show w.os.notes ++ [asked] = _
    rw [hnotes]
    simp
  · rw [hsplit, stageOf_snoc, hstop]
    exact if_neg hcode
  · have hmore : Linked first.before ([first, shot] ++ [asked]) os := hlinked.append ⟨rfl, rfl⟩
    exact hmore
  · intro hobeyed
    rw [hsplit] at hobeyed
    rcases hobeyed.snoc with ⟨-, hallows, -, -⟩
    rw [hstop] at hallows
    rcases hallows with htrap | hcalm
    · exact absurd htrap hcode
    · exact hcalm

/-- A `SIGTRAP` is asked about: it ends a calm run, or it is a trap of the watchpoint. -/
theorem isWatchHit_serving (pid q : Pid) :
    Spec (Serving ledger before earlier pid (StoppedIn pid (.stopped q .trap)))
      (isWatchHit arch pid : Method (Filmed Motion ω) Bool)
      (fun hit w => if hit then Serving ledger before earlier pid TrappedIn w
        else Accounts ledger before earlier w)
      (fun _ => Interrupted ledger before earlier) := by
  refine Spec.bind self_spec_upkeep fun s => ?_
  split
  -- No request is set, which the ledger rules out.
  · rename_i hnone
    rintro w ⟨rfl, log, first, mid, -, hbalanced, -⟩
    rw [hbalanced.request] at hnone
    cases hnone
  · refine Spec.bind (Q := fun code w => if (code == WatchHw.trapHwbkpt) = true then
      Serving ledger before earlier pid TrappedIn w else Accounts ledger before earlier w) ?_
      fun code => Spec.pure fun _ hw => hw
    refine film_spec ?_ ?_
    · rintro w code os ⟨-, hw⟩ -
      by_cases hcode : code = WatchHw.trapHwbkpt
      · rw [if_pos (beq_iff_eq.mpr hcode)]
        refine hw.filmed os rfl ?_
        rintro first mid hfirst ⟨shot, rfl, hshot⟩
        show stageOf ([first] ++ [shot] ++ [_]) = .trapped
        rw [stageOf_snoc, stageOf_stop hfirst hshot rfl]
        exact if_pos hcode
      · rw [if_neg (fun h => hcode (beq_iff_eq.mp h))]
        exact hw.accounts_asked os hcode
    · rintro w e os ⟨-, hw⟩ -
      -- A question that fails leaves the tracee stopped and the account open.
      have hfailed : Serving ledger before earlier pid
          (fun first mid => ∃ run, stageOf (first :: mid) = .stopped run)
          (w.filmed (.asked pid (.error e)) os) := by
        refine hw.filmed os rfl ?_
        rintro first mid hfirst ⟨shot, rfl, hshot⟩
        refine ⟨[first, shot], ?_⟩
        show stageOf ([first] ++ [shot] ++ [_]) = _
        rw [stageOf_snoc, stageOf_stop hfirst hshot rfl]
        rfl
      refine hfailed.interrupted ?_
      rintro first mid - ⟨run, hrun⟩ hrest
      rw [hrun] at hrest
      cases hrest

/-! ## Serving a trap -/

theorem Serving.failed {pid : Pid} (h : Serving ledger before earlier pid TrappedIn w) :
    Interrupted ledger before earlier w := by
  refine h.interrupted ?_
  intro first mid _ htrapped hrest
  rw [htrapped] at hrest
  cases hrest

/-- What is filmed while a trap is served belongs to it. -/
theorem film_trapped {pid : Pid} {err : ε → ReplayError} {motion : Except ε α → Motion}
    {call : Call ω ε α} (hmotion : ∀ answer, (motion answer).inside = true) :
    Upholds (Serving ledger before earlier pid TrappedIn) (Interrupted ledger before earlier)
      (osOr err (Filmed.film motion call)) := by
  have hfilmed {w : World (Filmed Motion ω)} (hw : Serving ledger before earlier pid TrappedIn w)
      (answer : Except ε α) (os : ω) :
      Serving ledger before earlier pid TrappedIn (w.filmed (motion answer) os) := by
    refine hw.filmed os (hmotion answer) ?_
    intro first mid hfirst htrapped
    show stageOf (first :: mid ++ [_]) = .trapped
    rw [stageOf_snoc, htrapped]
    have hinside := hmotion answer
    unfold Stage.next
    split
    · rename_i heq
      rw [show motion answer = _ from heq] at hinside
      cases hinside
    · cases ‹Stage.trapped = Stage.running _›
    · cases ‹Stage.trapped = Stage.stopped _›
    · rename_i heq _
      rw [show motion answer = _ from heq] at hinside
      cases hinside
    · rfl
  exact film_spec (fun w a os hw _ => hfilmed hw (.ok a) os)
    (fun w e os hw _ => (hfilmed hw (.error e) os).failed)

theorem Serving.withSession {pid : Pid} {S : Shot Motion ω → List (Shot Motion ω) → Prop}
    (h : Serving ledger before earlier pid S w) {f : ReplaySession → ReplaySession}
    (hpid : (f w.session).pid = w.session.pid)
    (hwp : (f w.session).watchpoint = w.session.watchpoint)
    (hhits : (f w.session).watchHits = w.session.watchHits)
    (hlast : (f w.session).lastValue = w.session.lastValue) :
    Serving ledger before earlier pid S (w.withSession f) := by
  rcases h with ⟨log, first, mid, hnotes, hbalanced, hrest⟩
  exact ⟨log, first, mid, hnotes, hbalanced.congr hpid hwp hhits hlast, hrest⟩

theorem arm_trapped {pid : Pid} (live : Pid) (addr : UInt64) (len : UInt8) (kind : WatchKind) :
    Upholds (Serving ledger before earlier pid TrappedIn) (Interrupted ledger before earlier)
      (WatchHw.arm arch live addr len kind : Method (Filmed Motion ω) Unit) := by
  have hfail {β δ : Type} {err : δ → ReplayError} {x : Except δ β} :
      Upholds (Serving ledger before earlier pid TrappedIn) (Interrupted ledger before earlier)
        (orFail err x : Method (Filmed Motion ω) β) :=
    orFail_upkeep.mono (fun _ hw => hw) (fun _ _ hw => hw) (fun _ _ hw => hw.failed)
  cases arch with
  | x86_64 =>
    refine Upholds.bind hfail fun _ => ?_
    exact Upholds.bind (film_trapped fun _ => rfl) fun _ => film_trapped fun _ => rfl
  | aarch64 => exact Upholds.bind hfail fun _ => film_trapped fun _ => rfl

theorem disarm_trapped {pid : Pid} (live : Pid) :
    Upholds (Serving ledger before earlier pid TrappedIn) (Interrupted ledger before earlier)
      (WatchHw.disarm arch live : Method (Filmed Motion ω) Unit) := by
  cases arch with
  | x86_64 => exact film_trapped fun _ => rfl
  | aarch64 => exact film_trapped fun _ => rfl

theorem stepOverWatch_trapped (pid : Pid) :
    Upholds (Serving ledger before earlier pid TrappedIn) (Interrupted ledger before earlier)
      (stepOverWatch arch pid : Method (Filmed Motion ω) Unit) := by
  cases arch with
  | x86_64 => exact film_trapped fun _ => rfl
  | aarch64 =>
    refine Upholds.bind self_upkeep fun s => ?_
    split
    · exact Upholds.pure
    · refine Upholds.bind (disarm_trapped pid) fun _ => ?_
      refine Upholds.bind (film_trapped fun _ => rfl) fun _ => ?_
      refine Upholds.bind (film_trapped fun _ => rfl) fun status => ?_
      split
      · exact arm_trapped pid _ _ _
      · exact Upholds.fail fun _ hw => hw.failed

variable (ledger before earlier) in
/-- The range was read for a trap. -/
def ServedWith (pid : Pid) (value : Bytes) (w : World (Filmed Motion ω)) : Prop :=
  ∃ log seg read start, w.os.notes = before ++ (log ++ (seg ++ [read])) ∧
    stageOf (log ++ (seg ++ [read])) = .rest ∧ read.after = w.os.os ∧
    Balanced ledger earlier log start w.session ∧
    IsAccess wp pid start read.before (seg ++ [read]) ∧
    held arch wp pid read.before = some value

theorem readMemory_served (pid : Pid) :
    Spec (Serving ledger before earlier pid TrappedIn)
      (readMemory arch pid wp.addr wp.len.toNat : Method (Filmed Motion ω) Bytes)
      (fun value => ServedWith ledger before earlier pid value)
      (fun _ => Interrupted ledger before earlier) := by
  refine Spec.bind (Q := fun copied => ServedWith ledger before earlier pid
    (copied ++ List.replicate (wp.len.toNat - copied.length) 0)) (film_spec ?_ ?_)
    fun copied => Spec.pure fun _ hw => hw
  · rintro w copied os ⟨log, first, mid, hnotes, hbalanced, hfirst, hlinked, hmid, htrapped⟩ hread
    let read : Shot Motion ω := ⟨.read pid wp.addr wp.len.toNat (.ok copied), w.os.os, os⟩
    refine ⟨log, first :: mid, read, first.before, ?_, ?_, rfl, hbalanced, ⟨?_, ?_⟩, ?_⟩
    · show w.os.notes ++ [read] = _
      rw [hnotes]
      simp
    · rw [← List.append_assoc, stageOf_snoc, stageOf_resumed hfirst, htrapped]
      rfl
    · exact ⟨first, mid, read, rfl, hfirst, rfl, hmid, htrapped, ⟨copied, rfl⟩, rfl⟩
    · exact ⟨os, hlinked.append ⟨rfl, rfl⟩⟩
    · unfold held
      rw [hread]
  · intro w e os hw _
    have hfailed : Interrupted ledger before earlier
        (w.filmed (.read pid wp.addr wp.len.toNat (.error e)) os) := by
      rcases hw with ⟨log, first, mid, hnotes, -, hfirst, -, -, htrapped⟩
      let read : Shot Motion ω := ⟨.read pid wp.addr wp.len.toNat (.error e), w.os.os, os⟩
      refine ⟨log ++ first :: mid ++ [read], ?_, ?_⟩
      · show w.os.notes ++ [read] = _
        rw [hnotes]
        simp
      · rw [stageOf_snoc, stageOf_resumed hfirst, htrapped]
        intro hrest
        cases hrest
    exact hfailed

/-- A hit is entered for the trap that was served. -/
theorem ServedWith.accounts {pid : Pid} {value : Bytes}
    (h : ServedWith ledger before earlier pid value w) {hit : WatchHit}
    (hold : hit.oldValue = w.session.lastValue) (hnew : hit.newValue = value) :
    Accounts ledger before earlier (w.withSession fun s =>
      { s with lastValue := some value, watchHits := s.watchHits ++ [hit] }) := by
  rcases h with ⟨log, seg, read, start, hnotes, hstage, hafter, hbalanced, haccess, hheld⟩
  refine ⟨log ++ (seg ++ [read]), hnotes, hstage, hbalanced.request, hbalanced.tracee, ?_⟩
  intro hobeyed
  rcases hbalanced.balance hobeyed.of_append with ⟨hits, hhits, hentered, hlast⟩
  -- The kernel was fair in the round, and calm while the value was read.
  have hfair : ∀ shot ∈ seg ++ [read], ledger.Fair shot := by
    intro shot hshot
    rcases List.append_of_mem hshot with ⟨pre, post, hsplit⟩
    have hat := hobeyed (log ++ pre) shot post (by rw [hsplit, List.append_assoc])
    exact hat.2.1
  have hcalm : ledger.Calm read := by
    rw [← List.append_assoc] at hobeyed
    rcases hobeyed.snoc with ⟨-, hallows, -, -⟩
    rcases haccess.shape with ⟨first, mid, last, hseg, -, -, -, -, ⟨bytes, hmotion⟩, -⟩
    rcases List.append_inj' hseg rfl with ⟨-, hlast'⟩
    rcases List.singleton_inj.mp hlast' with rfl
    unfold Stage.Allows at hallows
    rw [hmotion] at hallows
    exact hallows
  rw [← hold] at hlast
  rcases ledger.hit haccess hfair hcalm rfl hlast hheld hnew with ⟨hright, hlast'⟩
  refine ⟨hits ++ [hit], ?_, ?_, ?_⟩
  · show w.session.watchHits ++ [hit] = _
    rw [hhits, List.append_assoc]
  · have hmore := Entered.hit hentered hright [] (fun _ hnone => absurd hnone List.not_mem_nil)
    rw [List.append_nil] at hmore
    exact hmore
  · show ledger.Last (some value) w.os.os
    rw [← hafter]
    exact hlast'

variable [Unwind ω]

omit [Ptrace arch ω] in
theorem captureBacktrace_film {I E : World (Filmed Motion ω) → Prop} (pid : Pid)
    (hother : ∀ {β δ : Type} {err : δ → ReplayError} {call : Call ω δ β},
      Upholds I E (osOr err (Filmed.film (fun _ => .other) call)))
    (hunwinder : ∀ w unwinder, I w → I (w.withSession fun s => { s with unwinder })) :
    Upholds I E (captureBacktrace pid : Method (Filmed Motion ω) _) := by
  refine Upholds.bind self_upkeep fun s => ?_
  refine Upholds.bind (modifySelf_upkeep fun w hw => hunwinder w none hw) fun _ => ?_
  have hfor : Upholds I E
      (unwinderFor pid s.unwinder : Method (Filmed Motion ω) RemoteUnwinder) := by
    cases s.unwinder with
    | some unwinder => exact Upholds.pure
    | none => exact Upholds.bind hother fun _ => Upholds.pure
  refine Upholds.bind hfor fun unwinder => ?_
  refine Upholds.bind hother fun pc => ?_
  refine Upholds.bind hother fun frames => ?_
  exact Upholds.bind (modifySelf_upkeep fun w hw => hunwinder w _ hw) fun _ => Upholds.pure

/-- A trap is served, and its hit entered. -/
theorem onWatchHit_accounts (pid : Pid) :
    Spec (Serving ledger before earlier pid TrappedIn)
      (onWatchHit arch pid : Method (Filmed Motion ω) Unit)
      (fun _ => Accounts ledger before earlier) (fun _ => Interrupted ledger before earlier) := by
  refine Spec.bind (Q := fun s w => s.watchpoint = some wp ∧
    Serving ledger before earlier pid TrappedIn w) ?_ fun s => Spec.assume ?_
  · refine self_spec_upkeep.mono (fun _ hw => hw) ?_ (fun _ _ hw => hw)
    rintro s w ⟨rfl, log, first, mid, hnotes, hbalanced, hrest⟩
    exact ⟨hbalanced.request, log, first, mid, hnotes, hbalanced, hrest⟩
  intro hwp
  split
  · rename_i hnone
    rw [hwp] at hnone
    cases hnone
  · rename_i wp' hwp'
    rw [hwp] at hwp'
    rcases Option.some.inj hwp' with rfl
    refine Spec.bind (captureBacktrace_film pid (film_trapped fun _ => rfl)
      fun w _ hw => hw.withSession rfl rfl rfl rfl) fun trace => ?_
    refine Spec.bind (stepOverWatch_trapped pid) fun _ => ?_
    refine Spec.bind (readMemory_served pid) fun value => modifySelf_upkeep fun w hw => ?_
    exact hw.accounts rfl rfl

/-! ## The driver -/

omit [Unwind ω] in
theorem orFail_accounts {err : ε → ReplayError} {x : Except ε α} :
    Upholds (Accounts ledger before earlier) (Interrupted ledger before earlier)
      (orFail err x : Method (Filmed Motion ω) α) :=
  orFail_upkeep.mono (fun _ hw => hw) (fun _ _ hw => hw) (fun _ _ hw => hw.interrupted)

omit [Unwind ω] in
theorem arm_accounts (live : Pid) (addr : UInt64) (len : UInt8) (kind : WatchKind) :
    Upholds (Accounts ledger before earlier) (Interrupted ledger before earlier)
      (WatchHw.arm arch live addr len kind : Method (Filmed Motion ω) Unit) := by
  cases arch with
  | x86_64 =>
    refine Upholds.bind orFail_accounts fun _ => ?_
    exact Upholds.bind (film_accounts nofun) fun _ => film_accounts nofun
  | aarch64 => exact Upholds.bind orFail_accounts fun _ => film_accounts nofun

omit [Unwind ω] in
/-- A snapshot runs its parent only to the end of the injected call. -/
theorem forkSnapshot_accounts (pid : Pid) :
    Upholds (Accounts ledger before earlier) (Interrupted ledger before earlier)
      (forkSnapshot arch pid : Method (Filmed Motion ω) Pid) := by
  have hfork : Upholds (Accounts ledger before earlier) (Interrupted ledger before earlier)
      (waitForForkChild arch pid : Method (Filmed Motion ω) Pid) := by
    refine Upholds.bind (film_accounts nofun) fun status => ?_
    split
    · split
      · exact film_accounts nofun
      · exact Upholds.fail fun _ hw => hw.interrupted
    · exact Upholds.fail fun _ hw => hw.interrupted
  have hreap (child : Pid) : Upholds (Accounts ledger before earlier)
      (Interrupted ledger before earlier)
      (reapForkChild arch child : Method (Filmed Motion ω) Unit) := by
    refine Upholds.bind (film_accounts nofun) fun status => ?_
    split
    · exact Upholds.pure
    · exact Upholds.pure
    · exact Upholds.fail fun _ hw => hw.interrupted
  -- The tracee runs here, but only to the exit stop of its own clone.
  have hclone : Upholds (Accounts ledger before earlier) (Interrupted ledger before earlier)
      (reapCloneExit arch pid : Method (Filmed Motion ω) Unit) := by
    refine Spec.bind (syscall_serving pid none) fun _ => ?_
    refine Spec.bind (waitpid_serving pid .none) fun status => ?_
    split
    · exact Spec.pure fun _ hw => hw.accounts_stop rfl
    · exact Spec.fail fun _ hw => hw.interrupted_stop
  refine Upholds.bind (film_accounts nofun) fun saved => ?_
  refine Upholds.bind (film_accounts nofun) fun _ => ?_
  refine Upholds.bind (film_accounts nofun) fun _ => ?_
  refine Upholds.bind hfork fun child => ?_
  refine Upholds.bind (hreap child) fun _ => ?_
  refine Upholds.bind (film_accounts nofun) fun _ => ?_
  refine Upholds.bind hclone fun _ => ?_
  refine Upholds.bind (film_accounts nofun) fun _ => ?_
  exact Upholds.bind (film_accounts nofun) fun _ => Upholds.pure

variable (ledger before earlier) in
/-- What holds of the accounts while a task runs, stops, traps and is created. -/
def accountPhases : Phases (Filmed Motion ω) where
  Running pid := Serving ledger before earlier pid Resumed
  Stopped pid status := Serving ledger before earlier pid (StoppedIn pid status)
  Trapped pid := Serving ledger before earlier pid TrappedIn
  Born _ := Accounts ledger before earlier
  Bound _ := Accounts ledger before earlier

/-- The driver keeps the accounts. -/
theorem accounts_upkeep : Upkeep arch (Accounts ledger before earlier)
    (Interrupted ledger before earlier) (accountPhases ledger before earlier) where
  weaken _ hw := hw.interrupted
  setoptions _ := film_accounts nofun
  saveFull _ := film_accounts nofun
  restoreFull _ _ := film_accounts nofun
  setSyscallNr _ _ := film_accounts nofun
  processVmWritev _ _ _ := film_accounts nofun
  resume := syscall_serving
  wait := waitpid_serving
  rest pid status w hne hw := by
    refine Serving.accounts_stop hw ?_
    cases status with
    | stopped q sig =>
      refine beq_eq_false_iff_ne.mpr ?_
      rintro rfl
      exact hne q rfl
    | _ => rfl
  trap := isWatchHit_serving
  hit := onWatchHit_accounts
  event _ := film_accounts nofun
  register child seq := by
    refine Upholds.bind (film_accounts nofun) fun status => ?_
    split
    · exact film_accounts nofun
    · exact film_accounts nofun
    · exact Upholds.fail fun _ hw => hw.interrupted
  bindChild seq tid child parent vforked := by
    refine Upholds.bind state_keeps_upkeep fun mt => ?_
    refine Upholds.bind orFail_accounts fun tidmap => ?_
    refine Upholds.bind state_keeps_upkeep fun mt => ?_
    exact modifySelf_upkeep fun w hw => hw.withSession rfl rfl rfl rfl
  armChild child := by
    refine Upholds.bind self_upkeep fun s => ?_
    split
    · exact arm_accounts _ _ _ _
    · exact Upholds.pure
  place _ _ _ _ _ _ hw := hw.withSession rfl rfl rfl rfl
  threads _ _ _ _ _ hw := hw.withSession rfl rfl rfl rfl
  seat _ _ _ hw := hw.withSession rfl rfl rfl rfl
  finished _ _ hw := hw.withSession rfl rfl rfl rfl
  checkpoints _ _ _ hw := hw.withSession rfl rfl rfl rfl
  snapshot pid := (forkSnapshot_accounts pid).mono (fun _ hw => hw.2) (fun _ _ hw => hw)
    (fun _ _ hw => hw)

end Accounts

end Mirrorscope.Replay
