import Mirrorscope.Dap.Debugging
import Mirrorscope.Dap.Display

/-! # A stop shows the same however it was reached

A client moves its target back and forth and looks at it where it stops. Two debuggers on one trace
that stand at the same place show the same stack and the same registers, by whatever calls they got
there, and one thread each, which is known by the pid that the tracee happens to have.

* `Drives`: what a call that moves the target does to its session.
* `Placed`: the debugger stands where one straight run of the trace comes to.
* `inspection_determined`: two debuggers at one place are shown the same.
-/

namespace Mirrorscope.Dap

open Checked (Prog)
open Decoder (ErrorTexts ProcessView)
open Linux Replay Run ReplayBackend
open Trace (Cmdline Record)
open Unwind (InitialRegs IterFrames ObjectFiles Procfs)

/-! ## One state for one place -/

section Place

variable {arch : Arch} {M : Machine arch} {f u v w w' : World (Os M)} {laws : ForkLaws M}
  {m n : Nat}

/-- Of two states of the straight run that lead, the later one has another last record. -/
theorem leading_current_ne (hf : Entry f) (hu : StraightRun f n u) (hv : StraightRun f m v)
    (hlead : Leading f m v) (hlt : n < m) : u.session.currentSeq ≠ v.session.currentSeq := by
  intro hsame
  have hplace := hlead n hlt u hu
  cases hx : u.session.currentSeq with
  | some x =>
    obtain ⟨y, hy, hxy⟩ := driveRound_straight.current_lt hf.toOrigin hu hv hplace hx
    rw [← hsame, hx] at hy
    rcases Option.some.inj hy with rfl
    exact UInt64.lt_irrefl _ hxy
  | none =>
    -- nothing is consumed yet, so nothing can come before
    have haligned := (driveRound_straight.rounds hv hf.aligned).2.1
    rw [Aligned, ← hsame, hx, eq_comm, Option.map_eq_none_iff, List.getLast?_eq_none_iff]
      at haligned
    have hnone : place v = 0 := by
      rw [place, position, haligned]
      rfl
    omega

theorem leading_unique (hf : Entry f) (hu : StraightRun f n u) (hleadu : Leading f n u)
    (hv : StraightRun f m v) (hleadv : Leading f m v)
    (hsame : u.session.currentSeq = v.session.currentSeq) : u = v := by
  rcases Nat.lt_trichotomy n m with hlt | rfl | hlt
  · exact absurd hsame (leading_current_ne hf hu hv hleadv hlt)
  · exact hu.unique hv
  · exact absurd hsame.symm (leading_current_ne hf hv hu hleadu hlt)

/-- Two sessions that stand at the same record have tracees in the same state. -/
theorem travelers_same_image (hf : Entry f) (h : Traveler laws f False w)
    (h' : Traveler laws f False w') (hlive : w.session.finished = none)
    (hlive' : w'.session.finished = none)
    (hsame : w.session.currentSeq = w'.session.currentSeq) :
    ∃ i i' img, Ready img ∧ w.os.At w.session.pid i 0 img ∧ w'.os.At w'.session.pid i' 0 img := by
  obtain ⟨i, -, hactive⟩ := h
  obtain ⟨i', -, hactive'⟩ := h'
  cases hactive with
  | ended finished _ _ => rw [hlive] at finished; cases finished
  | past failed _ _ _ => exact failed.elim
  | tracking rounds lead twin _ =>
    cases hactive' with
    | ended finished _ _ => rw [hlive'] at finished; cases finished
    | past failed _ _ _ => exact failed.elim
    | tracking rounds' lead' twin' _ =>
      rw [twin.view.currentSeq, twin'.view.currentSeq] at hsame
      rcases leading_unique hf rounds lead rounds' lead' hsame with rfl
      obtain ⟨img, hready, himg, hstraight⟩ := twin.ready.image
      obtain ⟨img', -, himg', hstraight'⟩ := twin'.image
      -- both are the image that the tracee of the straight run is
      have hseat := twin.leader.2.symm.trans twin'.leader.2
      rcases (Prod.mk.inj (Option.some.inj hseat)).1 with rfl
      rcases Option.some.inj (hstraight.symm.trans hstraight') with rfl
      exact ⟨i, i', img, hready, ⟨twin.leader.1, himg⟩, ⟨twin'.leader.1, himg'⟩⟩

end Place

/-! ## Where a debugger stands -/

section Runs

variable {arch : Arch} {M : Machine arch} {text : ReplayError → String} {cmdline : Cmdline}
  {records : List Record} {steps : List (Step (Os M))} {f : World (Os M)} {laws : ForkLaws M}
  {b b' : Hosted ReplayBackend (Os M)} {info : StopInfo}

/-- A drive was answered, and the backend has noted whether the target is gone. -/
structure Noted (m : Method (Os M) ExitOutcome) (b : Hosted ReplayBackend (Os M))
    (outcome : ExitOutcome) (b' : Hosted ReplayBackend (Os M)) : Prop where
  session : exec m (world b) = some (.ok outcome, world b')
  exited : b'.object.exited = none ↔ outcome = .running

theorem noted_of_ok {m : Method (Os M) ExitOutcome} {c : ReplayBackend → Nat} {reason : String}
    (h : exec (do
      let outcome ← onSession text m
      modifyObject fun b => { b with cursor := c b }
      classify reason outcome : ReplayMethod (Os M) StopInfo) b = some (.ok info, b')) :
    ∃ outcome, Noted m b outcome b' := by
  obtain ⟨outcome, b₁, hsession, hrest⟩ := bind_ok_inv h
  obtain ⟨w, hm, rfl⟩ := exec_zoom_ok_inv hsession
  obtain ⟨done, b₂, hmodify, hclassify⟩ := bind_ok_inv hrest
  obtain ⟨-, rfl⟩ := exec_modifyObject_inv hmodify
  cases outcome with
  | running =>
    obtain ⟨-, rfl⟩ := Prod.mk.inj (Option.some.inj hclassify)
    exact ⟨_, hm, by simp⟩
  | exited code =>
    obtain ⟨-, rfl⟩ := Prod.mk.inj (Option.some.inj hclassify)
    exact ⟨_, hm, by simp⟩
  | signaled signal =>
    obtain ⟨-, rfl⟩ := Prod.mk.inj (Option.some.inj hclassify)
    exact ⟨_, hm, by simp⟩

/-- The backend has driven its session to a target, or to the end. -/
def Drives (b b' : Hosted ReplayBackend (Os M)) : Prop :=
  (∃ t outcome, Noted (runTo arch t) b outcome b') ∨
    ∃ outcome, Noted (Replay.runToEnd arch) b outcome b'

theorem goto_drives {index : Nat} {reason : String}
    (h : exec (goto arch text index reason) b = some (.ok info, b')) : Drives b b' := by
  obtain ⟨d, b₁, hobject, hrest⟩ := bind_ok_inv h
  obtain ⟨hd, rfl⟩ := exec_object_inv hobject
  rcases Except.ok.inj hd with rfl
  split at hrest
  · cases hrest
  · exact .inl ⟨_, noted_of_ok (c := fun _ => index) hrest⟩

theorem runToEnd_drives
    (h : exec (ReplayBackend.runToEnd arch text) b = some (.ok info, b')) : Drives b b' :=
  .inr (noted_of_ok (c := fun b => b.events.length) h)

/-- Every call that is answered drives the session. -/
theorem move_drives {c : MoveCall} (h : exec (move arch text c) b = some (.ok info, b')) :
    Drives b b' := by
  have hfirst {reason : String} (hgo : exec (do
      let b ← object
      if b.events.isEmpty then ReplayBackend.runToEnd arch text
      else goto arch text 0 reason : ReplayMethod (Os M) StopInfo) b = some (.ok info, b')) :
      Drives b b' := by
    obtain ⟨d, b₁, hobject, hrest⟩ := bind_ok_inv hgo
    obtain ⟨-, rfl⟩ := exec_object_inv hobject
    split at hrest
    · exact runToEnd_drives hrest
    · exact goto_drives hrest
  have hnext (hgo : exec (do
      let b ← object
      if b.events.length ≤ b.cursor + 1 then ReplayBackend.runToEnd arch text
      else goto arch text (b.cursor + 1) "step" : ReplayMethod (Os M) StopInfo) b =
        some (.ok info, b')) : Drives b b' := by
    obtain ⟨d, b₁, hobject, hrest⟩ := bind_ok_inv hgo
    obtain ⟨-, rfl⟩ := exec_object_inv hobject
    split at hrest
    · exact runToEnd_drives hrest
    · exact goto_drives hrest
  cases c with
  | launch arguments => exact hfirst h
  | jumpToEvent arguments =>
    unfold move jumpToEvent at h
    dsimp only at h
    split at h
    · cases h
    · have hsame : exec (do
          let outcome ← onSession text (runTo arch _)
          modifyObject fun b => { b with cursor :=
            (rposition (fun s => s ≤ b.session.currentSeq.getD 0) b.events).getD 0 }
          classify "step" outcome : ReplayMethod (Os M) StopInfo) b = some (.ok info, b') := h
      exact .inl ⟨_, noted_of_ok (c := fun b =>
        (rposition (fun s => s ≤ b.session.currentSeq.getD 0) b.events).getD 0) hsame⟩
  | resume kind =>
    cases kind with
    | «continue» => exact runToEnd_drives h
    | reverseContinue => exact hfirst h
    | next => exact hnext h
    | stepIn => exact hnext h
    | stepOut => exact hnext h
    | stepBack =>
      obtain ⟨d, b₁, hobject, hrest⟩ := bind_ok_inv h
      obtain ⟨-, rfl⟩ := exec_object_inv hobject
      split at hrest
      · cases hrest
      · exact goto_drives hrest

/-- The session travels along the straight run, and the backend knows whether it has ended. -/
structure Placed (laws : ForkLaws M) (f : World (Os M)) (b : Hosted ReplayBackend (Os M)) :
    Prop where
  traveler : Traveler laws f False (world b)
  complete : Complete f (world b)
  exited : b.object.exited = none ↔ b.object.session.finished = none

theorem atRest_running_iff {stopAt : Option UInt64} {outcome : ExitOutcome} {w : World (Os M)}
    (h : AtRest f stopAt outcome w) : outcome = .running ↔ w.session.finished = none := by
  cases h with
  | stopped unfinished _ => simp [unfinished]
  | ended finished gone _ => simp [finished, gone]

theorem Placed.drives (hf : Entry f) (hsingle : f.session.multithreaded = false)
    (h : Placed laws f b) (hmove : Drives b b') : Placed laws f b' := by
  rcases hmove with ⟨t, outcome, hnoted⟩ | ⟨outcome, hnoted⟩
  · have hrests := runTo_rests hf hsingle h.traveler h.complete hnoted.session
    exact ⟨h.traveler.runTo hf hsingle hnoted.session, hrests.complete,
      hnoted.exited.trans (atRest_running_iff hrests)⟩
  · have hrests := drive_rests hf hsingle h.traveler h.complete hnoted.session
    exact ⟨h.traveler.drive hf hsingle hnoted.session, hrests.complete,
      hnoted.exited.trans (atRest_running_iff hrests)⟩

theorem open_placed (hf : Launched cmdline records f) {interval : UInt64} {host host' : Os M}
    {d : ReplayBackend}
    (h : ReplayBackend.open arch text cmdline records interval host = some (.ok d, host')) :
    Placed laws f ⟨d, host'⟩ := by
  unfold ReplayBackend.open at h
  dsimp only at h
  split at h
  · cases h
  · cases h
  · rename_i w hspawn
    obtain ⟨hd, rfl⟩ := Prod.mk.inj (Option.some.inj h)
    rcases Except.ok.inj hd with rfl
    obtain ⟨u, w₁, hlaunch, hset⟩ := bind_ok_inv hspawn
    obtain ⟨-, rfl⟩ := Prod.mk.inj (Option.some.inj hset)
    have hlaunched := launch_launched hlaunch
    have htraveler : Traveler laws f False w₁ := hlaunched.traveler hf
    -- A session is launched alive, and the debugger has not said that it exited.
    have hunfinished : w₁.session.finished = none := by
      rcases hlaunched.session with ⟨pid, hsession⟩
      rw [hsession]
      rfl
    refine ⟨?_, fun hover => absurd hunfinished hover, ?_⟩
    · exact htraveler.resembling { Resembles.refl w₁.session with } htraveler.unwatched
        htraveler.armed
    · exact iff_of_true rfl hunfinished

/-- A debugger that was opened and moved about travels along the straight run. -/
theorem Debugged.placed (hseq : Increasing records)
    (hsingle : traceIsMultithreaded records = false) (hf : Launched cmdline records f)
    (h : Debugged M text cmdline records steps b) : Placed laws f b := by
  have hsingle' : f.session.multithreaded = false := by
    rcases hf.session with ⟨pid, hsession⟩
    rw [hsession]
    exact hsingle
  induction h with
  | opened h => exact open_placed hf h
  | moved _ c h ih => exact ih.drives (hf.entry hseq) hsingle' (move_drives h)

/-- What a run was launched from. -/
theorem Debugged.launched (h : Debugged M text cmdline records steps b) :
    ∃ f : World (Os M), Launched cmdline records f := by
  induction h with
  | opened h =>
    unfold ReplayBackend.open at h
    dsimp only at h
    split at h
    · cases h
    · cases h
    · rename_i w hspawn
      obtain ⟨u, w₁, hlaunch, -⟩ := bind_ok_inv hspawn
      exact ⟨w₁, launch_launched hlaunch⟩
  | moved _ _ _ ih => exact ih

theorem point_ended_iff {s : ReplaySession} : point s = .ended ↔ s.finished ≠ none := by
  unfold point
  split <;> simp_all

/-- Live sessions at one point have consumed the same records. -/
theorem current_of_point {s s' : ReplaySession} (h : point s = point s') (hlive : s.finished = none)
    (hlive' : s'.finished = none) : s.currentSeq = s'.currentSeq := by
  unfold point at h
  rw [hlive, hlive'] at h
  cases hx : s.currentSeq <;> cases hy : s'.currentSeq <;> simp_all

end Runs

/-! ## The same stop, the same sight -/

section Sights

variable {arch : Arch} {M : Machine arch} [Procfs (Os M)] {maps : M.Group → List Char}
  {registers : M.Group → InitialRegs} {text text' : ReplayError → String} {cmdline : Cmdline}
  {records : List Record} {steps steps' : List (Step (Os M))}
  {b b' : Hosted ReplayBackend (Os M)}

/-- What a debugger shows is up to the place it stands at: the stack and the registers are those
that every other debugger on the trace shows there, and it has something to show as long as the
target has not ended. -/
theorem inspection_determined (laws : ForkLaws M) {crc32 : Bytes → UInt32} {bytes : Bytes}
    (hopen : Opened crc32 bytes cmdline records) (hsingle : traceIsMultithreaded records = false)
    (hshows : Shows M maps registers) (hrun : Debugged M text cmdline records steps b)
    (hrun' : Debugged M text' cmdline records steps' b')
    (hpid : IsProcess b.object.session.pid) (hpid' : IsProcess b'.object.session.pid)
    (hpoint : point b.object.session = point b'.object.session) (files : ObjectFiles)
    (iterFrames : IterFrames) (texts : ErrorTexts) (rest : ProcessView) :
    ∃ seen, Inspected files iterFrames texts rest b seen ∧
      Inspected files iterFrames texts rest b' seen ∧
      (seen = .error (.error .noTracee) ↔ point b.object.session = .ended) := by
  obtain ⟨f, hf⟩ := hrun.launched
  have hplaced : Placed laws f b := hrun.placed hopen.increasing hsingle hf
  have hplaced' : Placed laws f b' := hrun'.placed hopen.increasing hsingle hf
  by_cases hended : point b.object.session = .ended
  · -- both are gone
    have hgone : b.object.exited ≠ none := by
      rw [ne_eq, hplaced.exited]
      exact point_ended_iff.mp hended
    have hgone' : b'.object.exited ≠ none := by
      rw [ne_eq, hplaced'.exited]
      exact point_ended_iff.mp (hpoint.symm.trans hended)
    exact ⟨_, inspected_gone hgone, inspected_gone hgone', iff_of_true rfl hended⟩
  · -- both are alive, and their tracees are in one state
    have hlive : b.object.session.finished = none := by
      rwa [point_ended_iff, not_not] at hended
    have hlive' : b'.object.session.finished = none := by
      rwa [hpoint, point_ended_iff, not_not] at hended
    obtain ⟨i, i', img, hready, hat, hat'⟩ := travelers_same_image (hf.entry hopen.increasing)
      hplaced.traveler hplaced'.traveler hlive hlive' (current_of_point hpoint hlive hlive')
    obtain ⟨seen, hseen, hinspected⟩ :=
      exists_inspected files iterFrames texts rest hshows hready.collected
    exact ⟨seen, hinspected b i (hplaced.exited.mpr hlive) hat hpid,
      hinspected b' i' (hplaced'.exited.mpr hlive') hat' hpid', iff_of_false hseen hended⟩

end Sights

/-! ## Two debuggers on the program of one call -/

/-- The program counter of the program: past its call, or at the invalid instruction. -/
def oneCallLeaf (g : OneCall) : InitialRegs :=
  ⟨if g.phase = .faulted then 0x401010 else 0x401007, 0x7fff0000, 0, 0⟩

instance : Procfs (Os oneCall) := procfsOf (fun _ => []) oneCallLeaf

theorem oneCall_shows : Shows oneCall (fun _ => []) oneCallLeaf :=
  shows_procfsOf (M := oneCall) _ _

/-- Two debuggers, opened one after the other in one system, reach the event. -/
theorem oneCall_twice : ∃ (b b' : Hosted ReplayBackend (Os oneCall)) (w w' : World (Os oneCall)),
    ReplayBackend.open .x86_64 (fun _ => "") ⟨"true", []⟩ oneCallRecords 0 (emptyOs oneCall) =
      some (.ok b.object, b.host) ∧
    ReplayBackend.open .x86_64 (fun _ => "") ⟨"true", []⟩ oneCallRecords 0 b.host =
      some (.ok b'.object, b'.host) ∧
    (b.object.events = [1] ∧ b'.object.events = [1]) ∧
    (exec (runTo .x86_64 1) (world b) = some (.ok .running, w) ∧
      exec (runTo .x86_64 1) (world b') = some (.ok .running, w')) ∧
    (w.session.pid = 1 ∧ w'.session.pid = 2) ∧
    point w.session = .stop 1 ∧ point w'.session = .stop 1 := by
  have hrun : ∃ (b b' : Hosted ReplayBackend (Os oneCall)) (w₁ w w₁' w' : World (Os oneCall)),
      (ReplayBackend.open .x86_64 (fun _ => "") ⟨"true", []⟩ oneCallRecords 0 (emptyOs oneCall) =
          some (.ok b.object, b.host) ∧
        ReplayBackend.open .x86_64 (fun _ => "") ⟨"true", []⟩ oneCallRecords 0 b.host =
          some (.ok b'.object, b'.host)) ∧
      (b.object.events = [1] ∧ b'.object.events = [1]) ∧
      (exec (driveRound .x86_64 (some 1)) (world b) = some (.ok none, w₁) ∧
        exec (driveRound .x86_64 (some 1)) w₁ = some (.ok none, w) ∧
        exec (driveRound .x86_64 (some 1)) w = some (.ok (some .running), w)) ∧
      (exec (driveRound .x86_64 (some 1)) (world b') = some (.ok none, w₁') ∧
        exec (driveRound .x86_64 (some 1)) w₁' = some (.ok none, w') ∧
        exec (driveRound .x86_64 (some 1)) w' = some (.ok (some .running), w')) ∧
      ((world b).session.finished = none ∧ (world b).session.multithreaded = false) ∧
      ((world b').session.finished = none ∧ (world b').session.multithreaded = false) ∧
      (shouldRestart (world b).session.currentSeq (planStart (world b).session 1).seq 1 = false ∧
        shouldRestart (world b').session.currentSeq (planStart (world b').session 1).seq 1 =
          false) ∧
      (w.session.pid = 1 ∧ w'.session.pid = 2) ∧
      point w.session = .stop 1 ∧ point w'.session = .stop 1 :=
    ⟨⟨_, _⟩, ⟨_, _⟩, _, _, _, _, ⟨rfl, rfl⟩, ⟨rfl, rfl⟩, ⟨rfl, rfl, rfl⟩, ⟨rfl, rfl, rfl⟩,
      ⟨rfl, rfl⟩, ⟨rfl, rfl⟩, ⟨rfl, rfl⟩, ⟨rfl, rfl⟩, rfl, rfl⟩
  rcases hrun with ⟨b, b', w₁, w, w₁', w', ⟨hopen, hopen'⟩, hevents, ⟨hgo, hon, hstop⟩,
    ⟨hgo', hon', hstop'⟩, ⟨hlive, hsingle⟩, ⟨hlive', hsingle'⟩, ⟨hfresh, hfresh'⟩, hpids, hpoints⟩
  refine ⟨b, b', w, w', hopen, hopen', hevents, ⟨?_, ?_⟩, hpids, hpoints⟩
  · rw [exec_runTo_drive hfresh, exec_drive_single hlive hsingle]
    exact loop_returns (.succ hgo (.succ hon (.zero w))) (.inl ⟨_, hstop, rfl⟩)
  · rw [exec_runTo_drive hfresh', exec_drive_single hlive' hsingle']
    exact loop_returns (.succ hgo' (.succ hon' (.zero w'))) (.inl ⟨_, hstop', rfl⟩)

/-- One is launched to the event, the other jumps there. Their tracees are two processes, and they
show one stack and the same registers. -/
theorem inspection_determined_oneCall :
    ∃ (bytes : Bytes) (b b' b₁ b₁' : Hosted ReplayBackend (Os oneCall)),
      Opened Crc32.hash bytes ⟨"true", []⟩ oneCallRecords ∧
      Debugged oneCall (fun _ => "") ⟨"true", []⟩ oneCallRecords
        [⟨b, .launch .null, .onMain "entry", b₁⟩] b₁ ∧
      Debugged oneCall (fun _ => "") ⟨"true", []⟩ oneCallRecords
        [⟨b', .jumpToEvent (.object [("seq", .ofU64 1)]), .onMain "step", b₁'⟩] b₁' ∧
      b₁.object.session.pid = 1 ∧ b₁'.object.session.pid = 2 ∧
      ∀ files iterFrames texts rest, ∃ seen, Inspected files iterFrames texts rest b₁ seen ∧
        Inspected files iterFrames texts rest b₁' seen ∧
        (seen = .error (.error .noTracee) ↔ point b₁.object.session = .ended) := by
  obtain ⟨bytes, hopened⟩ := oneCall_opened
  obtain ⟨b, b', w, w', hopen, hopen', ⟨hevents, hevents'⟩, ⟨hdrive, hdrive'⟩, ⟨hpid, hpid'⟩,
    hpoint, hpoint'⟩ := oneCall_twice
  have hlaunch : exec (move .x86_64 (fun _ => "") (.launch .null)) b =
      some (.ok (.onMain "entry"), drivenTo b w 0 none) := by
    have hgo : exec (goto .x86_64 (fun _ => "") 0 "entry") b =
        some (.ok (.onMain "entry"), drivenTo b w 0 none) := by
      refine (bind_ok (m := object) rfl).trans ?_
      rw [hevents]
      exact bind_ok (exec_zoom_ok hdrive)
    refine (bind_ok (m := object) rfl).trans ?_
    rw [hevents]
    exact hgo
  have hjump : exec (move .x86_64 (fun _ => "") (.jumpToEvent (.object [("seq", .ofU64 1)]))) b' =
      some (.ok (.onMain "step"), drivenTo b' w' 0 none) := by
    refine (bind_ok (exec_zoom_ok hdrive')).trans ?_
    show some (_, drivenTo b' w' ((rposition _ b'.object.events).getD 0) none) = _
    rw [hevents', (of_point_stop hpoint').2]
    rfl
  have hrun := Debugged.moved (Debugged.opened hopen) _ hlaunch
  have hrun' := Debugged.moved (Debugged.opened hopen') _ hjump
  have hnamed : IsProcess (drivenTo b w 0 none).object.session.pid := by
    show IsProcess w.session.pid
    rw [hpid]
    decide
  have hnamed' : IsProcess (drivenTo b' w' 0 none).object.session.pid := by
    show IsProcess w'.session.pid
    rw [hpid']
    decide
  exact ⟨bytes, b, b', _, _, hopened, hrun, hrun', hpid, hpid', inspection_determined oneCallLaws
    hopened rfl oneCall_shows hrun hrun' hnamed hnamed' (hpoint.trans hpoint'.symm)⟩

end Mirrorscope.Dap
