import Mirrorscope.Capture.Queue

/-! # Withheld parents

A `vfork` suspends the parent until its child execs or exits. The scheduler withholds the
parent for as long as the child is pending; it releases it when the child exits, and only
then.
-/

namespace Mirrorscope.Capture

open Linux Run

/-- The thread that a status reports to have execed or to be gone. -/
def letsGo : WaitStatus → Option Pid
  | .ptraceEvent pid _ event => if event = EventCode.exec then some pid else none
  | .exited pid _ | .signaled pid _ _ => some pid
  | _ => none

/-- The thread was seen to exec or to exit. -/
def LetGo (past : List Report) (pid : Pid) : Prop := ∃ r ∈ past, letsGo r.status = some pid

/-- No pending child was seen to exec or to exit. -/
def Withholding (past : List Report) (s : Scheduler) : Prop :=
  ∀ child parent : Pid, s.vforkPending[child]? = some parent → ¬ LetGo past child

/-- If the report is of a pending child that execs or exits, its parent is queued after it,
unless it is gone itself. -/
def Requeues (r : Report) (s : Scheduler) : Prop :=
  ∀ child parent : Pid, letsGo r.status = some child →
    r.state.vforkPending[child]? = some parent → s.Tracks parent → parent ∈ s.ready

/-- The report is not of a pending child that execs, nor of a `vfork` of a child that was
already seen to exec or to exit. -/
structure Releasing (past : List Report) (r : Report) : Prop where
  exec : ∀ pid sig, r.status = .ptraceEvent pid sig EventCode.exec →
    r.state.vforkPending[pid]? = none
  vfork : ∀ pid sig child, r.status = .ptraceEvent pid sig EventCode.vfork →
    r.child = some child → ¬ LetGo past child

/-- Every report was such. -/
def AllReleasing (past : List Report) : Prop := past.Each Releasing

section Steps

variable {s s' : Scheduler} {past : List Report}

theorem letGo_append {r : Report} {pid : Pid} :
    LetGo (past ++ [r]) pid ↔ LetGo past pid ∨ letsGo r.status = some pid := by
  simp only [LetGo, List.mem_append, List.mem_singleton]
  constructor
  · rintro ⟨r', hr' | rfl, hgo⟩
    · exact .inl ⟨r', hr', hgo⟩
    · exact .inr hgo
  · rintro (⟨r', hr', hgo⟩ | hgo)
    · exact ⟨r', .inl hr', hgo⟩
    · exact ⟨r, .inr rfl, hgo⟩

theorem vforkPending_starts (h : Starts s s') : s'.vforkPending = s.vforkPending := by
  cases h with
  | running _ => rfl
  | idle _ _ => rfl
  | resumed hrunning hready ts => exact Scheduler.vforkPending_resumed

/-- Releasing a child's parent drops the child. -/
theorem vforkPending_release (s : Scheduler) (pid c : Pid) :
    (s.release pid).vforkPending[c]? = if pid = c then none else s.vforkPending[c]? := by
  unfold Scheduler.release
  split
  · rw [Scheduler.vforkPending_requeue]
    exact KeyMap.get_erase _ _ _
  · rename_i hnone
    split
    · rename_i heq
      rw [← heq, hnone]
    · rfl

/-- After the release the parent is queued, if it is tracked. -/
theorem mem_ready_release {pid parent : Pid} (h : s.vforkPending[pid]? = some parent)
    (htracked : s.Tracks parent) : parent ∈ (s.release pid).ready := by
  unfold Scheduler.release
  rw [h]
  exact Scheduler.mem_ready_requeue.mpr (.inr ⟨rfl, htracked⟩)

/-- What a step does to the pending children. -/
theorem Handled.pending {status : WaitStatus} {child : Option Pid} (h : Handled s status child s')
    {c parent : Pid} (hp : s'.vforkPending[c]? = some parent) :
    (s.vforkPending[c]? = some parent ∧ (gone status).map Prod.fst ≠ some c) ∨
      ∃ sig, status = .ptraceEvent parent sig EventCode.vfork ∧ child = some c := by
  cases h with
  | enter => exact .inl ⟨by simpa using hp, by simp [gone]⟩
  | exit => exact .inl ⟨by simpa using hp, by simp [gone]⟩
  | spawn => exact .inl ⟨by simpa using hp, by simp [gone]⟩
  | @vfork pid child sig ts =>
    rw [KeyMap.get_insert] at hp
    split at hp
    · rename_i heq
      rcases Option.some.inj hp with rfl
      exact .inr ⟨sig, rfl, congrArg some heq⟩
    · exact .inl ⟨by simpa using hp, by simp [gone]⟩
  | event => exact .inl ⟨by simpa using hp, by simp [gone]⟩
  | first => exact .inl ⟨by simpa using hp, by simp [gone]⟩
  | stopped => exact .inl ⟨by simpa using hp, by simp [gone]⟩
  | signal => exact .inl ⟨by simpa using hp, by simp [gone]⟩
  | exited hgone hsilent =>
    rw [vforkPending_release] at hp
    split at hp
    · cases hp
    · rename_i hne
      refine .inl ⟨?_, by simpa [hgone] using hne⟩
      exact (Scheduler.vforkPending_clearRunning _ _) ▸ hp
  | exitRecorded hgone htracked hmany ts =>
    rw [vforkPending_release] at hp
    split at hp
    · cases hp
    · rename_i hne
      refine .inl ⟨?_, by simpa [hgone] using hne⟩
      exact (Scheduler.vforkPending_clearRunning _ _) ▸ hp
  | continued => exact .inl ⟨hp, by simp [gone]⟩
  | stillAlive => exact .inl ⟨hp, by simp [gone]⟩

/-- The exit of a pending child queues its parent. -/
theorem Handled.releases {status : WaitStatus} {child : Option Pid} (h : Handled s status child s')
    {c parent : Pid} {code : Option Int32} (hgone : gone status = some (c, code))
    (hp : s.vforkPending[c]? = some parent) (htracked : s'.Tracks parent) : parent ∈ s'.ready := by
  cases h with
  | exited hgone' hsilent =>
    obtain ⟨rfl, rfl⟩ := Prod.mk.inj (Option.some.inj (hgone'.symm.trans hgone))
    refine mem_ready_release ?_ (Scheduler.tracks_release.mp htracked)
    exact (Scheduler.vforkPending_clearRunning _ _).symm ▸ hp
  | exitRecorded hgone' htracked' hmany ts =>
    obtain ⟨rfl, rfl⟩ := Prod.mk.inj (Option.some.inj (hgone'.symm.trans hgone))
    refine mem_ready_release ?_ (Scheduler.tracks_release.mp htracked)
    exact (Scheduler.vforkPending_clearRunning _ _).symm ▸ hp
  | _ => cases hgone

/-- Without a pending child that execs, only an exit lets a pending child go. -/
theorem gone_of_letsGo {r : Report} (hr : Releasing past r) {c parent : Pid}
    (hp : r.state.vforkPending[c]? = some parent) (hgo : letsGo r.status = some c) :
    ∃ code, gone r.status = some (c, code) := by
  unfold letsGo at hgo
  split at hgo
  · rename_i pid sig event hstatus
    split at hgo
    · rename_i hexec
      rcases Option.some.inj hgo with rfl
      subst hexec
      rw [hr.exec _ sig hstatus] at hp
      cases hp
    · cases hgo
  · rename_i pid code hstatus
    rcases Option.some.inj hgo with rfl
    exact ⟨some code, by rw [hstatus]; rfl⟩
  · rename_i pid sig core hstatus
    rcases Option.some.inj hgo with rfl
    exact ⟨none, by rw [hstatus]; rfl⟩
  · cases hgo

theorem Handled.withholding {r : Report} (h : Handled r.state r.status r.child s')
    (hpast : Withholding past r.state) (hr : Releasing past r) : Withholding (past ++ [r]) s' := by
  intro child parent hp
  rw [letGo_append]
  rcases h.pending hp with ⟨hp, hnot⟩ | ⟨sig, hstatus, hchild⟩
  · rintro (hgo | hgo)
    · exact hpast child parent hp hgo
    · obtain ⟨code, hgone⟩ := gone_of_letsGo hr hp hgo
      rw [hgone] at hnot
      exact hnot rfl
  · rintro (hgo | hgo)
    · exact hr.vfork parent sig child hstatus hchild hgo
    · rw [hstatus] at hgo
      simp [letsGo, EventCode.vfork, EventCode.exec] at hgo

end Steps

section Recordings

variable {ω : Type} {arch : Arch} [Ptrace arch ω] [Host ω]

theorem Recording.withholding {leader : Pid} {past : List Report} {w : Hosted Scheduler ω}
    (h : Recording arch leader past w) (hall : AllReleasing past) : Withholding past w.object := by
  induction h with
  | new hnew =>
    intro child parent hp
    rw [new_ok hnew, Scheduler.ofLeader, KeyMap.get_empty] at hp
    cases hp
  | @turn past w w' report hw hturn ih =>
    cases report with
    | none =>
      rw [Option.toList_none, List.append_nil] at hall ⊢
      intro child parent hp
      rw [vforkPending_starts hturn.starts] at hp
      exact ih hall child parent hp
    | some r =>
      obtain ⟨hbefore, hr⟩ := List.each_snoc.mp hall
      obtain ⟨hstart, hhandled⟩ := hturn.steps
      refine hhandled.withholding ?_ hr
      intro child parent hp
      rw [vforkPending_starts hstart] at hp
      exact ih hbefore child parent hp

/-- In every recording without a pending child that execs, and without a `vfork` of a child
already seen to exec or to exit: no pending child was seen to exec or to exit, and the report
of a pending child doing so queues its parent. -/
theorem recording_releases {leader : Pid} {past : List Report} {w : Hosted Scheduler ω}
    (h : Recording arch leader past w) (hall : AllReleasing past) :
    Withholding past w.object ∧
      ∀ r w', Turn arch w (some r) w' → Releasing past r → Requeues r w'.object := by
  refine ⟨h.withholding hall, ?_⟩
  intro r w' hturn hr child parent hgo hp htracked
  obtain ⟨code, hgone⟩ := gone_of_letsGo hr hp hgo
  exact hturn.steps.2.releases hgone hp htracked

end Recordings

/-! ## A child that execs -/

/-- A leader that `vfork`s a child; the child stops for the first time, and then `last` is
reported. -/
def vforkTape (last : WaitStatus) : Tape .x86_64 where
  waits := [.ok (.ptraceEvent 1 .trap EventCode.vfork), .ok (.stopped 2 .stop), .ok last]
  children := [2]
  regs := zeroRegs

/-- When the child exits, the leader is queued. -/
theorem recording_releases_exit :
    ∃ (past : List Report) (w w' : Hosted Scheduler (Tape .x86_64)) (r : Report),
      Recording .x86_64 1 past w ∧ Turn .x86_64 w (some r) w' ∧ AllReleasing past ∧
      r.status = .exited 2 0 ∧ r.state.vforkPending[(2 : Pid)]? = some 1 ∧
      Withholding past w.object ∧ Requeues r w'.object := by
  obtain ⟨w₀, w₁, w₂, w₃, r₁, r₂, r₃, hnew, hfirst, hsecond, hthird, hr₁, hr₂, hr₃, hpending⟩ :
      ∃ (w₀ w₁ w₂ w₃ : Hosted Scheduler (Tape .x86_64)) (r₁ r₂ r₃ : Report),
        exec (new 1) ⟨.ofLeader 1, vforkTape (.exited 2 0)⟩ = some (.ok (), w₀) ∧
        Turn .x86_64 w₀ (some r₁) w₁ ∧ Turn .x86_64 w₁ (some r₂) w₂ ∧
        Turn .x86_64 w₂ (some r₃) w₃ ∧
        r₁.status = .ptraceEvent 1 .trap EventCode.vfork ∧ r₂.status = .stopped 2 .stop ∧
        r₃.status = .exited 2 0 ∧ r₃.state.vforkPending[(2 : Pid)]? = some 1 :=
    ⟨_, _, _, _, _, _, _, rfl, .reported rfl rfl rfl rfl rfl, .reported rfl rfl rfl rfl rfl,
      .reported rfl rfl rfl rfl rfl, rfl, rfl, rfl, rfl⟩
  have hrecording : Recording .x86_64 1 ([] ++ [r₁] ++ [r₂]) w₂ :=
    .turn (.turn (.new hnew) hfirst) hsecond
  have hall : AllReleasing ([] ++ [r₁] ++ [r₂]) := by
    refine List.each_snoc.mpr ⟨List.each_snoc.mpr ⟨List.each_nil, ?_⟩, ?_⟩
    · refine { exec := ?_, vfork := by simp [LetGo] }
      intro pid sig hstatus
      rw [hr₁] at hstatus
      cases hstatus
    · refine { exec := ?_, vfork := ?_ }
      · intro pid sig hstatus
        rw [hr₂] at hstatus
        cases hstatus
      · intro pid sig child hstatus
        rw [hr₂] at hstatus
        cases hstatus
  have hlast : Releasing ([] ++ [r₁] ++ [r₂]) r₃ := by
    refine { exec := ?_, vfork := ?_ }
    · intro pid sig hstatus
      rw [hr₃] at hstatus
      cases hstatus
    · intro pid sig child hstatus
      rw [hr₃] at hstatus
      cases hstatus
  obtain ⟨hwithholding, hrequeues⟩ := recording_releases hrecording hall
  exact ⟨_, w₂, w₃, r₃, hrecording, hthird, hall, hr₃, hpending, hwithholding,
    hrequeues r₃ w₃ hthird hlast⟩

/-- When the child execs, it stays pending and the leader is still withheld, though the kernel
has let it go. -/
theorem exec_keeps_withheld :
    ∃ (past : List Report) (w w' : Hosted Scheduler (Tape .x86_64)) (r : Report),
      Recording .x86_64 1 past w ∧ Turn .x86_64 w (some r) w' ∧
      r.status = .ptraceEvent 2 .trap EventCode.exec ∧
      ¬ Withholding (past ++ [r]) w'.object ∧ ¬ Requeues r w'.object := by
  obtain ⟨w₀, w₁, w₂, w₃, r₁, r₂, r₃, hnew, hfirst, hsecond, hthird, hr₃, hpending, hafter,
      htracked, hready⟩ :
      ∃ (w₀ w₁ w₂ w₃ : Hosted Scheduler (Tape .x86_64)) (r₁ r₂ r₃ : Report),
        exec (new 1) ⟨.ofLeader 1, vforkTape (.ptraceEvent 2 .trap EventCode.exec)⟩ =
          some (.ok (), w₀) ∧
        Turn .x86_64 w₀ (some r₁) w₁ ∧ Turn .x86_64 w₁ (some r₂) w₂ ∧
        Turn .x86_64 w₂ (some r₃) w₃ ∧ r₃.status = .ptraceEvent 2 .trap EventCode.exec ∧
        r₃.state.vforkPending[(2 : Pid)]? = some 1 ∧
        w₃.object.vforkPending[(2 : Pid)]? = some 1 ∧ w₃.object.Tracks 1 ∧
        w₃.object.ready = [2] :=
    ⟨_, _, _, _, _, _, _, rfl, .reported rfl rfl rfl rfl rfl, .reported rfl rfl rfl rfl rfl,
      .reported rfl rfl rfl rfl rfl, rfl, rfl, rfl, rfl, rfl⟩
  have hgo : letsGo r₃.status = some 2 := by
    rw [hr₃]
    rfl
  refine ⟨_, w₂, w₃, r₃, .turn (.turn (.new hnew) hfirst) hsecond, hthird, hr₃, ?_, ?_⟩
  · intro hwithholding
    exact hwithholding 2 1 hafter ⟨r₃, by simp, hgo⟩
  · intro hrequeues
    have hmem := hrequeues 2 1 hgo hpending htracked
    rw [hready] at hmem
    simp at hmem

end Mirrorscope.Capture
