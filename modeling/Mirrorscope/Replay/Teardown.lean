import Mathlib.Data.List.Forall2
import Mirrorscope.Replay.Custody
import Mirrorscope.Replay.Matching

/-! # Letting tracees go

A restart kills the active tracee and takes another one in its place, and a session that is
dropped kills all it holds. What a restart forgets is lost: it kills the leader alone, and
with the thread state it drops the threads that were followed.

A restart is walked like the driver was, with the old tracee let go in the middle; dropping a
session is two loops over what it holds.
* `killActive_tends`, `restart_tends`: what is held after the old tracee is gone.
* `perform_tends`: every call, from the driver and the restart.
* `Careful`: what is asked of the calls of a run.
* `never_loses_track`: in a run of such calls the session holds every task that is alive.
-/

namespace Mirrorscope.Replay

open Capture Linux Run
open Trace (Cmdline Record)

variable {ω α : Type} {arch : Arch} [Ptrace arch ω] {base : Base}

/-! ## Killing the active tracee -/

/-- The task is the active tracee or a snapshot. -/
def ReplaySession.HoldsApart (s : ReplaySession) (p : Pid) : Prop :=
  (p = s.pid ∧ s.finished = none) ∨ ∃ c ∈ s.checkpoints, c.snapshot = p

/-- The task is a snapshot. -/
def ReplaySession.Stores (s : ReplaySession) (p : Pid) : Prop := ∃ c ∈ s.checkpoints, c.snapshot = p

theorem ReplaySession.HoldsApart.holds {s : ReplaySession} {p : Pid} (h : s.HoldsApart p) :
    s.Holds p := by
  rcases h with hactive | hsnapshot
  · exact .inl hactive
  · exact .inr (.inr hsnapshot)

/-- A kill whose wait does not report the end is not answered. -/
theorem not_answered (notes : List Deed) (pid : Pid) :
    ¬ Answered (notes ++ [.killed pid] ++ [.awaited pid false]) := by
  intro h
  have hlast := h (notes ++ [.killed pid]) (.awaited pid false) [] rfl
  exact hlast (List.getLast?_concat ..)

/-- The active tracee is killed and reaped; what else was held stays. -/
theorem killed_custody {new : Option Pid} {s : ReplaySession} {notes : List Deed} {ended : Bool}
    (h : Custody ReplaySession.HoldsApart new s notes) :
    Custody ReplaySession.Stores new s (notes ++ [.killed s.pid] ++ [.awaited s.pid ended]) where
  leader := h.leader
  held hanswered p hp := by
    cases ended with
    | false => exact absurd hanswered (not_answered notes s.pid)
    | true =>
      have hne : p ≠ s.pid := by
        rintro rfl
        exact not_alive_ended hp
      have hkilled : Custody ReplaySession.HoldsApart new s (notes ++ [.killed s.pid]) := h.killed
      rcases hkilled.held hanswered.of_append p (alive_awaited hp) with
        hnew | ⟨heq, -⟩ | hsnapshot
      · exact .inl hnew
      · exact absurd heq hne
      · exact .inr hsnapshot

/-- An attempt at a call that is noted. -/
theorem attempt_noting {P Q : ReplaySession → List Deed → Prop}
    {E : ReplayError → World (Monitored Deed ω) → Prop} {ε : Type} {err : ε → ReplayError}
    {note : Except ε α → List Deed} {call : Call ω ε α}
    (h : ∀ s notes answer, P s notes → Q s (notes ++ note answer)) :
    Spec (Seen P) (Run.attempt (osOr err (Monitored.noting note call))) (fun _ => Seen Q) E :=
  Spec.attempt (noting_seen (fun s notes a hs => h s notes (.ok a) hs)
    (fun s notes e hs => h s notes (.error e) hs))

theorem killActive_tends {new : Option Pid} {F : List Deed → Prop}
    (hF : ∀ notes deed, deed.isCreation = false → F notes → F (notes ++ [deed]))
    {E : ReplayError → World (Monitored Deed ω) → Prop} :
    Spec (Seen fun s notes => F notes ∧ Custody ReplaySession.HoldsApart new s notes)
      (killActive arch : Method (Monitored Deed ω) Unit)
      (fun _ => Seen fun s notes => F notes ∧ Custody ReplaySession.Stores new s notes) E := by
  refine Spec.bind self_spec_upkeep fun s => ?_
  split
  · rename_i outcome hover
    apply Spec.pure
    rintro w ⟨rfl, hstart, hw⟩
    refine ⟨hstart, hw.leader, ?_⟩
    intro hanswered p hp
    rcases hw.held hanswered p hp with hnew | ⟨-, hlive⟩ | hsnapshot
    · exact .inl hnew
    · rw [hover] at hlive
      cases hlive
    · exact .inr hsnapshot
  · -- the two notes are taken together: only then is the tracee known to be gone
    let Killed (t : ReplaySession) (notes : List Deed) : Prop := t = s ∧
      ∃ before, notes = before ++ [.killed s.pid] ∧ F before ∧
        Custody ReplaySession.HoldsApart new s before
    refine Spec.bind (Q := fun _ => Seen Killed) ?_ fun _ => ?_
    · refine attempt_noting (P := fun t notes => t = s ∧ F notes ∧
        Custody ReplaySession.HoldsApart new t notes) ?_
      rintro t notes answer ⟨rfl, hstart, hw⟩
      exact ⟨rfl, notes, rfl, hstart, hw⟩
    · refine attempt_noting ?_
      rintro t notes answer ⟨rfl, before, rfl, hstart, hw⟩
      exact ⟨hF _ _ rfl (hF _ _ rfl hstart), killed_custody hw⟩

/-! ## Restarting -/

theorem since_snoc (hkills : base.still = false) (notes : List Deed) (deed : Deed)
    (h : base.Since notes) : base.Since (notes ++ [deed]) := by
  refine h.snoc ?_
  rw [hkills]
  nofun

theorem born_snoc (hkills : base.still = false) {child : Pid} (notes : List Deed) (deed : Deed)
    (hdeed : deed.isCreation = false) (h : base.Born child notes) :
    base.Born child (notes ++ [deed]) :=
  h.snoc (since_snoc hkills notes deed h.since) hdeed

theorem tends_rearmWatchpoint :
    Tends base (Guarded base) (rearmWatchpoint arch : Method (Monitored Deed ω) Unit) := by
  refine Upholds.bind (tends_modify fun _ => ⟨rfl, rfl, rfl, rfl⟩) fun _ => ?_
  refine Upholds.bind self_upkeep fun s => ?_
  split
  · exact lasting_guarded.arm s.pid _ _ _
  · exact Upholds.pure

/-- The new tracee takes the place of the one that was killed. -/
theorem seated_custody {s s' : ReplaySession} {notes : List Deed} {child : Pid}
    (h : Custody ReplaySession.Stores (some child) s notes) (hpid : s'.pid = child)
    (hlive : s'.finished = none) (hmt : s'.mt = none) (hcs : s'.checkpoints = s.checkpoints) :
    Custody ReplaySession.Holds none s' notes where
  leader mt hmt' := by
    rw [hmt] at hmt'
    cases hmt'
  held hanswered p hp := by
    rcases h.held hanswered p hp with hnew | ⟨c, hc, hsnapshot⟩
    · rcases Option.some.inj hnew with rfl
      exact .inr (.inl ⟨hpid.symm, hlive⟩)
    · exact .inr (.inr (.inr ⟨c, by rw [hcs]; exact hc, hsnapshot⟩))

/-- A process is spawned and taken through its first stop. -/
theorem spawnStopped_tends (cmdline : Cmdline) :
    Spec (Seen (GuardedBy base ReplaySession.Stores))
      (spawnStopped arch cmdline : Method (Monitored Deed ω) Pid)
      (fun pid => Seen (UnclaimedBy base ReplaySession.Stores pid))
      (fun _ => Seen (Strayed base)) := by
  refine Spec.bind (Q := fun pid => Seen (UnclaimedBy base ReplaySession.Stores pid)) ?_
    fun pid => ?_
  · refine noting_seen ?_ ?_
    · rintro s notes pid ⟨hstart, hw⟩
      exact ⟨hstart.born, hw.created⟩
    · rintro s notes e hs
      rw [Deed.ofCreation, List.append_nil]
      exact (lasting_guardedBy fun _ _ hp => .inr (.inr hp)).strayed s notes hs
  have hchild : Lasting base (UnclaimedBy base ReplaySession.Stores pid) :=
    lasting_unclaimedBy fun _ _ hp => .inr (.inr hp)
  refine Spec.bind (hchild.wait pid .none) fun _ => ?_
  refine Spec.bind (Q := fun _ => Seen (UnclaimedBy base ReplaySession.Stores pid))
    hchild.silent fun _ => ?_
  exact Spec.pure fun _ hw => hw

/-- The new process takes the place of the one that was killed. -/
theorem respawn_tends (hkills : base.still = false) :
    Spec (Seen (GuardedBy base ReplaySession.HoldsApart))
      (respawn arch : Method (Monitored Deed ω) Unit) (fun _ => Seen (Guarded base))
      (fun _ => Seen (Strayed base)) := by
  refine Spec.bind (Q := fun _ => Seen (GuardedBy base ReplaySession.Stores)) ?_ fun _ => ?_
  · exact (killActive_tends fun notes deed _ => since_snoc hkills notes deed).mono
      (fun _ hw => ⟨hw.start, hw.custody⟩) (fun _ _ hw => ⟨hw.1, hw.2⟩) (fun _ _ hw => hw)
  refine Spec.bind self_upkeep fun s => ?_
  refine Spec.bind (spawnStopped_tends s.cmdline) fun pid => ?_
  refine Spec.bind (Q := fun _ => Seen (Guarded base)) (modifySelf_upkeep ?_) fun _ =>
    tends_rearmWatchpoint
  rintro w ⟨hcreated, hw⟩
  exact ⟨hcreated.since, seated_custody hw rfl rfl rfl rfl⟩

/-- The fork of the snapshot does. -/
theorem restoreToCheckpoint_tends (hkills : base.still = false) (index : Nat) :
    Spec (Seen (GuardedBy base ReplaySession.HoldsApart))
      (restoreToCheckpoint arch index : Method (Monitored Deed ω) Unit)
      (fun _ => Seen (Guarded base))
      (fun _ => Seen (Strayed base)) := by
  refine Spec.bind self_upkeep fun s => ?_
  split
  · exact Spec.never
  · rename_i checkpoint hcheckpoint
    refine Spec.bind (forkSnapshot_tends (fun _ _ h => h.holds) _) fun fresh => ?_
    refine Spec.bind (Q := fun _ => Seen (UnclaimedBy base ReplaySession.Stores fresh)) ?_
      fun _ => ?_
    · exact (killActive_tends (born_snoc hkills)).mono (fun _ hw => ⟨hw.created, hw.custody⟩)
        (fun _ _ hw => ⟨hw.1, hw.2⟩) (fun _ _ hw => hw)
    refine Spec.bind (Q := fun _ => Seen (Guarded base)) (modifySelf_upkeep ?_) fun _ =>
      tends_rearmWatchpoint
    rintro w ⟨hcreated, hw⟩
    exact ⟨hcreated.since, seated_custody hw rfl rfl rfl rfl⟩

/-- Either way the tracee that is let go is the only one the restart forgets. -/
theorem restart_tends (hkills : base.still = false) (start : StartPoint) :
    Spec (Seen (GuardedBy base ReplaySession.HoldsApart))
      (restart arch start : Method (Monitored Deed ω) Unit) (fun _ => Seen (Guarded base))
      (fun _ => Seen (Strayed base)) := by
  unfold restart
  split
  · exact restoreToCheckpoint_tends hkills _
  · exact respawn_tends hkills

/-! ## Calls -/

/-- No thread beside the active tracee is followed and alive. -/
def Alone (w : World (Monitored Deed ω)) : Prop :=
  ∀ p ∈ alive w.os.notes, w.session.Follows p → p = w.session.pid ∧ w.session.finished = none

/-- A session that follows nobody else holds its tasks apart from the tracee. -/
theorem Alone.apart {w : World (Monitored Deed ω)} (h : Alone w) (hw : Seen (Guarded base) w) :
    Seen (GuardedBy base ReplaySession.HoldsApart) w := by
  refine ⟨hw.start, hw.custody.leader, ?_⟩
  intro hanswered p hp
  rcases hw.custody.held hanswered p hp with hnew | hactive | hfollows | hsnapshot
  · exact .inl hnew
  · exact .inr (.inl hactive)
  · exact .inr (.inl (h p hp hfollows))
  · exact .inr (.inr hsnapshot)

theorem tends_forEach {f : Pid → Method (Monitored Deed ω) Unit}
    (h : ∀ p, Tends base (Guarded base) (f p)) (pids : List Pid) :
    Tends base (Guarded base) (forEach f pids) :=
  forEach_upkeep (M := fun _ => Seen (Guarded base)) (fun _ p => h p) [] pids

theorem tends_watch (addr : UInt64) (len : UInt8) (kind : WatchKind) :
    Tends base (Guarded base) (watch arch addr len kind : Method (Monitored Deed ω) Unit) := by
  refine Upholds.bind lasting_guarded.orFail fun _ => ?_
  refine Upholds.bind self_upkeep fun s => ?_
  refine Upholds.bind (tends_forEach (fun p => lasting_guarded.arm p addr len kind) _) fun _ => ?_
  refine Upholds.bind (lasting_guarded.readMemory s.pid addr _) fun value => ?_
  exact tends_modify fun _ => ⟨rfl, rfl, rfl, rfl⟩

/-- Debug registers are cleared; nobody is let go. -/
theorem tends_clearWatch :
    Tends base (Guarded base) (clearWatch arch : Method (Monitored Deed ω) Unit) := by
  refine Upholds.bind self_upkeep fun s => ?_
  refine Upholds.bind (tends_modify fun _ => ⟨rfl, rfl, rfl, rfl⟩) fun _ => ?_
  refine Upholds.bind (Upholds.when (tends_forEach lasting_guarded.disarm _)) fun _ => ?_
  exact tends_modify fun _ => ⟨rfl, rfl, rfl, rfl⟩

variable [Unwind ω]

/-- A call keeps custody; one that restarts, if no other thread is followed. -/
theorem perform_tends (c : SessionCall) :
    Spec (fun w => (c.restarts w.session = true → base.still = false ∧ Alone w) ∧
        Seen (Guarded base) w)
      (perform arch c : Method (Monitored Deed ω) (Option ExitOutcome))
      (fun _ => Seen (Guarded base))
      (fun _ => Seen (Strayed base)) := by
  have hdrive (stopAt : Option UInt64) : Tends base (Guarded base) (do
      let outcome ← drive arch stopAt
      pure (some outcome) : Method (Monitored Deed ω) (Option ExitOutcome)) :=
    Upholds.bind (tends_drive stopAt) fun _ => Upholds.pure
  have hplain {m : Method (Monitored Deed ω) (Option ExitOutcome)}
      (hm : Tends base (Guarded base) m) :
      Spec (fun w => (c.restarts w.session = true → base.still = false ∧ Alone w) ∧
        Seen (Guarded base) w) m (fun _ => Seen (Guarded base)) (fun _ => Seen (Strayed base)) :=
    hm.mono (fun _ hw => hw.2) (fun _ _ hw => hw) (fun _ _ hw => hw)
  -- Two of the calls may restart, and then the session has to be alone.
  cases c with
  | runTo seq =>
    refine Spec.bind (Q := fun _ => Seen (Guarded base)) ?_ fun _ => Upholds.pure
    refine Spec.bind self_spec_upkeep fun s => ?_
    refine Spec.bind (Q := fun _ => Seen (Guarded base)) (Spec.when ?_ ?_) fun _ =>
      tends_drive (some seq)
    · rintro hrestart w ⟨rfl, halone, hw⟩
      rcases halone hrestart with ⟨hkills, halone⟩
      exact restart_tends hkills _ w (halone.apart hw)
    · rintro - w ⟨-, -, hw⟩
      exact hw
  | stepTo seq => exact hplain (hdrive (some seq))
  | runToEnd => exact hplain (hdrive none)
  | restoreTo seq =>
    refine Spec.bind (Q := fun _ => Seen (Guarded base)) ?_ fun _ => Upholds.pure
    refine Spec.bind self_spec_upkeep fun s => ?_
    rintro w ⟨rfl, halone, hw⟩
    rcases halone rfl with ⟨hkills, halone⟩
    exact restart_tends hkills _ w (halone.apart hw)
  | checkpointInterval interval =>
    exact hplain (Upholds.bind (tends_modify fun _ => ⟨rfl, rfl, rfl, rfl⟩) fun _ => Upholds.pure)
  | watch addr len kind =>
    exact hplain (Upholds.bind (tends_watch addr len kind) fun _ => Upholds.pure)
  | clearWatch => exact hplain (Upholds.bind tends_clearWatch fun _ => Upholds.pure)
  | takeWatchHits =>
    refine hplain (Upholds.bind (Upholds.bind self_upkeep fun s => ?_) fun _ => Upholds.pure)
    exact Upholds.bind (tends_modify fun _ => ⟨rfl, rfl, rfl, rfl⟩) fun _ => Upholds.pure

/-! ## Dropping a session -/

/-- The deeds in which the leader, once killed, is waited for come after those in which every
task it is followed with was killed and reaped. -/
def LeaderLast (s : ReplaySession) (tasks : List Pid) (deeds : List Deed) : Prop :=
  ∀ pre ended post, deeds = pre ++ .awaited s.pid ended :: post → .killed s.pid ∈ pre →
    ∀ q ∈ tasks, s.Follows q → q ≠ s.pid → .killed q ∈ pre ∧ .awaited q true ∈ pre

/-- The deeds kill and then wait for every task of the session; and if the waits report the
ends, no task is left alive, and the leader comes last. -/
def Releases (w w' : World (Monitored Deed ω)) : Prop :=
  ∃ deeds, w'.os.notes = w.os.notes ++ deeds ∧
    (∀ p ∈ alive w.os.notes, .killed p ∈ deeds ∧ ∃ ended, .awaited p ended ∈ deeds) ∧
    ((∀ p, .awaited p false ∉ deeds) →
      alive w'.os.notes = [] ∧ LeaderLast w.session (alive w.os.notes) deeds)

/-- The tasks that are waited for, in their order. -/
def Reaps (pids : List Pid) (deeds : List Deed) : Prop :=
  List.Forall₂ (fun p deed => ∃ ended, deed = .awaited p ended) pids deeds

omit [Unwind ω] in
/-- Every one of the list is killed, whatever the kernel answers. -/
theorem forEach_kill {s : ReplaySession} {notes : List Deed} (done pids : List Pid)
    {E : ReplayError → World (Monitored Deed ω) → Prop} :
    Spec (Seen fun t deeds => t = s ∧ deeds = notes ++ done.map .killed)
      (forEach (fun pid => Run.attempt (os (Ptrace.kill arch pid))) pids :
        Method (Monitored Deed ω) Unit)
      (fun _ => Seen fun t deeds => t = s ∧ deeds = notes ++ (done ++ pids).map .killed) E := by
  refine forEach_upkeep (M := fun done => Seen fun t deeds =>
    t = s ∧ deeds = notes ++ done.map .killed) ?_ done pids
  intro done pid
  refine attempt_noting ?_
  rintro t deeds answer ⟨rfl, rfl⟩
  exact ⟨rfl, by rw [List.map_append, List.append_assoc]; rfl⟩

omit [Unwind ω] in
/-- Every one of them is waited for. -/
theorem forEach_wait {s : ReplaySession} {notes : List Deed} (done pids : List Pid)
    {E : ReplayError → World (Monitored Deed ω) → Prop} :
    Spec (Seen fun t deeds => t = s ∧ ∃ waits, deeds = notes ++ waits ∧ Reaps done waits)
      (forEach (fun pid => Run.attempt (os (Ptrace.waitpid arch pid .wall))) pids :
        Method (Monitored Deed ω) Unit)
      (fun _ => Seen fun t deeds =>
        t = s ∧ ∃ waits, deeds = notes ++ waits ∧ Reaps (done ++ pids) waits) E := by
  refine forEach_upkeep (M := fun done => Seen fun t deeds =>
    t = s ∧ ∃ waits, deeds = notes ++ waits ∧ Reaps done waits) ?_ done pids
  intro done pid
  refine attempt_noting ?_
  rintro t deeds answer ⟨rfl, waits, rfl, hwaits⟩
  refine ⟨rfl, waits ++ Deed.ofWait pid answer, List.append_assoc .., ?_⟩
  exact List.rel_append hwaits (.cons ⟨_, rfl⟩ .nil)

/-- The tracees a session has when it is dropped: the siblings, and then the leader. -/
def dropped (s : ReplaySession) : List Pid × List Pid :=
  let followed : List Pid :=
    match s.mt with
    | some mt => mt.livePids
    | none => []
  let tracees :=
    if s.finished.isNone && !followed.contains s.pid then followed ++ [s.pid] else followed
  (tracees.filter (· ≠ s.pid), tracees.filter (· = s.pid))

/-- Everyone the session follows is in one of the two lists. -/
theorem mem_dropped {s : ReplaySession} {p : Pid}
    (h : (p = s.pid ∧ s.finished = none) ∨ s.Follows p) :
    (p ≠ s.pid → p ∈ (dropped s).1) ∧ (p = s.pid → p ∈ (dropped s).2) := by
  have hmem : ∀ followed : List Pid, (s.Follows p → p ∈ followed) →
      p ∈ (if s.finished.isNone && !followed.contains s.pid then followed ++ [s.pid]
        else followed) := by
    intro followed hfollowed
    rcases h with ⟨rfl, hlive⟩ | hfollows
    · rw [hlive]
      by_cases hin : s.pid ∈ followed
      · simp [hin]
      · simp [hin]
    · split
      · exact List.mem_append_left _ (hfollowed hfollows)
      · exact hfollowed hfollows
  have hfollowed : s.Follows p → p ∈ (match s.mt with
      | some mt => mt.livePids
      | none => []) := by
    rintro ⟨mt, hmt, hp⟩
    rw [hmt]
    exact (KeyMap.mem_keys_iff mt.threads p).mpr hp
  constructor
  · intro hne
    exact List.mem_filter.mpr ⟨hmem _ hfollowed, decide_eq_true hne⟩
  · intro heq
    exact List.mem_filter.mpr ⟨hmem _ hfollowed, decide_eq_true heq⟩

/-- Where nothing is created, what is alive was alive before, and its end was not reported. -/
theorem alive_append {notes deeds : List Deed} {p : Pid}
    (hold : ∀ deed ∈ deeds, deed.isCreation = false) (hp : p ∈ alive (notes ++ deeds)) :
    p ∈ alive notes ∧ .awaited p true ∉ deeds := by
  unfold alive at hp ⊢
  rw [List.foldl_append] at hp
  generalize notes.foldl Deed.apply [] = tasks at hp ⊢
  induction deeds generalizing tasks with
  | nil => exact ⟨hp, List.not_mem_nil⟩
  | cons deed deeds ih =>
    have hrest := ih (fun d hd => hold d (List.mem_cons_of_mem _ hd)) _ hp
    have hdeed := hold deed List.mem_cons_self
    rw [List.mem_cons, not_or]
    cases deed with
    | created q => cases hdeed
    | killed q => exact ⟨hrest.1, nofun, hrest.2⟩
    | awaited q ended =>
      cases ended with
      | false => exact ⟨hrest.1, nofun, hrest.2⟩
      | true =>
        have hmem := List.mem_filter.mp hrest.1
        refine ⟨hmem.1, ?_, hrest.2⟩
        intro heq
        injection heq with hpq
        exact of_decide_eq_true hmem.2 hpq

namespace Reaps

variable {pids : List Pid} {waits : List Deed} {p : Pid}

theorem mem (h : Reaps pids waits) (hp : p ∈ pids) : ∃ ended, .awaited p ended ∈ waits := by
  induction h with
  | nil => cases hp
  | cons hdeed _ ih =>
    rcases List.mem_cons.mp hp with rfl | hmem
    · rcases hdeed with ⟨ended, rfl⟩
      exact ⟨ended, List.mem_cons_self⟩
    · rcases ih hmem with ⟨ended, hended⟩
      exact ⟨ended, List.mem_cons_of_mem _ hended⟩

theorem of_mem (h : Reaps pids waits) {deed : Deed} (hdeed : deed ∈ waits) :
    ∃ p ∈ pids, ∃ ended, deed = .awaited p ended := by
  induction h with
  | nil => cases hdeed
  | cons hfirst _ ih =>
    rcases List.mem_cons.mp hdeed with rfl | hmem
    · exact ⟨_, List.mem_cons_self, hfirst⟩
    · rcases ih hmem with ⟨q, hq, ended, heq⟩
      exact ⟨q, List.mem_cons_of_mem _ hq, ended, heq⟩

/-- The waits for two lists are those for the first and then those for the second. -/
theorem split {more : List Pid} (h : Reaps (pids ++ more) waits) :
    ∃ first rest, waits = first ++ rest ∧ Reaps pids first ∧ Reaps more rest := by
  induction pids generalizing waits with
  | nil => exact ⟨[], waits, rfl, .nil, h⟩
  | cons q pids ih =>
    cases h with
    | cons hdeed htail =>
      rcases ih htail with ⟨first, rest, rfl, hfirst, hrest⟩
      exact ⟨_ :: first, rest, rfl, .cons hdeed hfirst, hrest⟩

end Reaps

/-- What a drop does: it kills the tracees and the snapshots, and then waits for them, for
the siblings before the leader. -/
def Drops (s : ReplaySession) (deeds : List Deed) : Prop :=
  ∃ siblings rest, deeds =
      ((dropped s).1 ++ (dropped s).2 ++ s.checkpoints.map (·.snapshot)).map .killed
        ++ siblings ++ rest ∧
    Reaps (dropped s).1 siblings ∧ Reaps ((dropped s).2 ++ s.checkpoints.map (·.snapshot)) rest

omit [Unwind ω] in
theorem drop_drops {E : ReplayError → World (Monitored Deed ω) → Prop} (s : ReplaySession)
    (notes : List Deed) :
    Spec (Seen fun t deeds => t = s ∧ deeds = notes) (drop arch : Method (Monitored Deed ω) Unit)
      (fun _ => Seen fun t deeds => t = s ∧ ∃ more, deeds = notes ++ more ∧ Drops s more) E := by
  refine Spec.bind (Q := fun t w => t = s ∧ Seen (fun t deeds => t = s ∧ deeds = notes) w) ?_
    fun t => Spec.assume ?_
  · refine self_spec_upkeep.mono (fun _ hw => hw) ?_ (fun _ _ hw => hw)
    rintro t w ⟨rfl, hs, hw⟩
    exact ⟨hs, hs, hw⟩
  rintro rfl
  let tracees := (dropped t).1 ++ (dropped t).2
  let snapshots := t.checkpoints.map (·.snapshot)
  -- The threads and the tracee come first, then the snapshots; then all are waited for.
  have hkills : Spec (Seen fun u deeds => u = t ∧ deeds = notes)
      (forEach (fun pid => Run.attempt (os (Ptrace.kill arch pid))) tracees :
        Method (Monitored Deed ω) Unit)
      (fun _ => Seen fun u deeds => u = t ∧ deeds = notes ++ tracees.map .killed) E :=
    (forEach_kill [] tracees).mono
      (fun _ hw => ⟨hw.1, hw.2.trans (List.append_nil _).symm⟩) (fun _ _ hw => hw)
      (fun _ _ hw => hw)
  refine Spec.bind hkills fun _ => ?_
  refine Spec.bind (forEach_kill tracees snapshots) fun _ => ?_
  have hwaits : Spec (Seen fun u deeds =>
        u = t ∧ deeds = notes ++ (tracees ++ snapshots).map .killed)
      (forEach (fun pid => Run.attempt (os (Ptrace.waitpid arch pid .wall))) tracees :
        Method (Monitored Deed ω) Unit)
      (fun _ => Seen fun u deeds => u = t ∧ ∃ waits,
        deeds = notes ++ (tracees ++ snapshots).map .killed ++ waits ∧ Reaps tracees waits) E :=
    (forEach_wait [] tracees).mono
      (fun _ hw => ⟨hw.1, [], hw.2.trans (List.append_nil _).symm, .nil⟩) (fun _ _ hw => hw)
      (fun _ _ hw => hw)
  refine Spec.bind hwaits fun _ => ?_
  refine (forEach_wait tracees snapshots).mono (fun _ hw => hw) ?_ (fun _ _ hw => hw)
  rintro - w ⟨hs, waits, hnotes, hreaps⟩
  rw [List.append_assoc] at hreaps
  rcases hreaps.split with ⟨siblings, rest, rfl, hsiblings, hrest⟩
  refine ⟨hs, _, ?_, siblings, rest, rfl, hsiblings, hrest⟩
  rw [hnotes]
  simp only [List.append_assoc, tracees, snapshots]

/-- Everything a session holds is killed and waited for when it is dropped. -/
theorem ReplaySession.Holds.mem_dropped {s : ReplaySession} {p : Pid} (h : s.Holds p) :
    p ∈ (dropped s).1 ∨ p ∈ (dropped s).2 ++ s.checkpoints.map (·.snapshot) := by
  have htracee (ht : (p = s.pid ∧ s.finished = none) ∨ s.Follows p) :
      p ∈ (dropped s).1 ∨ p ∈ (dropped s).2 ++ s.checkpoints.map (·.snapshot) := by
    by_cases hp : p = s.pid
    · exact .inr (List.mem_append_left _ ((Replay.mem_dropped ht).2 hp))
    · exact .inl ((Replay.mem_dropped ht).1 hp)
  rcases h with hactive | hfollows | ⟨c, hc, rfl⟩
  · exact htracee (.inl hactive)
  · exact htracee (.inr hfollows)
  · exact .inr (List.mem_append_right _ (List.mem_map_of_mem hc))

theorem not_sibling {s : ReplaySession} {p : Pid} (h : p ∈ (dropped s).1) : p ≠ s.pid :=
  of_decide_eq_true (List.mem_filter.mp h).2

namespace Drops

variable {s : ReplaySession} {deeds : List Deed} {p : Pid}

theorem killed_mem (h : Drops s deeds) (hp : s.Holds p) : .killed p ∈ deeds := by
  rcases h with ⟨siblings, rest, rfl, -, -⟩
  refine List.mem_append_left _ (List.mem_append_left _ (List.mem_map_of_mem ?_))
  rw [List.append_assoc]
  exact List.mem_append.mpr hp.mem_dropped

theorem awaited_mem (h : Drops s deeds) (hp : s.Holds p) : ∃ ended, .awaited p ended ∈ deeds := by
  rcases h with ⟨siblings, rest, rfl, hsiblings, hrest⟩
  rcases hp.mem_dropped with hmem | hmem
  · rcases hsiblings.mem hmem with ⟨ended, hended⟩
    exact ⟨ended, List.mem_append_left _ (List.mem_append_right _ hended)⟩
  · rcases hrest.mem hmem with ⟨ended, hended⟩
    exact ⟨ended, List.mem_append_right _ hended⟩

theorem not_creation (h : Drops s deeds) : ∀ deed ∈ deeds, deed.isCreation = false := by
  rcases h with ⟨siblings, rest, rfl, hsiblings, hrest⟩
  intro deed hdeed
  rcases List.mem_append.mp hdeed with hdeed | hdeed
  · rcases List.mem_append.mp hdeed with hdeed | hdeed
    · rcases List.mem_map.mp hdeed with ⟨q, -, rfl⟩
      rfl
    · rcases hsiblings.of_mem hdeed with ⟨q, -, ended, rfl⟩
      rfl
  · rcases hrest.of_mem hdeed with ⟨q, -, ended, rfl⟩
    rfl

/-- A drop whose waits all report the ends waits for the leader last. -/
theorem leaderLast (h : Drops s deeds) (hends : ∀ p, .awaited p false ∉ deeds)
    (tasks : List Pid) : LeaderLast s tasks deeds := by
  rcases h with ⟨siblings, rest, rfl, hsiblings, hrest⟩
  rintro pre ended post heq - q - hfollows hne
  -- the leader is not waited for among the siblings, so all of that part lies before
  have hpart : ∃ mid, pre = ((dropped s).1 ++ (dropped s).2
      ++ s.checkpoints.map (·.snapshot)).map .killed ++ siblings ++ mid := by
    rcases List.append_eq_append_iff.mp heq with ⟨mid, hpre, -⟩ | ⟨mid, hpart, hmid⟩
    · exact ⟨mid, hpre⟩
    · cases mid with
      | nil => exact ⟨[], by rw [hpart, List.append_nil, List.append_nil]⟩
      | cons deed mid =>
        rcases (List.cons.inj hmid).1 with rfl
        have hmem : .awaited s.pid ended ∈ ((dropped s).1 ++ (dropped s).2
            ++ s.checkpoints.map (·.snapshot)).map .killed ++ siblings := by
          rw [hpart]
          exact List.mem_append_right _ List.mem_cons_self
        rcases List.mem_append.mp hmem with hkill | hwait
        · rcases List.mem_map.mp hkill with ⟨q, -, hq⟩
          cases hq
        · rcases hsiblings.of_mem hwait with ⟨q, hq, ended', heq'⟩
          injection heq' with hpid
          exact absurd hpid.symm (not_sibling hq)
  rcases hpart with ⟨mid, rfl⟩
  have hsibling : q ∈ (dropped s).1 := (Replay.mem_dropped (.inr hfollows)).1 hne
  constructor
  · refine List.mem_append_left _ (List.mem_append_left _ (List.mem_map_of_mem ?_))
    exact List.mem_append_left _ (List.mem_append_left _ hsibling)
  · rcases hsiblings.mem hsibling with ⟨ended', hwait⟩
    cases ended' with
    | true => exact List.mem_append_left _ (List.mem_append_right _ hwait)
    | false =>
      exact absurd (List.mem_append_left _ (List.mem_append_right _ hwait)) (hends q)

end Drops

omit [Ptrace arch ω] [Unwind ω] in
/-- A session that has track of its tasks lets go of all of them when it is dropped. -/
theorem Tracked.releases {w w' : World (Monitored Deed ω)} {deeds : List Deed} (h : Tracked w)
    (hnotes : w'.os.notes = w.os.notes ++ deeds) (hdrops : Drops w.session deeds) :
    Releases w w' := by
  refine ⟨deeds, hnotes, ?_, ?_⟩
  · intro p hp
    exact ⟨hdrops.killed_mem (h p hp), hdrops.awaited_mem (h p hp)⟩
  · intro hends
    refine ⟨?_, hdrops.leaderLast hends _⟩
    rw [hnotes, List.eq_nil_iff_forall_not_mem]
    intro p hp
    rcases alive_append hdrops.not_creation hp with ⟨halive, hunended⟩
    rcases hdrops.awaited_mem (h p halive) with ⟨ended, hwait⟩
    cases ended with
    | true => exact hunended hwait
    | false => exact hends p hwait

omit [Ptrace arch ω] [Unwind ω] in
theorem forEach_total {β : Type} {f : β → Method ω Unit} (h : ∀ b, Total (f b)) (bs : List β) :
    Total (forEach f bs) := by
  induction bs with
  | nil => exact Total.pure
  | cons b bs ih => exact Total.bind (h b) fun _ => ih

omit [Unwind ω] in
/-- Dropping a session does not wait for ever. -/
theorem drop_total : Total (drop arch : Method ω Unit) := by
  have hkill (pids : List Pid) :
      Total (forEach (fun pid => Run.attempt (os (Ptrace.kill arch pid))) pids : Method ω Unit) :=
    forEach_total (fun _ => Total.attempt os_total) pids
  have hwait (pids : List Pid) :
      Total (forEach (fun pid => Run.attempt (os (Ptrace.waitpid arch pid .wall))) pids :
        Method ω Unit) :=
    forEach_total (fun _ => Total.attempt os_total) pids
  refine Total.bind self_total fun s => ?_
  exact Total.bind (hkill _) fun _ => Total.bind (hkill _) fun _ =>
    Total.bind (hwait _) fun _ => hwait _

omit [Unwind ω] in
/-- A session that has track of its tasks can be dropped, and lets go of them. -/
theorem Tracked.drop {w : World (Monitored Deed ω)} (h : Tracked w) :
    ∃ w', exec (drop arch) w = some (.ok (), w') ∧ Releases w w' := by
  have htotal : Total (Replay.drop arch : Method (Monitored Deed ω) Unit) := drop_total
  rcases htotal w with ⟨r, w', hdrop⟩
  have hspec : Spec (Seen fun t deeds => t = w.session ∧ deeds = w.os.notes)
      (Replay.drop arch : Method (Monitored Deed ω) Unit) _ (fun _ _ => False) :=
    drop_drops w.session w.os.notes
  cases r with
  | error e => exact (hspec.error (s := w) ⟨rfl, rfl⟩ hdrop).elim
  | ok u =>
    rcases hspec.ok (s := w) ⟨rfl, rfl⟩ hdrop with ⟨-, deeds, hnotes, hdrops⟩
    exact ⟨w', hdrop, h.releases hnotes hdrops⟩

/-! ## Runs of a session -/

/-- One call on a session: the state before, the call, its answer and the state after. -/
structure CallStep (ω : Type) where
  before : World ω
  call : SessionCall
  answer : Except ReplayError (Option ExitOutcome)
  after : World ω

variable (arch) in
/-- A session is launched, and calls are made on it, whether they fail or not. -/
inductive Called : List (CallStep (Monitored Deed ω)) → World (Monitored Deed ω) → Prop where
  | launch {cmdline : Cmdline} {records : List Record} {os : ω} {w : World (Monitored Deed ω)}
      (h : exec (launch arch) ⟨ReplaySession.ofTrace cmdline records, ⟨os, []⟩⟩ =
        some (.ok (), w)) :
      Called [] w
  | call {steps : List (CallStep (Monitored Deed ω))} {w w' : World (Monitored Deed ω)}
      {c : SessionCall} {r : Except ReplayError (Option ExitOutcome)} (run : Called steps w)
      (h : exec (perform arch c) w = some (r, w')) : Called (steps ++ [⟨w, c, r, w'⟩]) w'

/-- A call that gives the session no way to lose a task. It may fail, but not between the
creation of a task and its being stored: what a failing call created last is held after it,
or gone. The waits after a kill report the end of the task, as the session does not look at
them. A restart, which kills the active tracee alone, is made while no other thread is
followed and alive. -/
structure Careful (step : CallStep (Monitored Deed ω)) : Prop where
  finishes : (∃ outcome, step.answer = .ok outcome) ∨
    ∀ deeds child, step.after.os.notes = step.before.os.notes ++ deeds →
      newest deeds = some child → child ∈ alive step.after.os.notes →
      step.after.session.Holds child
  answered : Answered step.after.os.notes
  alone : step.call.restarts step.before.session = true → Alone step.before

variable (arch) in
/-- The session has track of its tasks after the call, no leader was waited for in the call
before its siblings, and a drop would let go of all of them. -/
structure KeepsTrack (step : CallStep (Monitored Deed ω)) : Prop where
  tracked : Tracked step.after
  leaderLast : ∃ deeds, step.after.os.notes = step.before.os.notes ++ deeds ∧
    LeaderLast step.before.session (alive step.before.os.notes) deeds
  drops : ∃ w, exec (drop arch) step.after = some (.ok (), w) ∧ Releases step.after w

omit [Unwind ω] in
/-- A launched session holds the process it has spawned. -/
theorem launch_guarded {cmdline : Cmdline} {records : List Record} {os : ω}
    {w : World (Monitored Deed ω)}
    (h : exec (launch arch) ⟨ReplaySession.ofTrace cmdline records, ⟨os, []⟩⟩ =
      some (.ok (), w)) : Guarded ⟨[], true⟩ w.session w.os.notes := by
  let base : Base := ⟨[], true⟩
  let Unseated (s : ReplaySession) : Prop := s.finished = none ∧ s.mt = none
  have hspec : Spec
      (fun w => On Unseated w ∧ Seen (GuardedBy base ReplaySession.Stores) w)
      (launch arch : Method (Monitored Deed ω) Unit)
      (fun _ => Seen (Guarded base)) (fun _ _ => True) := by
    refine Spec.bind self_upkeep fun s => ?_
    refine Spec.bind (((spawnStopped_keeps arch s.cmdline).and (spawnStopped_tends s.cmdline)).mono
      (fun _ hw => hw) (fun _ _ hw => hw) (fun _ _ _ => trivial)) fun pid => ?_
    refine modifySelf_upkeep ?_
    rintro w ⟨⟨hlive, hmt⟩, hcreated, hw⟩
    exact ⟨hcreated.since, seated_custody hw rfl hlive hmt rfl⟩
  have hstart : GuardedBy base ReplaySession.Stores (ReplaySession.ofTrace cmdline records) [] :=
    ⟨⟨[], rfl, nofun⟩, nofun, nofun⟩
  exact hspec.ok (s := ⟨ReplaySession.ofTrace cmdline records, ⟨os, []⟩⟩)
    ⟨⟨rfl, rfl⟩, hstart⟩ h

/-- One careful call: custody is kept, and the notes grow without a kill unless the session
is restarted. -/
theorem Careful.guarded {step : CallStep (Monitored Deed ω)} (hcareful : Careful step)
    (hstart : Custody ReplaySession.Holds none step.before.session step.before.os.notes)
    (h : exec (perform arch step.call) step.before = some (step.answer, step.after)) :
    Guarded ⟨step.before.os.notes, !step.call.restarts step.before.session⟩
      step.after.session step.after.os.notes := by
  let base : Base := ⟨step.before.os.notes, !step.call.restarts step.before.session⟩
  have hbefore : Seen (Guarded base) step.before :=
    ⟨⟨[], (List.append_nil _).symm, nofun⟩, hstart⟩
  have hpost := @perform_tends ω arch _ base _ step.call step.before
    ⟨fun hrestart => ⟨congrArg Bool.not hrestart, hcareful.alone hrestart⟩, hbefore⟩ _ _ h
  rcases hanswer : step.answer with e | outcome
  · rw [hanswer] at hpost
    rcases hcareful.finishes with ⟨outcome, hok⟩ | hstored
    · rw [hanswer] at hok
      cases hok
    · refine ⟨hpost.since, ?_⟩
      rcases hpost.left with hcustody | ⟨child, hborn, hcustody⟩
      · exact hcustody
      · rcases hborn.newest with ⟨deeds, hnotes, hnewest⟩
        exact hcustody.claim (hstored deeds child hnotes hnewest)
  · rw [hanswer] at hpost
    exact hpost

omit [Ptrace arch ω] [Unwind ω] in
/-- Custody, where the kernel has answered every kill. -/
theorem Custody.tracked {w : World (Monitored Deed ω)}
    (h : Custody ReplaySession.Holds none w.session w.os.notes) (hanswered : Answered w.os.notes) :
    Tracked w := by
  intro p hp
  rcases h.held hanswered p hp with hnew | hold
  · cases hnew
  · exact hold

omit [Unwind ω] in
/-- In a careful call no leader is waited for before its siblings: without a restart nothing
is killed, and at a restart there is no sibling. -/
theorem Careful.leaderLast {step : CallStep (Monitored Deed ω)} (hcareful : Careful step)
    (hsince : Base.Since ⟨step.before.os.notes, !step.call.restarts step.before.session⟩
      step.after.os.notes) :
    ∃ deeds, step.after.os.notes = step.before.os.notes ++ deeds ∧
      LeaderLast step.before.session (alive step.before.os.notes) deeds := by
  rcases hsince with ⟨deeds, hnotes, hstill⟩
  refine ⟨deeds, hnotes, ?_⟩
  intro pre ended post hdeeds hkilled q hq hfollows hne
  cases hrestart : step.call.restarts step.before.session with
  | true => exact absurd (hcareful.alone hrestart q hq hfollows).1 hne
  | false =>
    rw [hrestart] at hstill
    have hmem : .killed step.before.session.pid ∈ deeds := by
      rw [hdeeds]
      exact List.mem_append_left _ hkilled
    exact Bool.noConfusion (hstill rfl _ hmem)

/-- Nothing was killed, so nothing is unanswered. -/
theorem answered_of_still {notes : List Deed} (h : ∀ deed ∈ notes, deed.isKill = false) :
    Answered notes := by
  intro before deed after heq
  split
  · rename_i pid
    intro hlast
    have hmem : .killed pid ∈ notes := by
      rw [heq]
      exact List.mem_append_left _ (List.mem_of_getLast? hlast)
    exact Bool.noConfusion (h _ hmem)
  · trivial

/-- In a run of careful calls the session never loses track of a task. -/
theorem never_loses_track {steps : List (CallStep (Monitored Deed ω))}
    {w : World (Monitored Deed ω)} (run : Called arch steps w)
    (hcareful : ∀ step ∈ steps, Careful step) :
    Tracked w ∧ ∀ step ∈ steps, KeepsTrack arch step := by
  have hrun : Custody ReplaySession.Holds none w.session w.os.notes ∧ Answered w.os.notes ∧
      ∀ step ∈ steps, KeepsTrack arch step := by
    -- the induction is on the calls made
    induction run with
    | launch h =>
      have hguarded := launch_guarded h
      rcases hguarded.start with ⟨more, hmore, hstill⟩
      refine ⟨hguarded.custody, answered_of_still ?_, fun _ hnone => absurd hnone List.not_mem_nil⟩
      intro deed hdeed
      rw [hmore] at hdeed
      exact hstill rfl deed hdeed
    | @call steps w w' c r run h ih =>
      have hlast : Careful ⟨w, c, r, w'⟩ := hcareful _ (List.mem_append_right _ (.head _))
      rcases ih fun step hstep => hcareful step (List.mem_append_left _ hstep) with
        ⟨hcustody, -, hsteps⟩
      have hguarded := hlast.guarded hcustody h
      have htracked : Tracked w' := hguarded.custody.tracked hlast.answered
      refine ⟨hguarded.custody, hlast.answered, ?_⟩
      intro step hstep
      rcases List.mem_append.mp hstep with hmem | hmem
      · exact hsteps step hmem
      · rcases List.mem_singleton.mp hmem with rfl
        exact ⟨htracked, hlast.leaderLast hguarded.start, htracked.drop⟩
  exact ⟨hrun.1.tracked hrun.2.1, hrun.2.2⟩

/-! ## A forked child -/

/-- A program that forks whenever it runs. -/
def forker : Machine .x86_64 where
  Group := Unit
  start _ := ()
  resume _ _ _ _ := ((), .event EventCode.fork)
  step _ _ _ := ((), .stop .syscall)
  regs _ _ := ⟨0, 0, 0, 0, 0, 0, 0, 0, 0, []⟩
  setRegs _ _ _ := ()
  setNr _ _ _ := ()
  read _ _ _ _ := .error Errno.EFAULT
  write _ _ _ data := (.ok data.length, ())
  siCode _ _ := 0

/-- Process 7 forks process 8. -/
def forkOnce : List Record := [⟨0, .newWithTid .threadSpawn 0 7 [7, 0, 0, 0, 8, 0, 0, 0]⟩]

/-- The replay of the fork, and the restart after it. -/
theorem exec_forker : ∃ w v u : World (Monitored Deed (Os forker)),
    exec (launch .x86_64) ⟨ReplaySession.ofTrace ⟨"true", []⟩ forkOnce, ⟨emptyOs forker, []⟩⟩ =
      some (.ok (), w) ∧
    exec (perform .x86_64 (.stepTo 0)) w = some (.ok (some .running), v) ∧
    exec (perform .x86_64 (.restoreTo 0)) v = some (.ok none, u) ∧
    v.os.notes = [.created 1, .awaited 1 false, .awaited 1 false, .created 2, .awaited 2 false] ∧
    u.os.notes = v.os.notes ++ [.killed 1, .awaited 1 true, .created 3, .awaited 3 false] ∧
    u.session.pid = 3 ∧ u.session.mt = none ∧ u.session.checkpoints = [] := by
  -- everything but the loop is evaluated
  have hrun : ∃ w w₀ v u : World (Monitored Deed (Os forker)),
      exec (launch .x86_64) ⟨ReplaySession.ofTrace ⟨"true", []⟩ forkOnce, ⟨emptyOs forker, []⟩⟩ =
        some (.ok (), w) ∧
      exec (Mt.ensureState .x86_64) w = some (.ok (), w₀) ∧
      exec (Mt.driveRound .x86_64 (some 0)) w₀ = some (.ok none, v) ∧
      exec (Mt.driveRound .x86_64 (some 0)) v = some (.ok (some .running), v) ∧
      exec (drive .x86_64 (some 0)) w = exec (Mt.drive .x86_64 (some 0)) w ∧
      exec (perform .x86_64 (.restoreTo 0)) v = some (.ok none, u) ∧
      v.os.notes = [.created 1, .awaited 1 false, .awaited 1 false, .created 2, .awaited 2 false] ∧
      u.os.notes = v.os.notes ++ [.killed 1, .awaited 1 true, .created 3, .awaited 3 false] ∧
      u.session.pid = 3 ∧ u.session.mt = none ∧ u.session.checkpoints = [] :=
    ⟨_, _, _, _, rfl, rfl, rfl, rfl, rfl, rfl, rfl, rfl, rfl, rfl, rfl⟩
  rcases hrun with ⟨w, w₀, v, u, hlaunch, hseat, hround, hend, hdrive, hrestore, hresults⟩
  have hloop : exec (Mt.drive .x86_64 (some 0)) w = some (.ok .running, v) := by
    rw [Mt.drive, bind_ok hseat, loop_again hround]
    exact loop_of_leaves (.inl ⟨_, hend, rfl⟩)
  have hstep : exec (perform .x86_64 (.stepTo 0)) w = some (.ok (some .running), v) :=
    bind_ok (hdrive.trans hloop)
  exact ⟨w, v, u, hlaunch, hstep, hrestore, hresults⟩

/-- A session that has followed a fork, and then run out of records, has track of the parent
and of the child. -/
theorem track_of_forked_child :
    ∃ (steps : List (CallStep (Monitored Deed (Os forker))))
      (w : World (Monitored Deed (Os forker))),
      Called .x86_64 steps w ∧ steps.map (·.answer) = [.error .traceExhausted] ∧
      alive w.os.notes = [2, 1] ∧ Tracked w ∧ ∀ step ∈ steps, KeepsTrack .x86_64 step := by
  obtain ⟨w, w₀, v, hlaunch, hseat, hround, hend, hdrive, hnotes, hnotes', mt, hmt, hfollows⟩ :
      ∃ w w₀ v : World (Monitored Deed (Os forker)),
        exec (launch .x86_64) ⟨ReplaySession.ofTrace ⟨"true", []⟩ forkOnce,
          ⟨emptyOs forker, []⟩⟩ = some (.ok (), w) ∧
        exec (Mt.ensureState .x86_64) w = some (.ok (), w₀) ∧
        exec (Mt.driveRound .x86_64 none) w₀ = some (.ok none, v) ∧
        exec (Mt.driveRound .x86_64 none) v = some (.error .traceExhausted, v) ∧
        exec (drive .x86_64 none) w = exec (Mt.drive .x86_64 none) w ∧
        w.os.notes = [.created 1, .awaited 1 false] ∧
        v.os.notes = w.os.notes ++ [.awaited 1 false, .created 2, .awaited 2 false] ∧
        ∃ mt, v.session.mt = some mt ∧ (mt.threads[(2 : Pid)]?).isSome = true :=
    ⟨_, _, _, rfl, rfl, rfl, rfl, rfl, rfl, rfl, _, rfl, rfl⟩
  have hloop : exec (Mt.drive .x86_64 none) w = some (.error .traceExhausted, v) := by
    rw [Mt.drive, bind_ok hseat, loop_again hround]
    exact loop_of_leaves (.inr ⟨_, hend, rfl⟩)
  have hfailed : exec (perform .x86_64 .runToEnd) w = some (.error .traceExhausted, v) :=
    bind_error (hdrive.trans hloop)
  have hrun : Called .x86_64 [⟨w, .runToEnd, .error .traceExhausted, v⟩] v :=
    .call (.launch hlaunch) hfailed
  -- The call fails, and its child is followed all the same.
  have hcareful : ∀ step ∈ [(⟨w, .runToEnd, .error .traceExhausted, v⟩ :
      CallStep (Monitored Deed (Os forker)))], Careful step := by
    intro step hmem
    rcases List.mem_singleton.mp hmem with rfl
    refine ⟨.inr ?_, answered_of_still ?_, nofun⟩
    · -- the child that was created is followed
      intro deeds child hdeeds hnewest _
      rw [hnotes'] at hdeeds
      rcases List.append_cancel_left hdeeds with rfl
      rcases Option.some.inj hnewest with rfl
      exact .inr (.inl ⟨mt, hmt, hfollows⟩)
    · show ∀ deed ∈ v.os.notes, deed.isKill = false
      rw [hnotes', hnotes]
      decide
  have halive : alive v.os.notes = [2, 1] := by
    rw [hnotes', hnotes]
    rfl
  exact ⟨_, v, hrun, rfl, halive, never_loses_track hrun hcareful⟩

/-- A restart kills the parent alone: the child is still alive, and nothing holds it. -/
theorem restart_loses_forked_child :
    ∃ (steps : List (CallStep (Monitored Deed (Os forker))))
      (w : World (Monitored Deed (Os forker))),
      Called .x86_64 steps w ∧ (∀ step ∈ steps, ∃ outcome, step.answer = .ok outcome) ∧
      2 ∈ alive w.os.notes ∧ ¬ w.session.Holds 2 ∧ ¬ Tracked w := by
  rcases exec_forker with ⟨w, v, u, hlaunch, hstep, hrestore, hnotes, hnotes', hpid, hmt, hcs⟩
  have hrun : Called .x86_64 [⟨w, .stepTo 0, .ok (some .running), v⟩,
      ⟨v, .restoreTo 0, .ok none, u⟩] u :=
    .call (.call (.launch hlaunch) hstep) hrestore
  have halive : 2 ∈ alive u.os.notes := by
    rw [hnotes', hnotes]
    decide
  have hlost : ¬ u.session.Holds 2 := by
    rintro (⟨hactive, -⟩ | ⟨mt, hfollowed, -⟩ | ⟨c, hc, -⟩)
    · rw [hpid] at hactive
      exact absurd hactive (by decide)
    · rw [hmt] at hfollowed
      cases hfollowed
    · rw [hcs] at hc
      cases hc
  refine ⟨_, u, hrun, ?_, halive, hlost, fun htracked => hlost (htracked 2 halive)⟩
  intro step hmem
  rcases List.mem_cons.mp hmem with rfl | hmem
  · exact ⟨_, rfl⟩
  · rcases List.mem_singleton.mp hmem with rfl
    exact ⟨_, rfl⟩

end Mirrorscope.Replay
