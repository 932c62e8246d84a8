import Mirrorscope.Replay.Agreement

/-! # Replaying a recording that was cut short

A trace that ends early leaves the tracee with stops that have no record. A signal passes
without one; a syscall does not, and the drive ends there with an error. So a cut recording is
replayed to the recorded end, or reported as exhausted, and never to another end.
-/

namespace Mirrorscope.Replay

open Capture Linux Run
open Trace (Cmdline Event Record storedRecords)

variable {arch : Arch} {target : SoloTarget arch} {todo : List (Item arch)} {events : List Event}
  {pending : Option Pending} {w : World (Os target.machine)}

/-! ## Without a record -/

theorem OnScript.exhausted (h : OnScript [] w.session) :
    exec nextRecord w = some (.error .traceExhausted, w) := by
  have hskip : skipFrom (w.session.records.drop w.session.cursor) = 0 := by
    rw [h.ahead]
    rfl
  have hnone : w.session.records[w.session.cursor]? = none := by
    rw [List.getElem?_eq_none_iff, h.consumed_iff.mpr rfl]
  refine (bind_ok (exec_skipCheckpoints hskip)).trans ?_
  refine (bind_ok (exec_self w)).trans ?_
  rw [hnone]
  rfl

/-- A syscall stop without a record ends the drive. -/
theorem Follows.exhausted {ahead : List (Item arch)} {rest : List (Item arch)}
    {full : FullRegs arch} (h : Follows ahead [] pending w)
    (hadvance : ∀ g : Playing arch, g.trapped = false →
      (g.advance setupOptions ahead).2 = .syscall ∧ Ahead rest (g.advance setupOptions ahead).1 ∧
        (g.advance setupOptions ahead).1.regs = full) :
    Ends w (.error .traceExhausted) True := by
  obtain ⟨hscript, rfl, hstanding⟩ := h
  obtain ⟨w₁, hstop, hsession, hnext⟩ := hstanding.advance
    (Q := fun g => Ahead rest g ∧ g.regs = full) .syscall hadvance
  obtain ⟨w₂, hread, hsame, hstanding₂⟩ := (hnext rfl).saveFull
  have hpid : w₁.session.pid = w.session.pid := by rw [hsession]
  rw [hpid] at hread
  obtain ⟨-, hsyscall⟩ := exec_onSyscallStop hsession (bind_ok hread)
  let w₃ : World (Os target.machine) :=
    { w₂ with session := { w₂.session with
        lastRegs := some (normalize arch full), pending := none } }
  have hscript₃ : OnScript [] w₃.session := by
    change OnScript [] { w₂.session with lastRegs := _, pending := none }
    rw [hsame, hsession]
    exact ⟨hscript.ahead, hscript.within, hscript.finished, hscript.watchpoint, hscript.interval,
      hscript.multithreaded⟩
  have hround : exec (driveRound arch none) w = some (.error .traceExhausted, w₃) := by
    rw [exec_driveRound hstop]
    refine bind_error (hsyscall.trans ?_)
    -- a syscall entry and a syscall exit both ask for the next record
    cases w.session.pending with
    | none => exact bind_error hscript₃.exhausted
    | some p => exact bind_error hscript₃.exhausted
  exact ⟨0, w, w₃, .zero w, .inr ⟨_, hround, rfl⟩, by simp [hscript₃.consumed_iff]⟩

/-- A signal passes without a record. -/
theorem Follows.signal_unrecorded {sig : Signal} (h : Follows (.signal sig :: todo) [] pending w) :
    ∃ w', exec (driveRound arch none) w = some (.ok none, w') ∧ Follows todo [] pending w' := by
  obtain ⟨w₁, hstanding, hscript, hpending, hround⟩ := h.signalStop (Q := Ahead todo) sig
    fun g hg => ⟨rfl, rfl, hg⟩
  have hnext : ∀ e ∈ ([] : List Event).head?, IsPlain e ∧ e.kind ≠ .signal := by simp
  obtain ⟨hskip, hmatch⟩ : skipFrom (w₁.session.records.drop w₁.session.cursor) = 0 ∧
      exec (Replay.matchSignal sig) w₁ = some (.ok (), w₁) := hscript.matchSignal_passes hnext
  refine ⟨_, hround.trans (bind_ok (exec_onSignalStop sig hskip hmatch)), ?_, hpending, hstanding⟩
  exact ⟨hscript.ahead, hscript.within, hscript.finished, hscript.watchpoint, hscript.interval,
    hscript.multithreaded⟩

/-! ## A part of the events -/

/-- No exec succeeds in the target. -/
def ExecFree (acts : List (Act arch)) : Prop := ∀ c, Act.exec c ∉ acts

/-- How the replay ends when the events from number `k` on are missing: as recorded if only
signals are. -/
def cutOutcome (fate : Fate) (events : List Event) (k : Nat) : Except ReplayError ExitOutcome :=
  if (events.drop k).all (fun e => e.kind = .signal) then .ok (outcomeOf fate)
  else .error .traceExhausted

variable {leader : Pid} {last : Option (FullRegs arch)} {fate : Fate} {acts : List (Act arch)}

theorem cutOutcome_append {first rest : List Event} {k : Nat} (hk : first.length ≤ k) :
    cutOutcome fate (first ++ rest) k = cutOutcome fate rest (k - first.length) := by
  unfold cutOutcome
  rw [List.drop_append, List.drop_of_length_le hk, List.nil_append]

/-- A missing syscall event is noticed. -/
theorem cutOutcome_of_missing {event : Event} {k : Nat} (hevent : event ∈ events.drop k)
    (hkind : event.kind ≠ .signal) : cutOutcome fate events k = .error .traceExhausted := by
  refine if_neg fun hall => ?_
  have hsignal := List.all_eq_true.mp hall event hevent
  exact hkind (of_decide_eq_true hsignal)

/-- The end of the target. -/
theorem Follows.cut_ending {tail : List Event} (htail : LogsLast leader last tail) (k : Nat)
    (h : Follows ((last.map Item.entry).toList ++ [.ended fate]) (tail.take k) none w) :
    Ends w (cutOutcome fate tail k) True := by
  cases k with
  | zero =>
    cases htail with
    | none =>
      have hends := h.session.ends h.ended
      simpa [cutOutcome] using hends
    | some ts => exact Follows.exhausted h fun g hg => ⟨rfl, ⟨rfl, hg⟩, rfl⟩
  | succ k =>
    have hwhole : tail.take (k + 1) = tail ∧ tail.drop (k + 1) = [] := by
      cases htail with
      | none => exact ⟨rfl, rfl⟩
      | some ts => simp
    rw [hwhole.1] at h
    have hends := Follows.ending htail h
    unfold cutOutcome
    rw [hwhole.2]
    exact hends

/-- The drive of a target of which only the first `k` events are there. -/
theorem Follows.cut_ends {body tail : List Event} (hbody : LogsActs leader acts body)
    (htail : LogsLast leader last tail) (hfree : ExecFree acts) (k : Nat)
    (h : Follows (acts.flatMap Act.items ++ ((last.map Item.entry).toList ++ [.ended fate]))
      ((body ++ tail).take k) none w) :
    Ends w (cutOutcome fate (body ++ tail) k) True := by
  induction hbody generalizing w k with
  | nil => exact Follows.cut_ending htail k h
  | @cons act acts first rest hfirst hrest ih =>
    have hfree' : ExecFree acts := fun c hc => hfree c (List.mem_cons_of_mem _ hc)
    rw [List.flatMap_cons, List.append_assoc] at h
    rw [List.append_assoc] at h ⊢
    cases hfirst with
    | @call c chunk hchunk =>
      by_cases hk : first.length ≤ k
      · -- the whole syscall is there
        rw [List.take_append, List.take_of_length_le hk] at h
        obtain ⟨n, w₁, hrounds, hafter⟩ := Follows.crossing hchunk (.inl rfl) h
        rw [cutOutcome_append hk]
        exact (ih hfree' (k - first.length) hafter).after hrounds
      · rcases hchunk with @⟨ts, ts', data, short⟩
        have hexit : (syscallExitEvent ts' leader (normalize arch c.entry)
            (normalize arch c.exit).ret data).kind ≠ .signal := by rintro ⟨⟩
        obtain rfl | rfl : k = 0 ∨ k = 1 := by
          simp only [List.length_cons, List.length_nil] at hk
          omega
        · rw [cutOutcome_of_missing (List.mem_cons_of_mem _ List.mem_cons_self) hexit]
          exact Follows.exhausted h fun g hg => ⟨rfl, ⟨rfl, hg⟩, rfl⟩
        · rw [cutOutcome_of_missing List.mem_cons_self hexit]
          obtain ⟨w₁, p, hround, hinside⟩ := Follows.entry h
          exact (Follows.exhausted hinside fun g hg => ⟨rfl, ⟨rfl, hg⟩, rfl⟩).after
            (.succ hround (.zero w₁))
    | @signal sig genuine ts =>
      cases k with
      | zero =>
        obtain ⟨w₁, hround, hafter⟩ := Follows.signal_unrecorded h
        have hends := ih hfree' 0 hafter
        have hkind : (signalEvent ts leader sig).kind = .signal := rfl
        have hsame : cutOutcome fate (signalEvent ts leader sig :: (rest ++ tail)) 0 =
            cutOutcome fate (rest ++ tail) 0 := by
          simp [cutOutcome, hkind]
        rw [List.singleton_append, hsame]
        exact hends.after (.succ hround (.zero w₁))
      | succ k =>
        obtain ⟨w₁, hround, hafter⟩ := Follows.signal h
        exact (ih hfree' k hafter).after (.succ hround (.zero w₁))
    | @exec c chunk hchunk => exact absurd List.mem_cons_self (hfree c)

/-! ## Whole sessions -/

/-- A session launched on the first `k` records of an exec-free target consumes them all, and
ends as recorded or for want of a record. -/
theorem Launched.cut_ends {cmdline : Cmdline} (hlogs : Logs leader target events)
    (hfree : ExecFree target.acts) (k : Nat) {f : World (Os target.machine)}
    (hf : Launched cmdline (storedRecords 0 (events.take k)) f) :
    ∃ w', exec (drive arch none) f = some (cutOutcome target.fate events k, w') ∧
      w'.session.cursor = w'.session.records.length := by
  have hsingle : traceIsMultithreaded (storedRecords 0 (events.take k)) = false := by
    have hwhole := traceIsMultithreaded_logs hlogs
    rw [traceIsMultithreaded_stored, List.any_eq_false] at hwhole ⊢
    exact fun e he => hwhole e (List.mem_of_mem_take he)
  have hfollows : Follows target.items (events.take k) none f := by
    obtain ⟨⟨pid, hsession⟩, j, hseat⟩ := hf
    constructor
    · rw [hsession]
      exact ⟨rfl, Nat.zero_le _, rfl, rfl, rfl, hsingle⟩
    · rw [hsession]
      rfl
    · exact ⟨j, _, hseat, entryImage_ready _ _, rfl, rfl⟩
  obtain ⟨body, tail, rfl, hbody, htail⟩ := hlogs
  obtain ⟨w', hdrive, hall⟩ :=
    (Follows.cut_ends hbody htail hfree k hfollows).drive hfollows.session
  exact ⟨w', hdrive, hall.mpr trivial⟩

end Mirrorscope.Replay
