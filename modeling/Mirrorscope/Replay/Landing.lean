import Mirrorscope.Replay.Rewind

/-! # Where a call leaves a session

A session in which no call has failed is stopped at a record of the straight run, or
its target has ended, and then everything a fresh session gets to lies behind it.
-/

namespace Mirrorscope.Replay

open Capture Linux Run
open Trace (Cmdline Record)

variable {arch : Arch} {M : Machine arch} {w w' f v : World (Os M)} {laws : ForkLaws M}
  {t : UInt64} {stopAt : Option UInt64} {outcome : ExitOutcome}

/-- Whatever a fresh session gets to has been consumed. -/
def Furthest (f w : World (Os M)) : Prop :=
  ∀ t, Reaches t f → ∃ c, w.session.currentSeq = some c ∧ t ≤ c

/-- A session whose target has ended has come as far as a fresh one does. -/
def Complete (f w : World (Os M)) : Prop := w.session.finished ≠ none → Furthest f w

/-- How a drive leaves a session: stopped at its target, or with the tracee gone. -/
inductive AtRest (f : World (Os M)) (stopAt : Option UInt64) :
    ExitOutcome → World (Os M) → Prop where
  | stopped {w : World (Os M)} (unfinished : w.session.finished = none)
      (reached : atTarget stopAt w = true) : AtRest f stopAt .running w
  | ended {w : World (Os M)} {outcome : ExitOutcome} (finished : w.session.finished = some outcome)
      (gone : outcome ≠ .running) (furthest : Furthest f w) : AtRest f stopAt outcome w

theorem AtRest.complete (h : AtRest f stopAt outcome w) : Complete f w := by
  cases h with
  | stopped unfinished _ => exact fun hover => absurd unfinished hover
  | ended _ _ furthest => exact fun _ => furthest

/-! ## Driving -/

/-- Where the straight run ends, it has come as far as it ever does. -/
theorem furthest_of_end {n : Nat} {u u' : World (Os M)} (laws : ForkLaws M) (hf : Entry f)
    (hsingle : f.session.multithreaded = false) (hu : StraightRun f n u)
    (hend : exec (driveRound arch none) u = some (.ok (some outcome), u'))
    (hcurrent : w.session.currentSeq = u.session.currentSeq) : Furthest f w := by
  rintro t ⟨v, hfresh⟩
  rcases stepTo_entry_inv laws hf hsingle hfresh with ⟨m, hv, -, hreached⟩
  -- the run has no round after the one it ends in
  have hmn : m ≤ n := by
    by_contra hgt
    rcases hv.before (Nat.le_of_lt (Nat.lt_of_not_le hgt)) with ⟨x, hx, hrest⟩
    rcases hx.unique hu with rfl
    generalize hd : m - n = d at hrest
    cases hrest with
    | zero => omega
    | succ first _ =>
      rw [hend] at first
      cases first
  rcases hu.before hmn with ⟨x, hx, hrest⟩
  rcases hx.unique hv with rfl
  have hle := (driveRound_straight.climbs hf.toOrigin).rounds hx hrest
  unfold atTarget at hreached
  cases hy : x.session.currentSeq with
  | none =>
    rw [hy] at hreached
    cases hreached
  | some y =>
    rw [hy] at hreached
    have hty : t ≤ y := by simpa [reached] using hreached
    rw [hcurrent]
    rcases Nat.lt_or_eq_of_le hle with hlt | heq
    · rcases driveRound_straight.current_lt hf.toOrigin hx hu hlt hy with ⟨c, hc, hyc⟩
      exact ⟨c, hc, UInt64.le_trans hty (UInt64.le_of_lt hyc)⟩
    · rw [← driveRound_straight.same hf.toOrigin hx hu heq]
      exact ⟨y, hy, hty⟩

theorem drive_rests (hf : Entry f) (hsingle : f.session.multithreaded = false)
    (h : Traveler laws f False w) (hcomplete : Complete f w)
    (hexec : exec (drive arch stopAt) w = some (.ok outcome, w')) :
    AtRest f stopAt outcome w' := by
  rcases h with ⟨i, hsound, hactive⟩
  cases hactive with
  | past failed _ _ _ => exact failed.elim
  | ended finished gone _ =>
    rw [exec_drive_over finished] at hexec
    rcases Prod.mk.inj (Option.some.inj hexec) with ⟨hout, rfl⟩
    rcases Except.ok.inj hout with rfl
    refine .ended finished gone (hcomplete ?_)
    rw [finished]
    simp
  | tracking rounds lead twin unfinished =>
    rw [exec_drive_single unfinished (hsound.multithreaded.trans hsingle),
      driveRound_upTo] at hexec
    rcases loop_upTo_inv hexec with ⟨k, x, hrounds, -, hleft⟩
    rcases track_rounds hf hrounds hsound rounds twin with ⟨u, hu, htwin, -, hfin⟩
    rcases hleft with ⟨hstop, hout, rfl⟩ | ⟨-, ⟨a, hend, hout⟩ | ⟨e, -, hout⟩⟩
    · rcases Except.ok.inj hout with rfl
      exact .stopped (hfin.trans unfinished) hstop
    · rcases Except.ok.inj hout with rfl
      rcases follow_end laws htwin hend with ⟨u', hend', -, hended⟩
      have hpos := (driveRound_progress x.session.checkpoints).ok ⟨atPos_self x.session, rfl⟩ hend
      exact .ended hended.finished hended.gone
        (furthest_of_end laws hf hsingle (rounds.trans hu) hend'
          (hpos.current.trans htwin.view.currentSeq))
    · cases hout

/-! ## Jumping -/

theorem runTo_rests (hf : Entry f) (hsingle : f.session.multithreaded = false)
    (h : Traveler laws f False w) (hcomplete : Complete f w)
    (hexec : exec (runTo arch t) w = some (.ok outcome, w')) :
    AtRest f (some t) outcome w' := by
  cases hrestart : shouldRestart w.session.currentSeq (planStart w.session t).seq t with
  | false =>
    rw [exec_runTo_drive hrestart] at hexec
    exact drive_rests hf hsingle h hcomplete hexec
  | true =>
    rcases restart_lands hf h t with ⟨i, w₁, hexec₁, hsound, hlanded⟩
    rw [exec_runTo_restart hrestart hexec₁] at hexec
    refine drive_rests hf hsingle ⟨i, hsound, hlanded.active⟩ (fun hover => ?_) hexec
    cases hlanded with
    | run _ _ _ unfinished _ => exact absurd unfinished hover
    | past failed _ _ _ _ _ => exact failed.elim

/-- A call to `run_to` for a target that a fresh session gets to gets there too, from any
live session and from an ended one that is past the target. -/
theorem runTo_lands (hf : Entry f) (hsingle : f.session.multithreaded = false)
    (h : Traveler laws f False w)
    (hgo : w.session.finished = none ∨ ∃ c, w.session.currentSeq = some c ∧ t < c)
    (hreach : Reaches t f) : RewindsTo t w f := by
  cases hrestart : shouldRestart w.session.currentSeq (planStart w.session t).seq t with
  | true => exact runTo_restarted hf hsingle h hrestart hreach
  | false =>
    have hnotPast : ∀ c, w.session.currentSeq = some c → ¬ t < c := by
      intro c hc hlt
      rw [hc] at hrestart
      simp [shouldRestart, hlt] at hrestart
    rcases hgo with hlive | ⟨c, hc, hlt⟩
    · rcases h with ⟨i, hsound, hactive⟩
      cases hactive with
      | past failed _ _ _ => exact failed.elim
      | ended finished _ _ =>
        rw [hlive] at finished
        cases finished
      | @tracking n j u rounds lead twin unfinished =>
        rcases hreach with ⟨v, hfresh⟩
        have hle : ∀ y, u.session.currentSeq = some y → y ≤ t := by
          intro y hy
          exact UInt64.not_lt.mp (hnotPast y (twin.view.currentSeq.trans hy))
        rcases lands_of_reaches laws hf hsingle (hsound.multithreaded.trans hsingle) rounds lead
          twin unfinished hle hfresh with ⟨w', hdrive, htwin⟩
        rcases stepTo_entry_inv laws hf hsingle hfresh with ⟨m, hv, -, -⟩
        have hlive' : w'.session.finished = none :=
          htwin.view.finished.trans (hf.onRun laws hv).unfinished
        refine ⟨w', v, ?_, hlive', hfresh, i, j, htwin.mono fun _ _ => trivial⟩
        rw [exec_runTo_drive hrestart, hdrive]
    · exact absurd hlt (hnotPast c hc)

/-- Where a fresh session is asked for a record, it stops at that record. -/
theorem stepTo_record (laws : ForkLaws M) (hf : Entry f)
    (hsingle : f.session.multithreaded = false) {r : Record} (hr : r ∈ f.session.records)
    (hkind : r.event.kind ≠ .checkpoint)
    (hexec : exec (stepTo arch r.seq) f = some (.ok .running, v)) :
    v.session.currentSeq = some r.seq := by
  rcases stepTo_entry_inv laws hf hsingle hexec with ⟨n, hv, hpassing, hreached⟩
  rcases driveRound_straight.least hf.toOrigin hf.current hv hpassing hreached with
    ⟨y, hy, hle, -, hleast⟩
  rw [hy, UInt64.le_antisymm (hleast r hr hkind UInt64.le_rfl) hle]

/-- A record that a fresh session gets to is where `run_to` stops. -/
theorem runTo_record (hf : Entry f) (hsingle : f.session.multithreaded = false)
    (h : Traveler laws f False w) {r : Record} (hr : r ∈ f.session.records)
    (hkind : r.event.kind ≠ .checkpoint)
    (hgo : w.session.finished = none ∨ ∃ c, w.session.currentSeq = some c ∧ r.seq < c)
    (hreach : Reaches r.seq f) :
    ∃ w', exec (runTo arch r.seq) w = some (.ok .running, w') ∧ w'.session.finished = none ∧
      w'.session.currentSeq = some r.seq := by
  rcases runTo_lands hf hsingle h hgo hreach with ⟨w', u, hexec, hlive, hfresh, i, j, htwin⟩
  refine ⟨w', hexec, hlive, ?_⟩
  rw [htwin.view.currentSeq]
  exact stepTo_record laws hf hsingle hr hkind hfresh

end Mirrorscope.Replay
