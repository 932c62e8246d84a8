import Mirrorscope.Dap.Timeline

/-! # What a step of the debugger does

The index and the session move together, so in every run the index is where the
session is, up to what an index can say. From that, what each step does follows.
-/

namespace Mirrorscope.Dap

open Linux Replay Run ReplayBackend
open Trace (Cmdline Record)

variable {events : List UInt64} {i j : Nat} {a b e q : UInt64} {s s' : ReplaySession}
  {info : StopInfo} {reason : String}

/-! ## Increasing events -/

theorem lt_of_index (hinc : events.Pairwise (· < ·)) (hij : i < j) (hi : events[i]? = some a)
    (hj : events[j]? = some b) : a < b := by
  rcases List.getElem?_eq_some_iff.mp hi with ⟨hilt, rfl⟩
  rcases List.getElem?_eq_some_iff.mp hj with ⟨hjlt, rfl⟩
  exact List.pairwise_iff_getElem.mp hinc i j hilt hjlt hij

theorem le_of_index (hinc : events.Pairwise (· < ·)) (hij : i ≤ j) (hi : events[i]? = some a)
    (hj : events[j]? = some b) : a ≤ b := by
  rcases Nat.lt_or_eq_of_le hij with hlt | rfl
  · exact UInt64.le_of_lt (lt_of_index hinc hlt hi hj)
  · rw [hi] at hj
    rcases Option.some.inj hj with rfl
    exact UInt64.le_rfl

/-- Of increasing events, the last is the greatest. -/
theorem le_of_last (hinc : events.Pairwise (· < ·)) (hlast : i + 1 = events.length)
    (hi : events[i]? = some a) : ∀ e ∈ events, e ≤ a := by
  intro e he
  rcases List.mem_iff_getElem?.mp he with ⟨k, hk⟩
  have hlt := (List.getElem?_eq_some_iff.mp hk).1
  exact le_of_index hinc (by omega) hk hi

/-- An event at or below a point between two events is at or below the first of them. -/
theorem le_of_between (hinc : events.Pairwise (· < ·)) (here : events[i]? = some e)
    (above : ∀ j e', i < j → events[j]? = some e' → q < e') {x : UInt64} (hx : x ∈ events)
    (hle : x ≤ q) : x ≤ e := by
  rcases List.mem_iff_getElem?.mp hx with ⟨k, hk⟩
  by_cases hik : i < k
  · exact absurd hle (UInt64.not_le.mpr (above k x hik hk))
  · exact le_of_index hinc (by omega) hk here

/-! ## Points -/

theorem point_over {outcome : ExitOutcome} (h : s.finished = some outcome) : point s = .ended := by
  unfold point
  rw [h]

theorem point_stop (h : s.finished = none) (hcurrent : s.currentSeq = some q) :
    point s = .stop q := by
  unfold point
  rw [h, hcurrent]

theorem of_point_stop (h : point s = .stop q) : s.finished = none ∧ s.currentSeq = some q := by
  unfold point at h
  split at h
  · cases h
  · rename_i seq hfinished hcurrent
    rcases Point.stop.inj h with rfl
    exact ⟨hfinished, hcurrent⟩
  · cases h

theorem isAfter_between {x : UInt64} (h : s.finished = none) (hcurrent : s.currentSeq = some q) :
    (point s).IsAfter x ↔ x < q := by
  rw [point_stop h hcurrent]
  exact Iff.rfl

theorem isBefore_between {x : UInt64} (h : s.finished = none) (hcurrent : s.currentSeq = some q) :
    (point s).IsBefore x ↔ q < x := by
  rw [point_stop h hcurrent]
  exact Iff.rfl

/-- Before the first event, every event is above. -/
theorem isBefore_early (h : s.finished = none)
    (early : ∀ q, s.currentSeq = some q → ∀ e ∈ events, q < e) (he : e ∈ events) :
    (point s).IsBefore e ∧ ¬ (point s).IsAfter e ∧ point s ≠ .stop e := by
  unfold point
  rw [h]
  cases hcurrent : s.currentSeq with
  | none => exact ⟨trivial, fun hafter => hafter, by simp⟩
  | some q =>
    have hlt := early q hcurrent e he
    refine ⟨hlt, fun hafter => UInt64.lt_asymm hlt hafter, ?_⟩
    intro heq
    rcases Point.stop.inj heq with rfl
    exact UInt64.lt_irrefl _ hlt

/-! ## What going to an event does -/

/-- Going to an event stops there, unless the target has ended right after it. -/
inductive Went (events : List UInt64) (reason : String) (i : Nat) (s : ReplaySession) :
    StopInfo → ReplaySession → Prop where
  | stops {e : UInt64} {s' : ReplaySession} (here : events[i]? = some e)
      (moved : s.finished = none ∨ s.currentSeq ≠ some e) (unfinished : s'.finished = none)
      (current : s'.currentSeq = some e) : Went events reason i s (.onMain reason) s'
  | stays {e : UInt64} {code : Int} (here : events[i]? = some e) (finished : s.finished ≠ none)
      (current : s.currentSeq = some e) : Went events reason i s (.exited code) s

/-- A live session stops at the event. -/
theorem Went.live (h : Went events reason i s info s') (hlive : s.finished = none) :
    ∃ e, events[i]? = some e ∧ info = .onMain reason ∧ point s' = .stop e := by
  cases h with
  | stops here _ unfinished current => exact ⟨_, here, rfl, point_stop unfinished current⟩
  | stays _ finished _ => exact absurd hlive finished

/-! ## Stepping back -/

section Back

variable {d : ReplayBackend} (hinc : events.Pairwise (· < ·))

/-- Before the first event, a step back goes forward. -/
theorem stepsBack_before (hlive : d.session.finished = none)
    (early : ∀ q, d.session.currentSeq = some q → ∀ e ∈ events, q < e)
    (hwent : Went events "step" 0 d.session info s') :
    StepsBack events (point d.session) info (point s') ↔ CanStepBack events d := by
  rcases hwent.live hlive with ⟨e, here, -, hpoint⟩
  have hmem := List.mem_of_getElem? here
  constructor
  · rintro ⟨-, ⟨x, hx, hafter, -⟩ | ⟨-, hsame⟩⟩
    · exact absurd hafter (isBefore_early hlive early hx).2.1
    · rw [hpoint] at hsame
      exact absurd hsame.symm (isBefore_early hlive early hmem).2.2
  · intro hcan
    unfold CanStepBack at hcan
    rw [hlive] at hcan
    rcases hcan with ⟨q, hq, hin | ⟨x, ⟨hx, hlt⟩, -⟩⟩
    · exact absurd (early q hq q hin) (UInt64.lt_irrefl q)
    · exact absurd hlt (UInt64.lt_asymm (early q hq x hx))

include hinc

/-- Between two events, a step back is right at the first of them, and past the very first. -/
theorem stepsBack_between (hlive : d.session.finished = none)
    (hcurrent : d.session.currentSeq = some q) (here : events[i]? = some e) (below : e ≤ q)
    (above : ∀ j e', i < j → events[j]? = some e' → q < e')
    (hwent : Went events "step" (i - 1) d.session info s') :
    StepsBack events (point d.session) info (point s') ↔ CanStepBack events d := by
  rcases hwent.live hlive with ⟨x, hx, rfl, hpoint⟩
  have hmem := List.mem_of_getElem? here
  have hpoint' := point_stop hlive hcurrent
  have hcan : CanStepBack events d ↔ q ∈ events ∨ ∃! e, e ∈ events ∧ e < q := by
    unfold CanStepBack
    rw [hlive]
    simp [hcurrent]
  rw [hcan]
  rcases UInt64.lt_or_eq_of_le below with hlt | rfl
  · -- past the event: right only if it is the first
    cases i with
    | zero =>
      rw [here] at hx
      rcases Option.some.inj hx with rfl
      have hgreatest : ∀ x ∈ events, x < q → x ≤ e := fun x hx hxq =>
        le_of_between hinc here above hx (UInt64.le_of_lt hxq)
      refine iff_of_true ⟨rfl, .inl ⟨e, hmem, ?_, ?_, hpoint⟩⟩ (.inr ⟨e, ⟨hmem, hlt⟩, ?_⟩)
      · exact (isAfter_between hlive hcurrent).mpr hlt
      · intro x hx hafter
        exact hgreatest x hx ((isAfter_between hlive hcurrent).mp hafter)
      · rintro x ⟨hx, hxq⟩
        rcases List.mem_iff_getElem?.mp hx with ⟨k, hk⟩
        exact UInt64.le_antisymm (hgreatest x hx hxq)
          (le_of_index hinc (Nat.zero_le k) here hk)
    | succ i =>
      have hxe : x < e := lt_of_index hinc (Nat.lt_succ_self i) hx here
      refine iff_of_false ?_ ?_
      · rintro ⟨-, ⟨y, hy, -, hall, heq⟩ | ⟨hnone, -⟩⟩
        · rw [hpoint] at heq
          rcases Point.stop.inj heq with rfl
          have hle := hall e hmem ((isAfter_between hlive hcurrent).mpr hlt)
          exact absurd hle (UInt64.not_le.mpr hxe)
        · exact hnone e hmem ((isAfter_between hlive hcurrent).mpr hlt)
      · rintro (hq | ⟨y, -, hunique⟩)
        · exact absurd (le_of_between hinc here above hq UInt64.le_rfl) (UInt64.not_le.mpr hlt)
        · have he := hunique e ⟨hmem, hlt⟩
          have hx' := hunique x ⟨List.mem_of_getElem? hx, UInt64.lt_trans hxe hlt⟩
          rw [he, hx'] at hxe
          exact UInt64.lt_irrefl _ hxe
  · -- at the event
    refine iff_of_true ⟨rfl, ?_⟩ (.inl hmem)
    cases i with
    | zero =>
      rw [here] at hx
      rcases Option.some.inj hx with rfl
      refine .inr ⟨?_, by rw [hpoint, hpoint']⟩
      intro x hx hafter
      rcases List.mem_iff_getElem?.mp hx with ⟨k, hk⟩
      exact absurd ((isAfter_between hlive hcurrent).mp hafter)
        (UInt64.not_lt.mpr (le_of_index hinc (Nat.zero_le k) here hk))
    | succ i =>
      have hxe : x < e := lt_of_index hinc (Nat.lt_succ_self i) hx here
      refine .inl ⟨x, List.mem_of_getElem? hx, (isAfter_between hlive hcurrent).mpr hxe, ?_,
        hpoint⟩
      intro y hy hafter
      have hlt := (isAfter_between hlive hcurrent).mp hafter
      rcases List.mem_iff_getElem?.mp hy with ⟨k, hk⟩
      by_cases hki : k ≤ i
      · exact le_of_index hinc hki hk hx
      · exact absurd hlt (UInt64.not_lt.mpr (le_of_index hinc (by omega) here hk))

/-- After the end, a step back is right if the session is past the last event and the index
is past it too. -/
theorem stepsBack_over {outcome : ExitOutcome} (hover : d.session.finished = some outcome)
    (last : d.cursor = events.length ∨ d.cursor + 1 = events.length)
    (passed : ∀ e ∈ events, ∃ c, d.session.currentSeq = some c ∧ e ≤ c)
    (hwent : Went events "step" (d.cursor - 1) d.session info s') :
    StepsBack events (point d.session) info (point s') ↔ CanStepBack events d := by
  have hcan : CanStepBack events d ↔
      (∀ e ∈ events, ∃ c, d.session.currentSeq = some c ∧ e < c) ∧
        (d.cursor = events.length ∨ events.length = 1) := by
    unfold CanStepBack
    rw [hover]
  rw [hcan, point_over hover]
  cases hwent with
  -- The target ended right after this event, so the step has not moved it.
  | stays here _ current =>
    refine iff_of_false ?_ ?_
    · rintro ⟨hinfo, -⟩
      cases hinfo
    · rintro ⟨hall, -⟩
      rcases hall _ (List.mem_of_getElem? here) with ⟨c, hc, hlt⟩
      rw [current] at hc
      rcases Option.some.inj hc with rfl
      exact UInt64.lt_irrefl _ hlt
  | @stops x _ here moved unfinished current =>
    rw [point_stop unfinished current]
    have hx := List.mem_of_getElem? here
    have hlen := (List.getElem?_eq_some_iff.mp here).1
    by_cases hend : d.cursor = events.length ∨ events.length = 1
    · -- the index is past the last event, which is the one gone to
      have hgreatest := le_of_last hinc (by omega) here
      refine iff_of_true ⟨rfl, .inl ⟨x, hx, trivial, fun y hy _ => hgreatest y hy, rfl⟩⟩
        ⟨?_, hend⟩
      intro y hy
      rcases passed x hx with ⟨c, hc, hle⟩
      refine ⟨c, hc, UInt64.lt_of_le_of_lt (hgreatest y hy) ?_⟩
      rcases moved with hlive | hne
      · rw [hover] at hlive
        cases hlive
      · rcases UInt64.lt_or_eq_of_le hle with hlt | rfl
        · exact hlt
        · exact absurd hc hne
    · refine iff_of_false ?_ fun h => hend h.2
      rintro ⟨-, ⟨y, -, -, hall, heq⟩ | ⟨hnone, -⟩⟩
      · rcases Point.stop.inj heq with rfl
        have hcursor : d.cursor < events.length := by omega
        have hlt := lt_of_index hinc (by omega) here (List.getElem?_eq_getElem hcursor)
        exact absurd (hall _ (List.getElem_mem hcursor) trivial) (UInt64.not_le.mpr hlt)
      · exact hnone x hx trivial

end Back

/-! ## Stepping on -/

section On

variable {d : ReplayBackend} (hinc : events.Pairwise (· < ·))

/-- What running to the end does. -/
structure Ran (info : StopInfo) (s' : ReplaySession) : Prop where
  ended : point s' = .ended
  exited : ∃ code, info = .exited code

/-- What a step forward does: go to the next event if the index has one, else run to the end. -/
def WentOn (events : List UInt64) (i : Nat) (s : ReplaySession) (info : StopInfo)
    (s' : ReplaySession) : Prop :=
  if events.length ≤ i + 1 then Ran info s' else Went events "step" (i + 1) s info s'

include hinc

/-- Before the first event, a step forward misses it. -/
theorem stepsOn_before (hne : events ≠ []) (hlive : d.session.finished = none)
    (early : ∀ q, d.session.currentSeq = some q → ∀ e ∈ events, q < e)
    (hwent : WentOn events 0 d.session info s') :
    StepsOn events (point d.session) info (point s') ↔ CanStepOn events d := by
  have hlen : 0 < events.length := List.length_pos_iff.mpr hne
  have hfirst : events[0]? = some events[0] := List.getElem?_eq_getElem hlen
  have hmem : events[0] ∈ events := List.getElem_mem hlen
  have habove := (isBefore_early hlive early hmem).1
  refine iff_of_false ?_ ?_
  · rintro (⟨e, he, -, hleast, hpoint, hinfo⟩ | ⟨hnone, -⟩)
    · have hle := hleast _ hmem habove
      unfold WentOn at hwent
      split at hwent
      · rcases hwent.exited with ⟨code, rfl⟩
        cases hinfo
      · rcases hwent.live hlive with ⟨x, hx, -, hpoint'⟩
        rw [hpoint'] at hpoint
        rcases Point.stop.inj hpoint with rfl
        exact absurd hle (UInt64.not_le.mpr (lt_of_index hinc Nat.one_pos hfirst hx))
    · exact hnone _ hmem habove
  · rintro (hover | ⟨q, hq, e, he, hle⟩)
    · exact hover hlive
    · exact absurd hle (UInt64.not_le.mpr (early q hq e he))

/-- Between two events, a step forward goes to the second of them. -/
theorem stepsOn_between (hlive : d.session.finished = none)
    (hcurrent : d.session.currentSeq = some q) (here : events[i]? = some e) (below : e ≤ q)
    (above : ∀ j e', i < j → events[j]? = some e' → q < e')
    (hwent : WentOn events i d.session info s') :
    StepsOn events (point d.session) info (point s') ↔ CanStepOn events d := by
  refine iff_of_true ?_ (.inr ⟨q, hcurrent, e, List.mem_of_getElem? here, below⟩)
  unfold WentOn at hwent
  split at hwent
  · rename_i hlast
    refine .inr ⟨?_, hwent.ended, hwent.exited⟩
    intro x hx hbefore
    have hlen := (List.getElem?_eq_some_iff.mp here).1
    have hxe := le_of_last hinc (by omega) here x hx
    have hlt := (isBefore_between hlive hcurrent).mp hbefore
    exact absurd (UInt64.le_trans hxe below) (UInt64.not_le.mpr hlt)
  · rcases hwent.live hlive with ⟨x, hx, hinfo, hpoint⟩
    have hqx := above (i + 1) x (Nat.lt_succ_self i) hx
    refine .inl ⟨x, List.mem_of_getElem? hx, (isBefore_between hlive hcurrent).mpr hqx, ?_, hpoint,
      hinfo⟩
    intro y hy hbefore
    have hlt := (isBefore_between hlive hcurrent).mp hbefore
    rcases List.mem_iff_getElem?.mp hy with ⟨k, hk⟩
    by_cases hki : k ≤ i
    · have hye := le_of_index hinc hki hk here
      exact absurd (UInt64.le_trans hye below) (UInt64.not_le.mpr hlt)
    · exact le_of_index hinc (by omega) hx hk

omit hinc in
/-- After the end, a step forward stays there. -/
theorem stepsOn_over {outcome : ExitOutcome} (hover : d.session.finished = some outcome)
    (last : i = events.length ∨ i + 1 = events.length)
    (hwent : WentOn events i d.session info s') :
    StepsOn events (point d.session) info (point s') ↔ CanStepOn events d := by
  have hend : events.length ≤ i + 1 := by omega
  unfold WentOn at hwent
  rw [if_pos hend] at hwent
  refine iff_of_true (.inr ⟨?_, hwent.ended, hwent.exited⟩) (.inl (by rw [hover]; simp))
  intro x _ hbefore
  rw [point_over hover] at hbefore
  exact hbefore

end On

/-! ## Steps from where the index says -/

theorem stepsBack_iff (hinc : events.Pairwise (· < ·)) {d : ReplayBackend}
    (h : Indexed events d.session d.cursor)
    (hwent : Went events "step" (d.cursor - 1) d.session info s') :
    StepsBack events (point d.session) info (point s') ↔ CanStepBack events d := by
  generalize hcursor : d.cursor = cursor at h hwent
  cases h with
  | before unfinished early => exact stepsBack_before unfinished early hwent
  | between unfinished current here below above =>
    exact stepsBack_between hinc unfinished current here below above hwent
  | ended finished last passed =>
    subst hcursor
    exact stepsBack_over hinc finished last passed hwent

theorem stepsOn_iff (hinc : events.Pairwise (· < ·)) (hne : events ≠ []) {d : ReplayBackend}
    (h : Indexed events d.session d.cursor) (hwent : WentOn events d.cursor d.session info s') :
    StepsOn events (point d.session) info (point s') ↔ CanStepOn events d := by
  generalize d.cursor = cursor at h hwent
  cases h with
  | before unfinished early => exact stepsOn_before hinc hne unfinished early hwent
  | between unfinished current here below above =>
    exact stepsOn_between hinc unfinished current here below above hwent
  | ended finished last _ => exact stepsOn_over finished last hwent

end Mirrorscope.Dap
