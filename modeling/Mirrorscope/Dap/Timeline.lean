import Mirrorscope.Dap.ReplayBackend
import Mirrorscope.Replay.Landing

/-! # Stepping along the event timeline

A debugger steps from event to event. The backend follows an index of its own, which
agrees with where its session is, but for two things: an index cannot say that the
session stands between two events, and it cannot say that it stands before the first.
So what a step does is right just when the index names the place.
-/

namespace Mirrorscope.Dap

open Linux Replay Run ReplayBackend
open Trace (Cmdline Record)

/-! ## Points of the timeline -/

/-- Where a session stands: nothing consumed yet, stopped at a record, or its target gone. -/
inductive Point where
  | start
  | stop (seq : UInt64)
  | ended
deriving DecidableEq, Repr

/-- Where a session stands. -/
def point (s : ReplaySession) : Point :=
  match s.finished, s.currentSeq with
  | some _, _ => .ended
  | none, some seq => .stop seq
  | none, none => .start

/-- The event is strictly below the point. -/
def Point.IsAfter : Point → UInt64 → Prop
  | start, _ => False
  | stop seq, e => e < seq
  | ended, _ => True

/-- The event is strictly above the point. -/
def Point.IsBefore : Point → UInt64 → Prop
  | start, _ => True
  | stop seq, e => seq < e
  | ended, _ => False

/-- From `p`, the target ends stopped at the greatest event below, or stays if there is none. -/
def StepsBack (events : List UInt64) (p : Point) (info : StopInfo) (p' : Point) : Prop :=
  info = .onMain "step" ∧
    ((∃ e ∈ events, p.IsAfter e ∧ (∀ e' ∈ events, p.IsAfter e' → e' ≤ e) ∧ p' = .stop e) ∨
      ((∀ e ∈ events, ¬ p.IsAfter e) ∧ p' = p))

/-- From `p`, the target ends stopped at the least event above, or exits if there is none. -/
def StepsOn (events : List UInt64) (p : Point) (info : StopInfo) (p' : Point) : Prop :=
  (∃ e ∈ events, p.IsBefore e ∧ (∀ e' ∈ events, p.IsBefore e' → e ≤ e') ∧ p' = .stop e ∧
    info = .onMain "step") ∨
  ((∀ e ∈ events, ¬ p.IsBefore e) ∧ p' = .ended ∧ ∃ code, info = .exited code)

/-- A call that was answered, and the backend before and after it. -/
structure Step (ω : Type) where
  before : Hosted ReplayBackend ω
  call : MoveCall
  info : StopInfo
  after : Hosted ReplayBackend ω

/-- The step follows the timeline of the events. -/
def Step.Follows {ω : Type} (events : List UInt64) (s : Step ω) : Prop :=
  match s.call with
  | .resume .stepBack =>
    StepsBack events (point s.before.object.session) s.info (point s.after.object.session)
  | .resume .next | .resume .stepIn | .resume .stepOut =>
    StepsOn events (point s.before.object.session) s.info (point s.after.object.session)
  | _ => True

/-- A step back is right where a live session stands at an event, or past just one; and where
an ended one is past the last event and was not brought to its end by a jump, unless there
is one event only. -/
def CanStepBack (events : List UInt64) (b : ReplayBackend) : Prop :=
  match b.session.finished with
  | none =>
    ∃ seq, b.session.currentSeq = some seq ∧ (seq ∈ events ∨ ∃! e, e ∈ events ∧ e < seq)
  | some _ =>
    (∀ e ∈ events, ∃ c, b.session.currentSeq = some c ∧ e < c) ∧
      (b.cursor = events.length ∨ events.length = 1)

/-- A step forward is right where the session has ended, or has reached the first event. -/
def CanStepOn (events : List UInt64) (b : ReplayBackend) : Prop :=
  b.session.finished ≠ none ∨ ∃ seq, b.session.currentSeq = some seq ∧ ∃ e ∈ events, e ≤ seq

/-- The backend is where the step is right. -/
def Step.Guarded {ω : Type} (events : List UInt64) (s : Step ω) : Prop :=
  match s.call with
  | .resume .stepBack => CanStepBack events s.before.object
  | .resume .next | .resume .stepIn | .resume .stepOut => CanStepOn events s.before.object
  | _ => True

section Runs

variable {arch : Arch} (M : Machine arch) (text : ReplayError → String) (cmdline : Cmdline)
  (records : List Record)

/-- The runs of a backend on a trace: opened in any system, then calls that return no error. -/
inductive Debugged : List (Step (Os M)) → Hosted ReplayBackend (Os M) → Prop where
  | opened {interval : UInt64} {host host' : Os M} {b : ReplayBackend}
      (h : ReplayBackend.open arch text cmdline records interval host = some (.ok b, host')) :
      Debugged [] ⟨b, host'⟩
  | moved {steps : List (Step (Os M))} {b b' : Hosted ReplayBackend (Os M)} {info : StopInfo}
      (hb : Debugged steps b) (c : MoveCall) (h : exec (move arch text c) b = some (.ok info, b')) :
      Debugged (steps ++ [⟨b, c, info, b'⟩]) b'

/-- The tracee replays the trace: a fresh session gets to every event of it. -/
def Replays : Prop :=
  ∀ os f, exec (Replay.launch arch) ⟨ReplaySession.ofTrace cmdline records, os⟩ =
      some (.ok (), (f : World (Os M))) →
    ∀ e ∈ (readTraceMeta records).1, Reaches e f

end Runs

/-! ## The index of a point -/

section Index

variable {events : List UInt64} {i j : Nat} {a b e q : UInt64}

theorem rposition_none {α : Type} {p : α → Bool} {xs : List α} (h : rposition p xs = none) :
    ∀ x ∈ xs, p x = false := by
  induction xs with
  | nil =>
    intro x hx
    cases hx
  | cons y xs ih =>
    unfold rposition at h
    split at h
    · cases h
    · rename_i hnone
      split at h
      · cases h
      · rename_i hy
        intro x hx
        rcases List.mem_cons.mp hx with rfl | hmem
        · exact Bool.eq_false_of_not_eq_true hy
        · exact ih hnone x hmem

theorem rposition_some {α : Type} {p : α → Bool} {xs : List α} (h : rposition p xs = some i) :
    (∃ x, xs[i]? = some x ∧ p x = true) ∧ ∀ j x, i < j → xs[j]? = some x → p x = false := by
  induction xs generalizing i with
  | nil => cases h
  | cons y xs ih =>
    unfold rposition at h
    split at h
    · rename_i k hk
      rcases Option.some.inj h with rfl
      rcases ih hk with ⟨hhere, hafter⟩
      refine ⟨hhere, ?_⟩
      intro j x hj hx
      cases j with
      | zero => omega
      | succ j => exact hafter j x (by omega) hx
    · rename_i hnone
      split at h
      · rename_i hy
        rcases Option.some.inj h with rfl
        refine ⟨⟨y, rfl, hy⟩, ?_⟩
        intro j x hj hx
        cases j with
        | zero => omega
        | succ j => exact rposition_none hnone x (List.mem_of_getElem? hx)
      · cases h

/-- What the index says of where the session stands: before the first event, between its event
and the next, or at the end, where a jump leaves the last event and not the end. -/
inductive Indexed (events : List UInt64) (s : ReplaySession) : Nat → Prop where
  | before (unfinished : s.finished = none)
      (early : ∀ q, s.currentSeq = some q → ∀ e ∈ events, q < e) : Indexed events s 0
  | between {i : Nat} {e q : UInt64} (unfinished : s.finished = none)
      (current : s.currentSeq = some q) (here : events[i]? = some e) (below : e ≤ q)
      (above : ∀ j e', i < j → events[j]? = some e' → q < e') : Indexed events s i
  | ended {i : Nat} {outcome : ExitOutcome} (finished : s.finished = some outcome)
      (last : i = events.length ∨ i + 1 = events.length)
      (passed : ∀ e ∈ events, ∃ c, s.currentSeq = some c ∧ e ≤ c) : Indexed events s i

end Index

end Mirrorscope.Dap
