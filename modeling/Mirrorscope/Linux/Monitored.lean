import Mirrorscope.Linux.Ptrace

/-! # A system under observation

Any system, with a list of notes about the calls made to it. What is noted of a call is
up to the observer; the notes only add to the system.
-/

namespace Mirrorscope.Linux

/-- A system and what was noted of it so far. -/
structure Monitored (ν ω : Type) where
  os : ω
  notes : List ν

namespace Monitored

variable {ν ω ε α : Type}

/-- A call of which nothing is noted. -/
def silent (call : Call ω ε α) : Call (Monitored ν ω) ε α := fun o =>
  let (answer, os) := call o.os
  (answer, { o with os })

/-- A call that is noted with its answer. -/
def noting (note : Except ε α → List ν) (call : Call ω ε α) : Call (Monitored ν ω) ε α := fun o =>
  let (answer, os) := call o.os
  (answer, { os, notes := o.notes ++ note answer })

theorem silent_notes {call : Call ω ε α} {o o' : Monitored ν ω} {answer : Except ε α}
    (h : silent call o = (answer, o')) : o'.notes = o.notes := by
  rw [← (Prod.mk.inj h).2]

theorem noting_notes {note : Except ε α → List ν} {call : Call ω ε α} {o o' : Monitored ν ω}
    {answer : Except ε α} (h : noting note call o = (answer, o')) :
    o'.notes = o.notes ++ note answer := by
  obtain ⟨hanswer, ho⟩ := Prod.mk.inj h
  rw [← ho, ← hanswer]

end Monitored

/-! ## Films of a system -/

/-- A call in a film: what it was, and the system before and after it. -/
structure Shot (μ ω : Type) where
  motion : μ
  before : ω
  after : ω

/-- A system with a film of the calls made to it. -/
abbrev Filmed (μ ω : Type) := Monitored (Shot μ ω) ω

/-- A call that is filmed. -/
def Filmed.film {μ ω ε α : Type} (motion : Except ε α → μ) (call : Call ω ε α) :
    Call (Filmed μ ω) ε α := fun o =>
  let (answer, os) := call o.os
  (answer, { os, notes := o.notes ++ [⟨motion answer, o.os, os⟩] })

end Mirrorscope.Linux
