import Mirrorscope.Replay.Arming
import Mirrorscope.Replay.Scan

/-! # The value before an access

A session remembers what the watched range held at the last hit, and gives it as the old
value of the next one. That is what the range held before the access as long as the tracee
stays the same; a restart puts a process with an older memory in its place, and the
remembered value stays.

The film of a session shows every motion of its tracee.
* `Shared`: in a shot the watched range is the same memory for every process that runs or is
  read.
* `RecalledAs`: the old value of a hit is what the range held before the access.
* `Remembers`: the session remembers what the range holds now. `Remembers.accounts` carries it
  from hit to hit.
* `Grown`: where no watchpoint is armed, the film grows and no hit is added.
* `old_values_recalled`: the old value of every hit, over the calls.
-/

namespace Mirrorscope.Replay

open Capture Linux Run
open Trace (Cmdline Record)

variable {ω : Type}

section

variable (arch : Arch) [Ptrace arch ω] (wp : Watchpoint) (tracee : Pid)

/-- What the tracee's range holds after the call, it held before. -/
def Unchanging (shot : Shot Motion ω) : Prop :=
  ∀ b, held arch wp tracee shot.after = some b → held arch wp tracee shot.before = some b

/-- The range does not come into being in the call, and the task that is run or read shares
it with the tracee. -/
structure Shared (shot : Shot Motion ω) : Prop where
  mapped : (held arch wp tracee shot.after).isSome = true →
    (held arch wp tracee shot.before).isSome = true
  resumed : ∀ pid, shot.motion = .resumed pid →
    held arch wp pid shot.before = held arch wp tracee shot.before
  read : ∀ pid addr len answer, shot.motion = .read pid addr len answer →
    held arch wp pid shot.before = held arch wp tracee shot.before

/-- The old value of the hit is what the range held when the access began, and the new
value what it held in the end. -/
def RecalledAs (seg : List (Shot Motion ω)) (hit : WatchHit) : Prop :=
  ∃ pid start finish, IsAccess wp pid start finish seg ∧
    held arch wp pid finish = some hit.newValue ∧
    ∀ value, hit.oldValue = some value → held arch wp pid start = some value

/-- Every hit has an access of its own, in order, and recalls what was before it. -/
def Recalled (log : List (Shot Motion ω)) (hits : List WatchHit) : Prop :=
  Entered (fun _ => True) (fun seg hit => ∃ wp, RecalledAs arch wp seg hit) log hits

end

variable {arch : Arch} [Ptrace arch ω] {wp : Watchpoint} {tracee : Pid}

/-- A range that can be read at the end could be read at the start. -/
theorem held_linked {seg : List (Shot Motion ω)} {a b : ω}
    (hshared : ∀ shot ∈ seg, Shared arch wp tracee shot) (hlinked : Linked a seg b)
    (h : (held arch wp tracee b).isSome = true) : (held arch wp tracee a).isSome = true := by
  induction seg generalizing a with
  | nil =>
    rcases hlinked with rfl
    exact h
  | cons shot seg ih =>
    rcases hlinked with ⟨rfl, hrest⟩
    refine (hshared shot List.mem_cons_self).mapped ?_
    exact ih (fun s hs => hshared s (List.mem_cons_of_mem _ hs)) hrest

/-- A film up to its last shot. -/
theorem Linked.init {seg : List (Shot Motion ω)} {last : Shot Motion ω} {a c : ω}
    (h : Linked a (seg ++ [last]) c) : Linked a seg last.before := by
  induction seg generalizing a with
  | nil => exact h.1.symm
  | cons shot seg ih => exact ⟨h.1, ih h.2⟩

/-- What was remembered is what the range held before the access, and what is read is what it
holds after. -/
theorem recalledAs_access {pid : Pid} {start finish : ω} {seg : List (Shot Motion ω)}
    {read : Shot Motion ω} {bytes : Bytes} {hit : WatchHit}
    (haccess : IsAccess wp pid start finish (seg ++ [read]))
    (hshared : ∀ shot ∈ seg ++ [read], Shared arch wp tracee shot) (hread : read.before = finish)
    (hlast : ∀ value b, hit.oldValue = some value → held arch wp tracee start = some b → value = b)
    (hheld : held arch wp pid finish = some bytes) (hnew : hit.newValue = bytes) :
    RecalledAs arch wp (seg ++ [read]) hit ∧ held arch wp tracee finish = some bytes := by
  rcases haccess.shape with ⟨first, mid, last, hseg, hfirst, rfl, -, -, ⟨copied, hmotion⟩, -⟩
  rcases List.append_inj' hseg rfl with ⟨hinit, htail⟩
  rcases List.singleton_inj.mp htail with rfl
  subst hread
  -- the range could be read in the end, so it could be all along
  have hend : held arch wp tracee read.before = some bytes := by
    have hshot := hshared read (List.mem_append_right _ (List.mem_singleton.mpr rfl))
    rw [← hshot.read _ _ _ _ hmotion]
    exact hheld
  rcases haccess.linked with ⟨after, hlinked⟩
  have hsome : (held arch wp tracee first.before).isSome = true := by
    refine held_linked (fun s hs => hshared s (List.mem_append_left _ hs)) hlinked.init ?_
    rw [hend]
    rfl
  rcases Option.isSome_iff_exists.mp hsome with ⟨b, hstart⟩
  refine ⟨⟨pid, first.before, read.before, haccess, by rw [hheld, hnew], ?_⟩, hend⟩
  intro value hold
  have hmem : first ∈ seg ++ [read] := by
    rw [hseg]
    exact List.mem_append_left _ List.mem_cons_self
  rw [(hshared first hmem).resumed pid hfirst, hstart, hlast value b hold hstart]

variable (arch wp tracee) in
/-- The accounts of a session whose tracee stays the same. -/
def recallLedger : Ledger (ω := ω) arch wp where
  Tracee pid := pid = tracee
  Calm := Unchanging arch wp tracee
  Fair := Shared arch wp tracee
  Last value os := ∀ v b, value = some v → held arch wp tracee os = some b → v = b
  Right := RecalledAs arch wp
  calm hcalm hlast v b hv hb := hlast v b hv (hcalm b hb)
  hit haccess hshared hcalm hread hlast hheld hnew := by
    rcases recalledAs_access haccess hshared hread hlast hheld hnew with ⟨hright, hend⟩
    refine ⟨hright, ?_⟩
    intro v b hv hb
    rcases Option.some.inj hv with rfl
    rw [← hread] at hend
    exact Option.some.inj (hend.symm.trans (hcalm b hb))

/-- The hits of a call are recalled like the earlier ones. -/
theorem Entered.recalled {before log : List (Shot Motion ω)} {earlier hits : List WatchHit}
    {Quiet : Shot Motion ω → Prop} (hbefore : Recalled arch before earlier)
    (h : Entered Quiet (RecalledAs arch wp) log hits) :
    Recalled arch (before ++ log) (earlier ++ hits) := by
  induction h with
  | nil log hquiet =>
    rw [List.append_nil]
    exact Entered.append hbefore fun _ _ => trivial
  | @hit log seg hits hit entered right later hquiet ih =>
    have hmore := Entered.hit ih ⟨wp, right⟩ later fun _ _ => trivial
    rw [← List.append_assoc, ← List.append_assoc, ← List.append_assoc]
    exact hmore

/-! ## Calls without a request -/

/-- The film goes on from `before`, and the session meets `P`. -/
def Grown (before : List (Shot Motion ω)) (P : ReplaySession → Prop)
    (w : World (Filmed Motion ω)) : Prop := P w.session ∧ ∃ log, w.os.notes = before ++ log

section Grown

variable {before : List (Shot Motion ω)} {P : ReplaySession → Prop}

omit [Ptrace arch ω] in
/-- One more shot, and the hits as they are. -/
theorem film_grown {ε α : Type} {err : ε → ReplayError} {motion : Except ε α → Motion}
    {call : Call ω ε α} : Keeps (Grown before P) (osOr err (Filmed.film motion call)) := by
  have hfilmed {w : World (Filmed Motion ω)} (hw : Grown before P w) (m : Motion) (os : ω) :
      Grown before P (w.filmed m os) := by
    rcases hw with ⟨hs, log, hnotes⟩
    refine ⟨hs, log ++ [⟨m, w.os.os, os⟩], ?_⟩
    show w.os.notes ++ [_] = _
    rw [hnotes, List.append_assoc]
  exact film_spec (fun w a os hw _ => hfilmed hw _ os) (fun w e os hw _ => hfilmed hw _ os)

omit [Ptrace arch ω] in
theorem modify_grown {f : ReplaySession → ReplaySession} (hf : ∀ s, P s → P (f s)) :
    Keeps (Grown before P) (modifySelf f : Method (Filmed Motion ω) Unit) :=
  modifySelf_upkeep fun w hw => ⟨hf w.session hw.1, hw.2⟩

theorem arm_grown (live : Pid) (addr : UInt64) (len : UInt8) (kind : WatchKind) :
    Keeps (Grown before P)
      (WatchHw.arm arch live addr len kind : Method (Filmed Motion ω) Unit) := by
  cases arch with
  | x86_64 =>
    refine Keeps.bind orFail_upkeep fun _ => ?_
    exact Keeps.bind film_grown fun _ => film_grown
  | aarch64 => exact Keeps.bind orFail_upkeep fun _ => film_grown

theorem disarm_grown (live : Pid) :
    Keeps (Grown before P) (WatchHw.disarm arch live : Method (Filmed Motion ω) Unit) := by
  cases arch with
  | x86_64 => exact film_grown
  | aarch64 => exact film_grown

omit [Ptrace arch ω] in
theorem forEach_grown {β : Type} {f : β → Method (Filmed Motion ω) Unit}
    (h : ∀ b, Keeps (Grown before P) (f b)) (bs : List β) :
    Keeps (Grown before P) (forEach f bs) := by
  induction bs with
  | nil => exact Keeps.pure
  | cons b bs ih => exact Keeps.bind (h b) fun _ => ih

/-- A snapshot is many shots and no hit. -/
theorem forkSnapshot_grown (pid : Pid) :
    Keeps (Grown before P) (forkSnapshot arch pid : Method (Filmed Motion ω) Pid) := by
  have hfork : Keeps (Grown before P)
      (waitForForkChild arch pid : Method (Filmed Motion ω) Pid) := by
    refine Keeps.bind film_grown fun status => ?_
    split
    · split
      · exact film_grown
      · exact Keeps.fail
    · exact Keeps.fail
  have hreap (child : Pid) : Keeps (Grown before P)
      (reapForkChild arch child : Method (Filmed Motion ω) Unit) := by
    refine Keeps.bind film_grown fun status => ?_
    split
    · exact Keeps.pure
    · exact Keeps.pure
    · exact Keeps.fail
  have hclone : Keeps (Grown before P)
      (reapCloneExit arch pid : Method (Filmed Motion ω) Unit) := by
    refine Keeps.bind film_grown fun _ => Keeps.bind film_grown fun status => ?_
    split
    · exact Keeps.pure
    · exact Keeps.fail
  refine Keeps.bind film_grown fun saved => ?_
  refine Keeps.bind film_grown fun _ => ?_
  refine Keeps.bind film_grown fun _ => ?_
  refine Keeps.bind hfork fun child => ?_
  refine Keeps.bind (hreap child) fun _ => ?_
  refine Keeps.bind film_grown fun _ => ?_
  refine Keeps.bind hclone fun _ => ?_
  refine Keeps.bind film_grown fun _ => ?_
  exact Keeps.bind film_grown fun _ => Keeps.pure

variable [Unwind ω] {hits : List WatchHit}

/-- No request is set, and the hits are these. -/
def Unasked (hits : List WatchHit) (s : ReplaySession) : Prop :=
  s.watchpoint = none ∧ s.watchHits = hits

/-- Without a request no hit is entered. -/
theorem unasked_upkeep :
    Upkeep arch (Grown before (Unasked hits) : World (Filmed Motion ω) → Prop)
      (Grown before (Unasked hits))
      { Running := fun _ => Grown before (Unasked hits)
        Stopped := fun _ _ => Grown before (Unasked hits)
        Trapped := fun _ _ => False
        Born := fun _ => Grown before (Unasked hits)
        Bound := fun _ => Grown before (Unasked hits) } where
  weaken _ hw := hw
  setoptions _ := film_grown
  saveFull _ := film_grown
  restoreFull _ _ := film_grown
  setSyscallNr _ _ := film_grown
  processVmWritev _ _ _ := film_grown
  resume _ _ := film_grown
  wait _ _ := film_grown
  rest _ _ _ _ hw := hw
  trap pid q := by
    refine Spec.bind self_spec_upkeep fun s => ?_
    split
    · exact Spec.pure fun _ hw => hw.2
    · rename_i wp hwp
      rintro w ⟨rfl, ⟨hnone, -⟩, -⟩
      rw [hnone] at hwp
      cases hwp
  hit _ := fun _ hw => hw.elim
  event _ := film_grown
  register child seq := by
    refine Keeps.bind film_grown fun status => ?_
    split
    · exact film_grown
    · exact film_grown
    · exact Keeps.fail
  bindChild seq tid child parent vforked := by
    refine Keeps.bind state_keeps_upkeep fun mt => ?_
    refine Keeps.bind orFail_upkeep fun tidmap => ?_
    refine Keeps.bind state_keeps_upkeep fun mt => ?_
    exact modify_grown fun _ hs => hs
  armChild child := by
    refine Keeps.bind self_upkeep fun s => ?_
    split
    · exact arm_grown _ _ _ _
    · exact Keeps.pure
  place _ _ _ _ _ _ hw := hw
  threads _ _ _ _ _ hw := hw
  seat _ _ _ hw := hw
  finished _ _ hw := hw
  checkpoints _ _ _ hw := hw
  snapshot pid := (forkSnapshot_grown pid).mono (fun _ hw => hw.2) (fun _ _ hw => hw)
    (fun _ _ hw => hw)

omit [Unwind ω] in
theorem restart_grown (start : StartPoint) :
    Keeps (Grown before (Unasked hits)) (restart arch start : Method (Filmed Motion ω) Unit) := by
  have hkill : Keeps (Grown before (Unasked hits))
      (killActive arch : Method (Filmed Motion ω) Unit) := by
    refine Keeps.bind self_upkeep fun s => ?_
    split
    · exact Keeps.pure
    · exact Keeps.bind (Keeps.attempt film_grown) fun _ => Keeps.attempt film_grown
  have hrearm : Keeps (Grown before (Unasked hits))
      (rearmWatchpoint arch : Method (Filmed Motion ω) Unit) := by
    refine Keeps.bind (modify_grown fun _ hs => hs) fun _ => ?_
    refine Keeps.bind self_upkeep fun s => ?_
    split
    · exact arm_grown _ _ _ _
    · exact Keeps.pure
  -- A snapshot is forked, or the program is spawned again.
  unfold restart
  split
  · refine Keeps.bind self_upkeep fun s => ?_
    split
    · exact Keeps.never
    · refine Keeps.bind (forkSnapshot_grown _) fun fresh => ?_
      refine Keeps.bind hkill fun _ => ?_
      exact Keeps.bind (modify_grown fun _ hs => hs) fun _ => hrearm
  · refine Keeps.bind hkill fun _ => ?_
    refine Keeps.bind self_upkeep fun s => ?_
    have hspawn : Keeps (Grown before (Unasked hits))
        (spawnStopped arch s.cmdline : Method (Filmed Motion ω) Pid) :=
      Keeps.bind film_grown fun _ => Keeps.bind film_grown fun _ =>
        Keeps.bind film_grown fun _ => Keeps.pure
    refine Keeps.bind hspawn fun pid => ?_
    exact Keeps.bind (modify_grown fun _ hs => hs) fun _ => hrearm

end Grown

/-! ## One call -/

section Calls

variable [Unwind ω] {before : List (Shot Motion ω)} {earlier : List WatchHit}

/-- The hits so far recall what was before them, and the value that is remembered for the
request is what the range holds. -/
structure Remembers (arch : Arch) [Ptrace arch ω] (w : World (Filmed Motion ω)) : Prop where
  recalled : Recalled arch w.os.notes w.session.watchHits
  last : ∀ wp, w.session.watchpoint = some wp →
    (recallLedger arch wp w.session.pid).Last w.session.lastValue w.os.os

/-- The call is made of a film in which the range is written by the tracee's instructions
alone, and of tasks that share it; with a request set it neither restarts the tracee nor
ends in the middle of an access. -/
structure Undistorted (arch : Arch) [Ptrace arch ω] (w : World (Filmed Motion ω)) (c : SessionCall)
    (w' : World (Filmed Motion ω)) : Prop where
  obeyed : ∀ wp log, w'.session.watchpoint = some wp → w'.os.notes = w.os.notes ++ log →
    (recallLedger arch wp w.session.pid).Obeyed log
  stays : c.restarts w.session = true → w.session.watchpoint = none
  rests : ∀ log, w.session.watchpoint ≠ none → w'.os.notes = w.os.notes ++ log →
    stageOf log = .rest

omit [Unwind ω] in
/-- The ledger of a drive opens with what the session remembers. -/
theorem Remembers.accounts {w : World (Filmed Motion ω)} (h : Remembers arch w)
    (hwp : w.session.watchpoint = some wp) :
    Accounts (recallLedger arch wp w.session.pid) w.os.notes w.session.watchHits w := by
  refine ⟨[], (List.append_nil _).symm, rfl, hwp, rfl, ?_⟩
  intro _
  refine ⟨[], (List.append_nil _).symm, ?_, h.last wp hwp⟩
  exact .nil [] fun _ hnone => absurd hnone List.not_mem_nil

omit [Unwind ω] in
/-- The accounts are in order after the call. -/
theorem Accounts.remembers {w w' : World (Filmed Motion ω)} (h : Remembers arch w)
    (haccounts : Accounts (recallLedger arch wp w.session.pid) w.os.notes w.session.watchHits w')
    (hobeyed : ∀ wp log, w'.session.watchpoint = some wp → w'.os.notes = w.os.notes ++ log →
      (recallLedger arch wp w.session.pid).Obeyed log) : Remembers arch w' := by
  rcases haccounts with ⟨log, hnotes, -, hbalanced⟩
  rcases hbalanced.balance (hobeyed wp log hbalanced.request hnotes) with
    ⟨hits, hhits, hentered, hlast⟩
  refine ⟨?_, ?_⟩
  · rw [hnotes, hhits]
    exact hentered.recalled h.recalled
  · intro wp' hwp'
    rw [hbalanced.request] at hwp'
    rcases Option.some.inj hwp' with rfl
    have htracee : w'.session.pid = w.session.pid := hbalanced.tracee
    rw [htracee]
    exact hlast

omit [Unwind ω] in
/-- A drive that fails in the middle of a hit has not added it. -/
theorem Interrupted.accounts {w w' : World (Filmed Motion ω)}
    (h : Interrupted (recallLedger arch wp w.session.pid) w.os.notes w.session.watchHits w')
    (hrests : ∀ log, w'.os.notes = w.os.notes ++ log → stageOf log = .rest) :
    Accounts (recallLedger arch wp w.session.pid) w.os.notes w.session.watchHits w' := by
  rcases h with ⟨log, hnotes, haccounts⟩
  exact haccounts (hrests log hnotes)

omit [Unwind ω] in
/-- What is not watched need not be remembered. -/
theorem Grown.remembers {w w' : World (Filmed Motion ω)} (h : Remembers arch w)
    (hgrown : Grown w.os.notes (Unasked w.session.watchHits) w') : Remembers arch w' := by
  rcases hgrown with ⟨⟨hnone, hhits⟩, log, hnotes⟩
  refine ⟨?_, ?_⟩
  · rw [hnotes, hhits]
    exact Entered.append h.recalled fun _ _ => trivial
  · intro wp hwp
    rw [hnone] at hwp
    cases hwp

/-! ### Requests -/

omit [Unwind ω] in
/-- A request that is accepted remembers what its range holds. -/
theorem watch_remembers {addr : UInt64} {len : UInt8} {kind : WatchKind}
    {w w' : World (Filmed Motion ω)} (h : Remembers arch w)
    (hexec : exec (watch arch addr len kind) w = some (.ok (), w'))
    (hobeyed : ∀ wp log, w'.session.watchpoint = some wp → w'.os.notes = w.os.notes ++ log →
      (recallLedger arch wp w.session.pid).Obeyed log) : Remembers arch w' := by
  let P (s : ReplaySession) : Prop := s.watchHits = w.session.watchHits ∧ s.pid = w.session.pid
  -- the state when the range was read, and the value
  let Read (value : Bytes) (v : World (Filmed Motion ω)) : Prop := P v.session ∧
    ∃ log read, v.os.notes = w.os.notes ++ (log ++ [read]) ∧ read.after = v.os.os ∧
      (∃ q a l answer, read.motion = .read q a l answer) ∧
      held arch ⟨addr, len, kind⟩ w.session.pid read.before = some value
  have hspec : Spec (Grown w.os.notes P) (watch arch addr len kind : Method (Filmed Motion ω) Unit)
      (fun _ v => ∃ value, Read value v ∧ v.session.watchpoint = some ⟨addr, len, kind⟩ ∧
        v.session.lastValue = some value) (fun _ _ => True) := by
    have hany {α : Type} {m : Method (Filmed Motion ω) α} (hm : Keeps (Grown w.os.notes P) m) :
        Spec (Grown w.os.notes P) m (fun _ => Grown w.os.notes P) (fun _ _ => True) :=
      hm.mono (fun _ hv => hv) (fun _ _ hv => hv) (fun _ _ _ => trivial)
    refine Spec.bind (hany orFail_upkeep) fun _ => ?_
    refine Spec.bind (Q := fun s v => s.pid = w.session.pid ∧ Grown w.os.notes P v) ?_
      fun s => Spec.assume fun hpid => ?_
    · refine self_spec_upkeep.mono (fun _ hv => hv) ?_ (fun _ _ hv => hv)
      rintro s v ⟨rfl, hv⟩
      exact ⟨hv.1.2, hv⟩
    refine Spec.bind (hany (forEach_grown (fun live => arm_grown live addr len kind) _)) fun _ => ?_
    refine Spec.bind (Q := Read) ?_ fun value => modifySelf_upkeep fun v hv => ⟨value, hv, rfl, rfl⟩
    refine Spec.bind
      (Q := fun copied => Read (copied ++ List.replicate (len.toNat - copied.length) 0))
      (film_spec ?_ fun _ _ _ _ _ => trivial) fun copied => Spec.pure fun _ hv => hv
    rintro v copied os ⟨hv, log, hnotes⟩ hread
    refine ⟨hv, log, ⟨.read s.pid addr len.toNat (.ok copied), v.os.os, os⟩, ?_, rfl,
      ⟨_, _, _, _, rfl⟩, ?_⟩
    · show v.os.notes ++ [_] = _
      rw [hnotes, List.append_assoc]
    · unfold held
      rw [hpid] at hread
      rw [hread]
  have hstart : Grown w.os.notes P w := ⟨⟨rfl, rfl⟩, [], (List.append_nil _).symm⟩
  rcases hspec.ok hstart hexec with
    ⟨value, ⟨⟨hhits, hpid⟩, log, read, hnotes, hafter, ⟨q, a, l, answer, hmotion⟩, hheld⟩, hwp,
      hvalue⟩
  refine ⟨?_, ?_⟩
  · rw [hnotes, hhits]
    exact Entered.append h.recalled fun _ _ => trivial
  · intro wp' hwp'
    rw [hwp] at hwp'
    rcases Option.some.inj hwp' with rfl
    rw [hpid, hvalue, ← hafter]
    have hcalm : Unchanging arch ⟨addr, len, kind⟩ w.session.pid read := by
      rcases (hobeyed _ _ hwp hnotes).snoc with ⟨-, hallows, -, -⟩
      unfold Stage.Allows at hallows
      rw [hmotion] at hallows
      exact hallows
    intro v b hv hb
    rcases Option.some.inj hv with rfl
    exact Option.some.inj (hheld.symm.trans (hcalm b hb))

omit [Unwind ω] in
/-- A request that is not accepted leaves the one before it. -/
theorem watch_failed {I E : World (Filmed Motion ω) → Prop} {addr : UInt64} {len : UInt8}
    {kind : WatchKind}
    (hfail : ∀ {ε α : Type} {err : ε → ReplayError} {x : Except ε α},
      Upholds I E (orFail err x : Method (Filmed Motion ω) α))
    (harm : ∀ live, Upholds I E
      (WatchHw.arm arch live addr len kind : Method (Filmed Motion ω) Unit))
    (hread : ∀ pid, Upholds I E
      (readMemory arch pid addr len.toNat : Method (Filmed Motion ω) Bytes)) :
    Spec I (watch arch addr len kind : Method (Filmed Motion ω) Unit) (fun _ _ => True)
      (fun _ => E) := by
  refine Spec.bind hfail fun _ => ?_
  refine Spec.bind self_upkeep fun s => ?_
  refine Spec.bind (forEach_upkeep (M := fun _ => I) (fun _ live => harm live) [] _) fun _ => ?_
  refine Spec.bind (hread s.pid) fun value => ?_
  exact modifySelf_upkeep fun _ _ => trivial

omit [Unwind ω] in
/-- A request that is cleared is gone, even if a thread cannot be disarmed. -/
theorem clearWatch_grown {H : List WatchHit} :
    Spec (Grown before fun s => s.watchHits = H) (clearWatch arch : Method (Filmed Motion ω) Unit)
      (fun _ => Grown before (Unasked H)) (fun _ => Grown before (Unasked H)) := by
  refine Spec.bind self_upkeep fun s => ?_
  refine Spec.bind (Q := fun _ => Grown before (Unasked H)) ?_ fun _ => ?_
  · exact modifySelf_upkeep fun w hw => ⟨⟨rfl, hw.1⟩, hw.2⟩
  refine Keeps.bind (Keeps.when (forEach_grown disarm_grown _)) fun _ => ?_
  exact modify_grown fun _ hs => hs

/-! ### Every call -/

/-- A call that makes no request and drains no hits. -/
def SessionCall.drives : SessionCall → Bool
  | .watch .. | .clearWatch | .takeWatchHits => false
  | _ => true

/-- A call that drives, or restarts and then drives. -/
theorem perform_drives {I E : World (Filmed Motion ω) → Prop} {c : SessionCall}
    {w : World (Filmed Motion ω)} (hw : I w) (hc : c.drives = true)
    (hdrive : ∀ stopAt, Upholds I E (drive arch stopAt : Method (Filmed Motion ω) ExitOutcome))
    (hinterval : ∀ w n, I w → I (w.withSession fun s => { s with checkpointInterval := n }))
    (hrestart : c.restarts w.session = true → ∀ start,
      Upholds I E (restart arch start : Method (Filmed Motion ω) Unit)) :
    Spec (fun v => v = w) (perform arch c : Method (Filmed Motion ω) (Option ExitOutcome))
      (fun _ => I) (fun _ => E) := by
  have hstart {m : Method (Filmed Motion ω) (Option ExitOutcome)} (hm : Upholds I E m) :
      Spec (fun v => v = w) m (fun _ => I) (fun _ => E) := by
    rintro v rfl
    exact hm v hw
  -- Only the first and the fourth of these calls may restart.
  cases c with
  | runTo seq =>
    refine Spec.bind (Q := fun _ => I) ?_ fun _ => Upholds.pure
    refine Spec.bind self_spec_upkeep fun s => ?_
    refine Spec.bind (Q := fun _ => I) (Spec.when ?_ ?_) fun _ => hdrive (some seq)
    · rintro hdoes v ⟨rfl, rfl⟩
      exact hrestart hdoes _ v hw
    · rintro - v ⟨-, rfl⟩
      exact hw
  | stepTo seq => exact hstart (Upholds.bind (hdrive (some seq)) fun _ => Upholds.pure)
  | runToEnd => exact hstart (Upholds.bind (hdrive none) fun _ => Upholds.pure)
  | restoreTo seq =>
    refine hstart (Upholds.bind ?_ fun _ => Upholds.pure)
    exact Upholds.bind self_upkeep fun s => hrestart rfl _
  | checkpointInterval interval =>
    refine hstart (Upholds.bind ?_ fun _ => Upholds.pure)
    exact modifySelf_upkeep fun v hv => hinterval v interval hv
  | watch | clearWatch | takeWatchHits => cases hc

/-- A call with a request set. -/
theorem watched_remembers {w w' : World (Filmed Motion ω)} {c : SessionCall}
    {r : Except ReplayError (Option ExitOutcome)} (hw : Remembers arch w)
    (hwp : w.session.watchpoint = some wp) (hc : Undistorted arch w c w')
    (hdrives : c.drives = true) (h : exec (perform arch c) w = some (r, w')) :
    Remembers arch w' := by
  have hrests : ∀ log, w'.os.notes = w.os.notes ++ log → stageOf log = .rest := by
    intro log
    refine hc.rests log ?_
    rw [hwp]
    nofun
  have hpost := perform_drives (hw.accounts hwp) hdrives accounts_upkeep.drive
    (fun _ _ hv => hv.withSession rfl rfl rfl rfl) (fun hrestart => absurd (hc.stays hrestart) (by
      rw [hwp]
      nofun)) w rfl r w' h
  cases r with
  | ok outcome => exact Accounts.remembers hw hpost hc.obeyed
  | error e => exact Accounts.remembers hw (hpost.accounts hrests) hc.obeyed

/-- A call without a request. -/
theorem unasked_remembers {w w' : World (Filmed Motion ω)} {c : SessionCall}
    {r : Except ReplayError (Option ExitOutcome)} (hw : Remembers arch w)
    (hnone : w.session.watchpoint = none) (hdrives : c.drives = true)
    (h : exec (perform arch c) w = some (r, w')) : Remembers arch w' := by
  have hstart : Grown w.os.notes (Unasked w.session.watchHits) w :=
    ⟨⟨hnone, rfl⟩, [], (List.append_nil _).symm⟩
  have hpost := perform_drives hstart hdrives unasked_upkeep.drive (fun _ _ hv => hv)
    (fun _ start => restart_grown start) w rfl r w' h
  cases r with
  | ok outcome => exact hpost.remembers hw
  | error e => exact hpost.remembers hw

omit [Unwind ω] in
/-- A request that is made, whether it is accepted or not. -/
theorem request_remembers {w w' : World (Filmed Motion ω)} {addr : UInt64} {len : UInt8}
    {kind : WatchKind} {r : Except ReplayError Unit} (hw : Remembers arch w)
    (hc : Undistorted arch w (.watch addr len kind) w')
    (h : exec (watch arch addr len kind) w = some (r, w')) : Remembers arch w' := by
  cases r with
  | ok u => exact watch_remembers hw h hc.obeyed
  | error e =>
    cases hwp : w.session.watchpoint with
    | none =>
      have hstart : Grown w.os.notes (Unasked w.session.watchHits) w :=
        ⟨⟨hwp, rfl⟩, [], (List.append_nil _).symm⟩
      have hpost := (watch_failed orFail_upkeep (fun live => arm_grown live addr len kind)
        (fun _ => Keeps.bind film_grown fun _ => Keeps.pure)).error hstart h
      exact hpost.remembers hw
    | some wp =>
      have hpost := (watch_failed orFail_accounts (fun live => arm_accounts live addr len kind)
        (fun _ => Upholds.bind (film_accounts nofun) fun _ => Upholds.pure)).error
        (hw.accounts hwp) h
      refine Accounts.remembers hw (hpost.accounts ?_) hc.obeyed
      intro log
      refine hc.rests log ?_
      rw [hwp]
      nofun

/-- Every undistorted call keeps the memory right. -/
theorem perform_remembers {w w' : World (Filmed Motion ω)} {c : SessionCall}
    {r : Except ReplayError (Option ExitOutcome)} (hw : Remembers arch w)
    (hc : Undistorted arch w c w') (h : exec (perform arch c) w = some (r, w')) :
    Remembers arch w' := by
  cases hdrives : c.drives with
  | true =>
    cases hwp : w.session.watchpoint with
    | none => exact unasked_remembers hw hwp hdrives h
    | some wp => exact watched_remembers hw hwp hc hdrives h
  | false =>
    cases c with
    | watch addr len kind =>
      rcases bind_inv h with ⟨e, hfail, -⟩ | ⟨u, v, hok, hrest⟩
      · exact request_remembers hw hc hfail
      · rcases Prod.mk.inj (Option.some.inj hrest) with ⟨-, rfl⟩
        exact request_remembers hw hc hok
    | clearWatch =>
      have hstart : Grown w.os.notes (fun s => s.watchHits = w.session.watchHits) w :=
        ⟨rfl, [], (List.append_nil _).symm⟩
      rcases bind_inv h with ⟨e, hfail, -⟩ | ⟨u, v, hok, hrest⟩
      · exact (clearWatch_grown.error hstart hfail).remembers hw
      · rcases Prod.mk.inj (Option.some.inj hrest) with ⟨-, rfl⟩
        exact (clearWatch_grown.ok hstart hok).remembers hw
    | takeWatchHits =>
      rcases Prod.mk.inj (Option.some.inj h) with ⟨-, rfl⟩
      exact ⟨.nil _ fun _ _ => trivial, hw.last⟩
    | _ => cases hdrives

/-- **A hit's old value is what was before the access**, along every run of undistorted
calls. -/
theorem old_values_recalled {w : World (Filmed Motion ω)}
    (h : ReachableWhen arch (Undistorted arch) w) :
    Recalled arch w.os.notes w.session.watchHits := by
  have hremembers : Remembers arch w := by
    induction h with
    | launch hlaunch =>
      rcases launch_session arch hlaunch with ⟨pid, hsession⟩
      refine ⟨?_, ?_⟩
      · rw [hsession]
        exact .nil _ fun _ _ => trivial
      · intro wp hwp
        rw [hsession] at hwp
        cases hwp
    | call _ c hcall hc ih => exact perform_remembers ih hc hcall
  exact hremembers.recalled

end Calls

/-! ## A word that is typed twice -/

/-- A shot that leaves the word alone leaves the range alone. -/
theorem unchanging_typed {wp : Watchpoint} {pid : Pid} {shot : Shot Motion Typed}
    (h : shot.after.word = shot.before.word) : Unchanging .x86_64 wp pid shot := by
  intro b hb
  rw [held_typed, h, ← held_typed] at hb
  exact hb

/-- All tasks of the process have the word. -/
theorem shared_typed {pid : Pid} (shot : Shot Motion Typed) :
    Shared .x86_64 wordScan.request pid shot where
  mapped _ := rfl
  resumed _ _ := rfl
  read _ _ _ _ _ := rfl

/-- The film of a request: the registers are set, and the word is read. -/
def requestLog : List (Shot Motion Typed) :=
  let a : Typed := ⟨[(.stopped 1 .trap, letter), (.exited 1 0, letter)], blank⟩
  [⟨.other, a, a⟩, ⟨.other, a, a⟩, ⟨.read 1 0x5000 8 (.ok blank), a, a⟩]

theorem obeyed_request : (recallLedger .x86_64 wordScan.request 1).Obeyed requestLog := by
  have hsnoc : (recallLedger .x86_64 wordScan.request 1).Obeyed
      (requestLog.foldl (fun log shot => log ++ [shot]) []) := by
    unfold requestLog Ledger.Obeyed
    simp only [List.foldl_cons, List.foldl_nil, List.each_snoc]
    simp [List.each_nil, stageOf, Stage.next, Stage.Allows, recallLedger, shared_typed,
      unchanging_typed]
  exact hsnoc

theorem obeyed_typing : (recallLedger .x86_64 wordScan.request 1).Obeyed typingLog := by
  have hsnoc : (recallLedger .x86_64 wordScan.request 1).Obeyed
      (typingLog.foldl (fun log shot => log ++ [shot]) []) := by
    unfold typingLog Ledger.Obeyed
    simp only [List.foldl_cons, List.foldl_nil, List.each_snoc]
    simp [List.each_nil, stageOf, Stage.next, Stage.Allows, Stage.isTrap, recallLedger,
      shared_typed, unchanging_typed]
  exact hsnoc

/-- The hit of the first write recalls the blank. -/
theorem first_write_recalled :
    ∃ w : World (Filmed Motion Typed), ReachableWhen .x86_64 (Undistorted .x86_64) w ∧
      w.session.watchHits.map (fun hit => (hit.oldValue, hit.newValue)) =
        [(some blank, letter)] ∧
      Recalled .x86_64 w.os.notes w.session.watchHits := by
  have hrun : ∃ w₁ w₂ w₃ w₄ : World (Filmed Motion Typed),
      exec (launch .x86_64) ⟨ReplaySession.ofTrace ⟨"true", []⟩ [], ⟨typing, []⟩⟩ =
        some (.ok (), w₁) ∧
      exec (perform .x86_64 (.watch 0x5000 8 .write)) w₁ = some (.ok none, w₂) ∧
      exec (drive .x86_64 none) w₂ = exec (Run.loop (driveRound .x86_64 none)) w₂ ∧
      exec (driveRound .x86_64 none) w₂ = some (.ok none, w₃) ∧
      exec (driveRound .x86_64 none) w₃ = some (.ok (some (.exited 0)), w₄) ∧
      w₂.os.notes = w₁.os.notes ++ requestLog ∧ w₄.os.notes = w₂.os.notes ++ typingLog ∧
      w₁.session.pid = 1 ∧ w₂.session.pid = 1 ∧
      w₁.session.watchpoint = none ∧ w₂.session.watchpoint = some wordScan.request ∧
      w₄.session.watchpoint = some wordScan.request ∧
      w₄.session.watchHits.map (fun hit => (hit.oldValue, hit.newValue)) =
        [(some blank, letter)] :=
    ⟨_, _, _, _, rfl, rfl, rfl, rfl, rfl, rfl, rfl, rfl, rfl, rfl, rfl, rfl, rfl⟩
  rcases hrun with ⟨w₁, w₂, w₃, w₄, hlaunch, hwatch, hdrive, hfirst, hlast, hnotes₂, hnotes₄, hpid₁,
    hpid₂, hwp₁, hwp₂, hwp₄, hvalues⟩
  have hloop : exec (perform .x86_64 .runToEnd) w₂ = some (.ok (some (.exited 0)), w₄) := by
    have hend : exec (drive .x86_64 none) w₂ = some (.ok (.exited 0), w₄) := by
      rw [hdrive, loop_again hfirst]
      exact loop_of_leaves (.inl ⟨_, hlast, rfl⟩)
    exact bind_ok hend
  have hrequest : Undistorted .x86_64 w₁ (.watch 0x5000 8 .write) w₂ := by
    refine ⟨?_, nofun, fun _ hne => absurd hwp₁ hne⟩
    intro wp log hwp hnotes
    rcases Option.some.inj (hwp₂.symm.trans hwp) with rfl
    rw [hpid₁, List.append_cancel_left (hnotes.symm.trans hnotes₂)]
    exact obeyed_request
  have hend : Undistorted .x86_64 w₂ .runToEnd w₄ := by
    refine ⟨?_, nofun, ?_⟩
    · intro wp log hwp hnotes
      rcases Option.some.inj (hwp₄.symm.trans hwp) with rfl
      rw [hpid₂, List.append_cancel_left (hnotes.symm.trans hnotes₄)]
      exact obeyed_typing
    · intro log _ hnotes
      rw [List.append_cancel_left (hnotes.symm.trans hnotes₄)]
      rfl
  have hreachable := ReachableWhen.call (.call (.launch hlaunch) _ hwatch hrequest) _ hloop hend
  exact ⟨w₄, hreachable, hvalues, old_values_recalled hreachable⟩

/-- Going through a film for the accesses in it: the stage, what the word was when a task
was last resumed, and what it was at the start of the accesses so far. -/
structure Search where
  stage : Stage Typed
  start : Bytes
  found : List Bytes

def Search.next (search : Search) (shot : Shot Motion Typed) : Search where
  stage := search.stage.next shot
  start :=
    match shot.motion with
    | .resumed _ => shot.before.word
    | _ => search.start
  found :=
    match shot.motion, search.stage with
    | .read _ _ _ (.ok _), .trapped => search.found ++ [search.start]
    | _, _ => search.found

/-- What the word was when each access of the film began. -/
def accessStarts (log : List (Shot Motion Typed)) : List Bytes :=
  (log.foldl Search.next ⟨.rest, blank, []⟩).found

theorem Search.stage_foldl (search : Search) (log : List (Shot Motion Typed)) :
    (log.foldl Search.next search).stage = log.foldl Stage.next search.stage := by
  induction log generalizing search with
  | nil => rfl
  | cons shot log ih => exact ih _

theorem Search.start_inside (search : Search) {log : List (Shot Motion Typed)}
    (h : ∀ shot ∈ log, shot.motion.inside = true) :
    (log.foldl Search.next search).start = search.start := by
  induction log generalizing search with
  | nil => rfl
  | cons shot log ih =>
    refine (ih _ fun s hs => h s (List.mem_cons_of_mem _ hs)).trans ?_
    have hinside := h shot List.mem_cons_self
    unfold Search.next
    dsimp only
    split
    · rename_i pid hmotion
      rw [hmotion] at hinside
      cases hinside
    · rfl

theorem Search.found_foldl (search : Search) (log : List (Shot Motion Typed)) {word : Bytes}
    (h : word ∈ search.found) : word ∈ (log.foldl Search.next search).found := by
  induction log generalizing search with
  | nil => exact h
  | cons shot log ih =>
    refine ih _ ?_
    unfold Search.next
    dsimp only
    split
    · exact List.mem_append_left _ h
    · exact h

/-- The search finds every access. -/
theorem mem_accessStarts {wp : Watchpoint} {pid : Pid} {start finish : Typed}
    {seg : List (Shot Motion Typed)} (h : IsAccess wp pid start finish seg)
    (log later : List (Shot Motion Typed)) :
    start.word ∈ accessStarts (log ++ seg ++ later) := by
  rcases h.shape with ⟨first, mid, last, rfl, hfirst, rfl, hmid, htrapped, ⟨bytes, hlast⟩, -⟩
  let search : Search := (log ++ first :: mid).foldl Search.next ⟨.rest, blank, []⟩
  have hstage : search.stage = .trapped := by
    refine (Search.stage_foldl _ _).trans ?_
    exact (stageOf_resumed hfirst mid).trans htrapped
  have hstart : search.start = first.before.word := by
    show ((log ++ first :: mid).foldl Search.next _).start = _
    rw [List.foldl_append, List.foldl_cons, Search.start_inside _ hmid]
    unfold Search.next
    dsimp only
    rw [hfirst]
  have hfound : first.before.word ∈ (search.next last).found := by
    unfold Search.next
    dsimp only
    rw [hlast, hstage, ← hstart]
    exact List.mem_append_right _ (List.mem_singleton.mpr rfl)
  have hsplit : log ++ (first :: mid ++ [last]) ++ later =
      (log ++ first :: mid) ++ (last :: later) := by simp
  unfold accessStarts
  rw [hsplit, List.foldl_append, List.foldl_cons]
  exact Search.found_foldl _ later hfound

/-- What was filmed of the last hit. -/
theorem Recalled.last {log : List (Shot Motion ω)} {hits earlier : List WatchHit} {hit : WatchHit}
    (h : Recalled arch log hits) (hhits : hits = earlier ++ [hit]) :
    ∃ before seg later wp, log = before ++ seg ++ later ∧ RecalledAs arch wp seg hit := by
  cases h with
  | nil => simp at hhits
  | @hit log seg hits hit' entered right later hquiet =>
    rcases List.singleton_inj.mp (List.append_inj' hhits rfl).2 with rfl
    rcases right with ⟨wp, hright⟩
    exact ⟨log, seg, later, wp, rfl, hright⟩

/-- The process is run twice: each time it writes the word, and exits. -/
def retyping : Typed where
  stops := typing.stops ++ typing.stops
  word := blank

/-- The hit of the second run is given the value of the first run as its old value. -/
theorem second_run_recalls_first :
    ∃ w : World (Filmed Motion Typed), Reachable .x86_64 w ∧
      w.session.watchHits.map (fun hit => (hit.oldValue, hit.newValue)) =
        [(some blank, letter), (some letter, letter)] ∧
      accessStarts w.os.notes = [blank, blank] ∧
      ¬ Recalled .x86_64 w.os.notes w.session.watchHits := by
  have hrun : ∃ w₁ w₂ w₃ w₄ w₅ w₆ w₇ : World (Filmed Motion Typed),
      exec (launch .x86_64) ⟨ReplaySession.ofTrace ⟨"true", []⟩ [], ⟨retyping, []⟩⟩ =
        some (.ok (), w₁) ∧
      exec (perform .x86_64 (.watch 0x5000 8 .write)) w₁ = some (.ok none, w₂) ∧
      exec (drive .x86_64 none) w₂ = exec (Run.loop (driveRound .x86_64 none)) w₂ ∧
      exec (driveRound .x86_64 none) w₂ = some (.ok none, w₃) ∧
      exec (driveRound .x86_64 none) w₃ = some (.ok (some (.exited 0)), w₄) ∧
      exec (perform .x86_64 (.restoreTo 0)) w₄ = some (.ok none, w₅) ∧
      exec (drive .x86_64 none) w₅ = exec (Run.loop (driveRound .x86_64 none)) w₅ ∧
      exec (driveRound .x86_64 none) w₅ = some (.ok none, w₆) ∧
      exec (driveRound .x86_64 none) w₆ = some (.ok (some (.exited 0)), w₇) ∧
      w₇.session.watchHits.map (fun hit => (hit.oldValue, hit.newValue)) =
        [(some blank, letter), (some letter, letter)] ∧
      accessStarts w₇.os.notes = [blank, blank] :=
    ⟨_, _, _, _, _, _, _, rfl, rfl, rfl, rfl, rfl, rfl, rfl, rfl, rfl, rfl, rfl⟩
  rcases hrun with ⟨w₁, w₂, w₃, w₄, w₅, w₆, w₇, hlaunch, hwatch, hdrive, hfirst, hlast, hrestore,
    hdrive', hfirst', hlast', hvalues, hstarts⟩
  have hloop {u v x : World (Filmed Motion Typed)}
      (hdrive : exec (drive .x86_64 none) u = exec (Run.loop (driveRound .x86_64 none)) u)
      (hfirst : exec (driveRound .x86_64 none) u = some (.ok none, v))
      (hlast : exec (driveRound .x86_64 none) v = some (.ok (some (.exited 0)), x)) :
      exec (perform .x86_64 .runToEnd) u = some (.ok (some (.exited 0)), x) := by
    have hend : exec (drive .x86_64 none) u = some (.ok (.exited 0), x) := by
      rw [hdrive, loop_again hfirst]
      exact loop_of_leaves (.inl ⟨_, hlast, rfl⟩)
    exact bind_ok hend
  have hreachable : Reachable .x86_64 w₇ :=
    .call (.call (.call (.call (.launch hlaunch) _ hwatch) _ (hloop hdrive hfirst hlast))
      _ hrestore) _ (hloop hdrive' hfirst' hlast')
  refine ⟨w₇, hreachable, hvalues, hstarts, ?_⟩
  intro hrecalled
  rcases List.eq_nil_or_concat w₇.session.watchHits with hnil | ⟨earlier, hit, hhits⟩
  · rw [hnil] at hvalues
    cases hvalues
  have hold : hit.oldValue = some letter := by
    rw [hhits, List.concat_eq_append, List.map_append] at hvalues
    have hpair := (List.append_inj' (show _ ++ _ = [(some blank, letter)] ++ [(some letter, letter)]
      from hvalues) rfl).2
    exact (Prod.mk.inj (List.singleton_inj.mp hpair)).1
  rcases hrecalled.last (hhits.trans (List.concat_eq_append ..)) with
    ⟨before, seg, later, wp, hnotes, pid, start, finish, haccess, -, hheld⟩
  -- the word was blank when the access began
  have hblank : start.word = blank := by
    have hmem := mem_accessStarts haccess before later
    rw [← hnotes, hstarts] at hmem
    simpa using hmem
  have hletter := hheld letter hold
  rw [held_typed, hblank] at hletter
  by_cases haddr : wp.addr = 0x5000
  · rw [if_pos haddr] at hletter
    have hmem : (1 : UInt8) ∈ letter := List.mem_cons_self
    rw [← Option.some.inj hletter] at hmem
    rcases List.mem_append.mp hmem with hmem | hmem
    · exact absurd (List.eq_of_mem_replicate (List.mem_of_mem_take hmem)) (by decide)
    · exact absurd (List.eq_of_mem_replicate hmem) (by decide)
  · rw [if_neg haddr] at hletter
    cases hletter

end Mirrorscope.Replay
