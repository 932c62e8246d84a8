import Mathlib.Data.List.Forall2
import Mirrorscope.Decoder.Queries

/-! # What the goroutine walk reads

The walk over `runtime.allgs` reads a slice header, a pointer for each slot and a dozen fields
behind each pointer. What it reads next depends on what it has read: a null slot has no fields,
and only a goroutine that runs on an M has a thread. The reads it needs are listed here from the
memory alone, and the walk is compared with that list.
-/

namespace Mirrorscope.Decoder

/-! ## Memory -/

/-- What `read_memory` promises: as many bytes as it is asked for, or that the read failed. -/
structure ProcessView.ReadsMemory (view : ProcessView) : Prop where
  bytes : ∀ {addr len bytes}, view.readMemory addr len = .ok bytes → bytes.length = len
  failed : ∀ {addr len e}, view.readMemory addr len = .error e →
    ∃ reason, e = .memoryReadFailed addr len reason

/-- The little-endian number of `width` bytes at `addr`, where they can be read. -/
def ProcessView.valueAt (view : ProcessView) (addr : UInt64) (width : Nat) : Option Nat :=
  match view.readMemory addr width with
  | .ok bytes => some (LittleEndian.decode bytes)
  | .error _ => none

namespace Go

/-- A read that has failed. -/
def ReadFailed (e : DecoderError) : Prop := ∃ addr len reason, e = .memoryReadFailed addr len reason

/-- An address and a width that can be read. -/
def Readable (view : ProcessView) (read : UInt64 × Nat) : Prop :=
  view.valueAt read.1 read.2 ≠ none

/-- What a computation of the walk reads. -/
abbrev NeedsReads {α : Type} (view : ProcessView) : List (UInt64 × Nat) → (α → Prop) →
    Except DecoderError α → Prop :=
  Effect.Needs (Readable view) ReadFailed

section Reads

variable {view : ProcessView} (hview : view.ReadsMemory) (addr : UInt64)
include hview

/-- A read of `width` bytes that are then turned into a value. -/
theorem needs_read {α : Type} {width : Nat} {f : List UInt8 → Except DecoderError α}
    {P : α → Prop}
    (hf : ∀ bytes, bytes.length = width → view.valueAt addr width = some (LittleEndian.decode bytes)
      → ∃ a, f bytes = .ok a ∧ P a) :
    NeedsReads view [(addr, width)] P (view.readMemory addr width >>= f) := by
  cases hread : view.readMemory addr width with
  | error e =>
    have hvalue : view.valueAt addr width = none := by rw [ProcessView.valueAt, hread]
    rcases hview.failed hread with ⟨reason, he⟩
    exact ⟨⟨addr, width, reason, he⟩, (addr, width), List.mem_singleton.mpr rfl, fun h => h hvalue⟩
  | ok bytes =>
    have hvalue : view.valueAt addr width = some (LittleEndian.decode bytes) := by
      rw [ProcessView.valueAt, hread]
    rcases hf bytes (hview.bytes hread) hvalue with ⟨a, ha, hP⟩
    rw [Effect.except_ok_bind, ha]
    refine ⟨hP, ?_⟩
    intro read hmem
    rw [List.mem_singleton.mp hmem, Readable, hvalue]
    exact Option.some_ne_none _

theorem readU64_needs :
    NeedsReads view [(addr, 8)] (fun v => view.valueAt addr 8 = some v.toNat)
      (readU64 view addr) := by
  refine needs_read hview addr ?_
  intro bytes hlength hvalue
  have hlt := LittleEndian.decode_lt bytes
  rw [hlength] at hlt
  rw [if_pos hlength]
  refine ⟨_, rfl, ?_⟩
  rw [hvalue, UInt64.toNat_ofNat_of_lt' hlt]

theorem readU32_needs :
    NeedsReads view [(addr, 4)] (fun v => view.valueAt addr 4 = some v.toNat)
      (readU32 view addr) := by
  refine needs_read hview addr ?_
  intro bytes hlength hvalue
  have hlt := LittleEndian.decode_lt bytes
  rw [hlength] at hlt
  rw [if_pos hlength]
  refine ⟨_, rfl, ?_⟩
  rw [hvalue, UInt32.toNat_ofNat_of_lt' hlt]

theorem readU8_needs :
    NeedsReads view [(addr, 1)] (fun v => view.valueAt addr 1 = some v.toNat)
      (readU8 view addr) := by
  refine needs_read hview addr ?_
  intro bytes hlength hvalue
  rcases List.length_eq_one_iff.mp hlength with ⟨byte, rfl⟩
  refine ⟨byte, rfl, ?_⟩
  rw [hvalue]
  simp [LittleEndian.decode]

end Reads

/-! ## The numbers of the statuses -/

/-- The number in a status word: bit 12 is set while the collector scans the stack, and says
nothing of the goroutine. -/
def unscanned (rawStatus : Nat) : Nat := (UInt32.ofNat rawStatus &&& ~~~0x1000).toNat

/-- The number the runtime has for a status. -/
def GoStatus.number : GoStatus → Nat
  | .idle => 0
  | .runnable => 1
  | .running => 2
  | .syscall => 3
  | .waiting => 4
  | .dead => 6
  | .copystack => 8
  | .preempted => 9
  | .other raw => raw.toNat

/-- A goroutine with this number is on an M: it runs, or it is in a syscall. -/
def OnM (number : Nat) : Prop := number = 2 ∨ number = 3

/-- A slot with this number holds no goroutine: it is dead, or one of two numbers that the
runtime reserves. -/
def NoGoroutine (number : Nat) : Prop := number = 5 ∨ number = 6 ∨ number = 7

instance (number : Nat) : Decidable (OnM number) := inferInstanceAs (Decidable (_ ∨ _))

instance (number : Nat) : Decidable (NoGoroutine number) :=
  inferInstanceAs (Decidable (_ ∨ _ ∨ _))

/-- What the walk asks of a status it asks of the number in the word. -/
structure GoStatus.Numbered (status : GoStatus) (n : Nat) : Prop where
  number : status.number = n
  /-- A number with a name is not left without it. -/
  named : ∀ raw, status = .other raw → raw.toNat ∉ [0, 1, 2, 3, 4, 6, 8, 9]
  onM : status = .running ∨ status = .syscall ↔ OnM n
  isDead : status.isDead = true ↔ NoGoroutine n

theorem fromRaw_numbered (rawStatus : UInt32) :
    (GoStatus.fromRaw rawStatus).Numbered (unscanned rawStatus.toNat) := by
  have hmasked : unscanned rawStatus.toNat = (rawStatus &&& ~~~gScan).toNat := by
    rw [unscanned, UInt32.ofNat_toNat]
    rfl
  rw [hmasked]
  unfold GoStatus.fromRaw
  generalize rawStatus &&& ~~~gScan = masked
  dsimp only
  split
  case h_9 =>
    -- no name: only 5 and 7 are left of the three dead numbers
    rename_i hidle hrunnable hrunning hsyscall hwaiting hdead hcopystack hpreempted
    refine { number := rfl, named := ?_, onM := ?_, isDead := ?_ }
    · intro raw heq
      rcases GoStatus.other.inj heq with rfl
      simp only [List.mem_cons, List.not_mem_nil, or_false, not_or]
      exact ⟨hidle, hrunnable, hrunning, hsyscall, hwaiting, hdead, hcopystack, hpreempted⟩
    · constructor
      · rintro (h | h)
        · cases h
        · cases h
      · rintro (h | h)
        · exact absurd h hrunning
        · exact absurd h hsyscall
    · have hfive : masked = 5 ↔ masked.toNat = 5 := UInt32.toNat_inj.symm
      have hseven : masked = 7 ↔ masked.toNat = 7 := UInt32.toNat_inj.symm
      simp only [GoStatus.isDead, Bool.or_eq_true, beq_iff_eq, hfive, hseven, NoGoroutine]
      constructor
      · rintro (h | h)
        · exact .inl h
        · exact .inr (.inr h)
      · rintro (h | h | h)
        · exact .inl h
        · exact absurd h hdead
        · exact .inr h
  all_goals
    rename_i hmasked
    rw [hmasked]
    exact { number := rfl, named := by simp, onM := by simp [OnM],
            isDead := by simp [GoStatus.isDead, NoGoroutine] }

/-! ## The reads of the walk -/

variable (view : ProcessView) (layout : GoLayout)

/-- The creator's number, where the layout has it. -/
def parentReads (gp : UInt64) : List (UInt64 × Nat) :=
  layout.g.parentGoid.toList.map fun off => (gp + off, 8)

/-- The number of the thread of the M, for a goroutine that is on one. -/
def threadReads (gp : UInt64) : List (UInt64 × Nat) :=
  match view.valueAt (gp + layout.g.atomicstatus) 4, view.valueAt (gp + layout.g.m) 8,
    layout.mProcid with
  | some rawStatus, some m, some procid =>
    if OnM (unscanned rawStatus) ∧ m ≠ 0 then
      [(UInt64.ofNat m + procid, 8)]
    else []
  | _, _, _ => []

/-- The reads behind the pointer to a `g`. -/
def gReads (gp : UInt64) : List (UInt64 × Nat) :=
  let g := layout.g
  (gp + g.atomicstatus, 4) :: (gp + g.waitreason, 1) :: (gp + g.m, 8) :: (parentReads layout gp ++
    (threadReads view layout gp ++
      [g.goid, g.gopc, g.startpc, g.schedPc, g.schedSp, g.stackLo, g.stackHi].map
        fun off => (gp + off, 8)))

/-- Where the pointer of a slot is. -/
def slotAddr (data : UInt64) (index : Nat) : UInt64 := data + UInt64.ofNat index * 8

/-- The reads of one slot: nothing is behind a null pointer. -/
def slotReads (data : UInt64) (index : Nat) : List (UInt64 × Nat) :=
  (slotAddr data index, 8) ::
    match view.valueAt (slotAddr data index) 8 with
    | some gp => if gp = 0 then [] else gReads view layout (UInt64.ofNat gp)
    | none => []

/-- The address of `runtime.allgs`. -/
def allgs : UInt64 := layout.allgsAddr + layout.loadBias

/-- The data pointer and the length in the header of `runtime.allgs`. -/
def headerAt : Option (UInt64 × UInt64) :=
  match view.valueAt (allgs layout) 8, view.valueAt (allgs layout + 8) 8 with
  | some data, some len => some (UInt64.ofNat data, UInt64.ofNat len)
  | _, _ => none

/-- The reads of the header, as `read_allgs_header` makes them. -/
def readHeader : Except DecoderError (UInt64 × UInt64) := do
  let data ← readU64 view (allgs layout)
  let len ← readU64 view (allgs layout + 8)
  pure (data, len)

/-- All reads of the walk: the header, then slot after slot. -/
def walkReads : List (UInt64 × Nat) :=
  [(allgs layout, 8), (allgs layout + 8, 8)] ++
    match headerAt view layout with
    | some (data, len) =>
      if len > maxGoroutines then []
      else (List.range len.toNat).flatMap (slotReads view layout data)
    | none => []

/-! ## What the walk finds -/

/-- The entry says what is at `gp`. -/
structure Describes (gp : UInt64) (info : GoroutineInfo) : Prop where
  goid : view.valueAt (gp + layout.g.goid) 8 = some info.goid.toUInt64.toNat
  rawStatus : view.valueAt (gp + layout.g.atomicstatus) 4 = some info.rawStatus.toNat
  status : info.status.Numbered (unscanned info.rawStatus.toNat)
  state : info.state = info.status.toTaskState info.waitReason
  waitReason : view.valueAt (gp + layout.g.waitreason) 1 = some info.waitReason.toNat
  waitReasonStr : info.waitReasonStr = waitReasonStr info.waitReason
  gopc : view.valueAt (gp + layout.g.gopc) 8 = some info.gopc.toNat
  startpc : view.valueAt (gp + layout.g.startpc) 8 = some info.startpc.toNat
  schedPc : view.valueAt (gp + layout.g.schedPc) 8 = some info.schedPc.toNat
  schedSp : view.valueAt (gp + layout.g.schedSp) 8 = some info.schedSp.toNat
  stackLo : view.valueAt (gp + layout.g.stackLo) 8 = some info.stackLo.toNat
  stackHi : view.valueAt (gp + layout.g.stackHi) 8 = some info.stackHi.toNat
  mPtr : view.valueAt (gp + layout.g.m) 8 = some info.mPtr.toNat
  hasParent : info.parentGoid.isSome ↔ layout.g.parentGoid.isSome
  parentGoid : ∀ p ∈ info.parentGoid, ∀ off ∈ layout.g.parentGoid,
    view.valueAt (gp + off) 8 = some p.toUInt64.toNat
  hasThread : info.thread.isSome ↔
    OnM (unscanned info.rawStatus.toNat) ∧ info.mPtr ≠ 0 ∧ layout.mProcid.isSome
  thread : ∀ t ∈ info.thread, ∀ off ∈ layout.mProcid,
    view.valueAt (info.mPtr + off) 8 = some t.raw.toNat

/-- The `g` at this address is no dead one. -/
def liveAt (gp : UInt64) : Bool :=
  (view.valueAt (gp + layout.g.atomicstatus) 4).any fun rawStatus =>
    !decide (NoGoroutine (unscanned rawStatus))

/-- The `g` of a slot, unless the slot is null or its goroutine is dead. -/
def liveSlot (data : UInt64) (index : Nat) : Option UInt64 :=
  ((view.valueAt (slotAddr data index) 8).map UInt64.ofNat).filter fun gp =>
    gp ≠ 0 && liveAt view layout gp

section Exact

variable {view layout} (hview : view.ReadsMemory)
include hview

theorem readParentGoid_needs (gp : UInt64) :
    NeedsReads view (parentReads layout gp)
      (fun parent => (parent.isSome ↔ layout.g.parentGoid.isSome) ∧
        ∀ p ∈ parent, ∀ off ∈ layout.g.parentGoid,
          view.valueAt (gp + off) 8 = some p.toUInt64.toNat)
      (readParentGoid view layout gp) := by
  unfold readParentGoid parentReads
  cases layout.g.parentGoid with
  | none =>
    refine Effect.Needs.pure ⟨Iff.rfl, ?_⟩
    intro p hp
    cases hp
  | some off =>
    refine Effect.Needs.cons_bind (readU64_needs hview (gp + off)) ?_
    intro v hv
    refine Effect.Needs.pure ⟨by simp, ?_⟩
    intro p hp off' hoff
    rcases Option.mem_some_iff.mp hp with rfl
    rcases Option.mem_some_iff.mp hoff with rfl
    exact hv

theorem resolveThread_needs {gp : UInt64} {rawStatus : UInt32} {mPtr : UInt64}
    (hstatus : view.valueAt (gp + layout.g.atomicstatus) 4 = some rawStatus.toNat)
    (hm : view.valueAt (gp + layout.g.m) 8 = some mPtr.toNat) :
    NeedsReads view (threadReads view layout gp)
      (fun thread =>
        (thread.isSome ↔ OnM (unscanned rawStatus.toNat) ∧ mPtr ≠ 0 ∧ layout.mProcid.isSome) ∧
        ∀ t ∈ thread, ∀ off ∈ layout.mProcid, view.valueAt (mPtr + off) 8 = some t.raw.toNat)
      (resolveThread view layout (GoStatus.fromRaw rawStatus) mPtr) := by
  have hnull : mPtr.toNat ≠ 0 ↔ mPtr ≠ 0 := by
    rw [ne_eq, ne_eq, ← UInt64.toNat_inj]
    exact Iff.rfl
  unfold resolveThread threadReads
  rw [hstatus, hm]
  cases layout.mProcid with
  | none =>
    refine Effect.Needs.pure ⟨by simp, ?_⟩
    intro t ht
    cases ht
  | some procid =>
    simp only [UInt64.ofNat_toNat, hnull, (fromRaw_numbered rawStatus).onM]
    by_cases hon : OnM (unscanned rawStatus.toNat) ∧ mPtr ≠ 0
    · rw [if_pos hon, if_pos hon]
      refine Effect.Needs.cons_bind (readU64_needs hview (mPtr + procid)) ?_
      intro v hv
      refine Effect.Needs.pure ⟨?_, ?_⟩
      · simp [hon.1, hon.2]
      · intro t ht off hoff
        rcases Option.mem_some_iff.mp ht with rfl
        rcases Option.mem_some_iff.mp hoff with rfl
        exact hv
    · rw [if_neg hon, if_neg hon]
      refine Effect.Needs.pure ⟨?_, ?_⟩
      · constructor
        · intro h
          cases h
        · rintro ⟨hstatus, hm, -⟩
          exact absurd ⟨hstatus, hm⟩ hon
      · intro t ht
        cases ht

/-- One `g` struct. -/
theorem readGoroutine_needs (gp : UInt64) :
    NeedsReads view (gReads view layout gp) (Describes view layout gp)
      (readGoroutine view layout gp) := by
  unfold readGoroutine
  refine Effect.Needs.cons_bind (readU32_needs hview _) fun rawStatus hstatus => ?_
  refine Effect.Needs.cons_bind (readU8_needs hview _) fun waitReason hwait => ?_
  refine Effect.Needs.cons_bind (readU64_needs hview _) fun mPtr hm => ?_
  refine Effect.Needs.bind (readParentGoid_needs hview gp) fun parentGoid hparent => ?_
  refine Effect.Needs.bind (resolveThread_needs hview hstatus hm) fun thread hthread => ?_
  refine Effect.Needs.cons_bind (readU64_needs hview _) fun goid hgoid => ?_
  refine Effect.Needs.cons_bind (readU64_needs hview _) fun gopc hgopc => ?_
  refine Effect.Needs.cons_bind (readU64_needs hview _) fun startpc hstartpc => ?_
  refine Effect.Needs.cons_bind (readU64_needs hview _) fun schedPc hschedPc => ?_
  refine Effect.Needs.cons_bind (readU64_needs hview _) fun schedSp hschedSp => ?_
  refine Effect.Needs.cons_bind (readU64_needs hview _) fun stackLo hstackLo => ?_
  refine Effect.Needs.cons_bind (readU64_needs hview _) fun stackHi hstackHi => ?_
  exact Effect.Needs.pure
    { goid := hgoid, rawStatus := hstatus, status := fromRaw_numbered rawStatus, state := rfl,
      waitReason := hwait, waitReasonStr := rfl, gopc := hgopc, startpc := hstartpc, schedPc := hschedPc,
      schedSp := hschedSp, stackLo := hstackLo, stackHi := hstackHi, mPtr := hm,
      hasParent := hparent.1, parentGoid := hparent.2, hasThread := hthread.1,
      thread := hthread.2 }

/-- One slot: its entry comes after those of the slots before it. -/
theorem visitSlot_needs (hptr : layout.ptrSize = 8) (data : UInt64) (before : List Nat)
    (index : Nat) (out : List GoroutineInfo)
    (hout : List.Forall₂ (Describes view layout)
      (before.filterMap (liveSlot view layout data)) out) :
    NeedsReads view (slotReads view layout data index)
      (List.Forall₂ (Describes view layout)
        ((before ++ [index]).filterMap (liveSlot view layout data)))
      (visitSlot view layout data out index) := by
  have haddr : data + UInt64.ofNat index * layout.ptrSize.toUInt64 = slotAddr data index := by
    rw [hptr]
    rfl
  rw [List.filterMap_append]
  unfold visitSlot slotReads
  rw [haddr]
  refine Effect.Needs.cons_bind (readU64_needs hview _) fun gp hgp => ?_
  have hslot : [index].filterMap (liveSlot view layout data) =
      if gp ≠ 0 ∧ liveAt view layout gp then [gp] else [] := by
    simp only [List.filterMap_cons, List.filterMap_nil, liveSlot, hgp, Option.map_some,
      UInt64.ofNat_toNat, Option.filter_some]
    by_cases hlive : gp ≠ 0 ∧ liveAt view layout gp
    · simp [hlive]
    · rw [if_neg hlive, if_neg (by simpa using hlive)]
  rw [hslot, hgp]
  simp only [UInt64.ofNat_toNat]
  by_cases hnull : gp = 0
  · -- a null slot
    subst hnull
    simp only [ne_eq, not_true_eq_false, false_and, if_false, List.append_nil, UInt64.toNat_zero,
      if_true]
    exact Effect.Needs.pure hout
  · have hnull' : gp.toNat ≠ 0 := fun h => hnull (UInt64.toNat_inj.mp h)
    rw [if_neg hnull, if_neg hnull', ← List.append_nil (gReads view layout gp)]
    refine Effect.Needs.bind (readGoroutine_needs hview gp) fun info hinfo => ?_
    have hlive : liveAt view layout gp = !info.status.isDead := by
      have hdead : decide (NoGoroutine (unscanned info.rawStatus.toNat)) = info.status.isDead := by
        rw [Bool.eq_iff_iff, decide_eq_true_eq]
        exact hinfo.status.isDead.symm
      rw [liveAt, hinfo.rawStatus, Option.any_some, hdead]
    refine Effect.Needs.pure ?_
    rw [hlive]
    by_cases hdead : info.status.isDead
    · rw [if_pos hdead, if_neg (by simp [hdead]), List.append_nil]
      exact hout
    · rw [if_neg hdead, if_pos ⟨hnull, by simp [hdead]⟩]
      exact List.rel_append hout (.cons hinfo .nil)

/-- The header of the slice. -/
theorem readHeader_needs :
    NeedsReads view [(allgs layout, 8), (allgs layout + 8, 8)]
      (fun header => headerAt view layout = some header) (readHeader view layout) := by
  unfold readHeader
  refine Effect.Needs.cons_bind (readU64_needs hview _) fun data hdata => ?_
  refine Effect.Needs.cons_bind (readU64_needs hview _) fun len hlen => ?_
  refine Effect.Needs.pure ?_
  rw [headerAt, hdata, hlen]
  simp only [UInt64.ofNat_toNat]

/-- All slots. -/
theorem visitSlots_needs (hptr : layout.ptrSize = 8) (data : UInt64) (slots : List Nat) :
    NeedsReads view (slots.flatMap (slotReads view layout data))
      (List.Forall₂ (Describes view layout) (slots.filterMap (liveSlot view layout data)))
      (slots.foldlM (visitSlot view layout data) []) := by
  have hstart : List.Forall₂ (Describes view layout)
      (([] : List Nat).filterMap (liveSlot view layout data)) [] := .nil
  refine Effect.Needs.foldlM
    (I := fun before => List.Forall₂ (Describes view layout)
      (before.filterMap (liveSlot view layout data))) ?_ hstart
  intro before index out hout
  exact visitSlot_needs hview hptr data before index out hout

end Exact

/-- The walk, once its header is read. -/
theorem walkGoroutines_eq {view : ProcessView} {layout : GoLayout} (hptr : layout.ptrSize = 8) :
    walkGoroutines view layout = (do
      let (data, len) ← readHeader view layout
      if len > maxGoroutines then
        throw (.notApplicable
          ("runtime.allgs length " ++ toString len ++ " is implausible; layout likely misresolved"))
      else (List.range len.toNat).foldlM (visitSlot view layout data) []) := by
  have hlen : layout.sliceLenOffset = 8 := by
    rw [GoLayout.sliceLenOffset, hptr]
    rfl
  unfold walkGoroutines readAllgsHeader readHeader allgs
  rw [hlen]
  simp only [bind_assoc, pure_bind]
  refine bind_congr fun data => bind_congr fun len => ?_
  by_cases hlong : len > maxGoroutines
  · rw [if_pos hlong, if_pos hlong]
    rfl
  · rw [if_neg hlong, if_neg hlong]
    rfl

section Walk

variable {view : ProcessView} {layout : GoLayout}

/-- The header is readable, and longer than the walk believes. -/
def TooLong (view : ProcessView) (layout : GoLayout) : Prop :=
  ∃ data len, headerAt view layout = some (data, len) ∧ len > maxGoroutines

theorem readHeader_eq (hview : view.ReadsMemory) {header : UInt64 × UInt64}
    (hheader : headerAt view layout = some header) : readHeader view layout = .ok header := by
  have hneeds := @readHeader_needs view layout hview
  cases hread : readHeader view layout with
  | ok found =>
    rw [hread] at hneeds
    rw [Option.some.inj (hneeds.1.symm.trans hheader)]
  | error e =>
    rw [hread] at hneeds
    rcases hneeds with ⟨-, read, hmem, hfails⟩
    have hfails : view.valueAt read.1 read.2 = none := not_not.mp hfails
    unfold headerAt at hheader
    rcases List.mem_pair.mp hmem with rfl | rfl
    · rw [hfails] at hheader
      cases hheader
    · rw [hfails] at hheader
      cases hdata : view.valueAt (allgs layout) 8 with
      | none =>
        rw [hdata] at hheader
        cases hheader
      | some data =>
        rw [hdata] at hheader
        cases hheader

theorem walk_declines (hview : view.ReadsMemory) (hptr : layout.ptrSize = 8)
    (h : TooLong view layout) :
    ∃ reason, walkGoroutines view layout = .error (.notApplicable reason) := by
  rcases h with ⟨data, len, hheader, hlong⟩
  rw [walkGoroutines_eq hptr, readHeader_eq hview hheader, Effect.except_ok_bind]
  dsimp only
  rw [if_pos hlong]
  exact ⟨_, rfl⟩

/-- What the walk needs, and what it makes of it. -/
theorem walk_needs (hview : view.ReadsMemory) (hptr : layout.ptrSize = 8)
    (h : ¬ TooLong view layout) :
    NeedsReads view (walkReads view layout)
      (fun out => ∃ data len, headerAt view layout = some (data, len) ∧
        List.Forall₂ (Describes view layout)
          ((List.range len.toNat).filterMap (liveSlot view layout data)) out)
      (walkGoroutines view layout) := by
  rw [walkGoroutines_eq hptr]
  unfold walkReads
  refine Effect.Needs.bind (readHeader_needs hview) ?_
  rintro ⟨data, len⟩ hheader
  have hshort : ¬ len > maxGoroutines := fun hlong => h ⟨data, len, hheader, hlong⟩
  rw [hheader]
  dsimp only
  rw [if_neg hshort, if_neg hshort]
  exact (visitSlots_needs hview hptr data (List.range len.toNat)).imp
    fun out hout => ⟨data, len, rfl, hout⟩

/-- **The goroutine walk.** It declines exactly for a header that is readable and too long.
Otherwise it fails exactly where a read it needs fails, and where none does it has one entry for
each slot with a live goroutine, in the order of the slice, with what is at the goroutine's own
offsets. -/
theorem walk_exact (hview : view.ReadsMemory)
    (hptr : layout.ptrSize = 8) :
    ((∃ reason, walkGoroutines view layout = .error (.notApplicable reason)) ↔
      ∃ data len, headerAt view layout = some (data, len) ∧ len > maxGoroutines) ∧
    ((¬ ∃ data len, headerAt view layout = some (data, len) ∧ len > maxGoroutines) →
      ((∃ e, walkGoroutines view layout = .error e) ↔
        ∃ read ∈ walkReads view layout, view.valueAt read.1 read.2 = none) ∧
      ∀ out, walkGoroutines view layout = .ok out →
        ∃ data len, headerAt view layout = some (data, len) ∧
          List.Forall₂ (Describes view layout)
            ((List.range len.toNat).filterMap (liveSlot view layout data)) out) := by
  constructor
  · constructor
    · rintro ⟨reason, hwalk⟩
      by_contra hshort
      have hneeds := walk_needs hview hptr hshort
      rw [hwalk] at hneeds
      rcases hneeds with ⟨⟨addr, len, why, he⟩, -⟩
      cases he
    · exact walk_declines hview hptr
  · intro hshort
    have hneeds := walk_needs hview hptr hshort
    constructor
    · rw [hneeds.error_iff]
      simp only [Readable, not_not]
    · intro out hwalk
      rw [hwalk] at hneeds
      exact hneeds.1

end Walk

theorem memoryView_reads (m : ByteMemory) : (memoryView m).ReadsMemory where
  bytes h := by
    rcases Except.ok.inj h with rfl
    exact m.length_range _ _
  failed h := by cases h

/-- Five slots: the first goroutine runs on thread 4242 while its stack is scanned, the second
slot is null, the third is dead, the fourth waits for a channel and was created by the first, and
the last is dead and scanned. -/
def crew : ByteMemory :=
  words [(0x10000, 0x20000), (0x10008, 5), (0x20000, 0x100000), (0x20010, 0x100400),
    (0x20018, 0x100800), (0x20020, 0x100c00), (0x100000 + 160, 1), (0x100000 + 152, 0x1002),
    (0x100000 + 48, 0x200000), (0x200000 + 72, 4242), (0x100400 + 160, 2), (0x100400 + 152, 6),
    (0x100800 + 160, 3), (0x100800 + 152, 4), (0x100800 + 184, 14), (0x100800 + 280, 1),
    (0x100c00 + 160, 4), (0x100c00 + 152, 0x1006)]

theorem walk_exact_crew :
    ∃ out, walkGoroutines (memoryView crew) go124.layout = .ok out ∧
      out.map (fun g => (g.goid, g.rawStatus, g.status, g.thread)) =
        [(1, 0x1002, .running, some ⟨4242⟩), (3, 4, .waiting, none)] ∧
      List.Forall₂ (Describes (memoryView crew) go124.layout) [0x100000, 0x100800] out := by
  have hwalk : ∃ out, walkGoroutines (memoryView crew) go124.layout = .ok out ∧
      out.map (fun g => (g.goid, g.rawStatus, g.status, g.thread)) =
        [(1, 0x1002, .running, some ⟨4242⟩), (3, 4, .waiting, none)] :=
    ⟨_, rfl, rfl⟩
  have hheader : headerAt (memoryView crew) go124.layout = some (0x20000, 5) := rfl
  have hshort : ¬ ∃ data len, headerAt (memoryView crew) go124.layout =
      some (data, len) ∧ len > maxGoroutines := by
    rintro ⟨data, len, hsome, hlong⟩
    rw [hheader] at hsome
    rcases Prod.mk.inj (Option.some.inj hsome) with ⟨rfl, rfl⟩
    exact absurd hlong (by decide)
  rcases hwalk with ⟨out, hwalk, hshown⟩
  rcases ((walk_exact (memoryView_reads _) rfl).2 hshort).2 out hwalk with
    ⟨data, len, hsome, hout⟩
  rw [hheader] at hsome
  rcases Prod.mk.inj (Option.some.inj hsome) with ⟨rfl, rfl⟩
  exact ⟨out, hwalk, hshown, hout⟩

end Go

end Mirrorscope.Decoder
