import Mirrorscope.Decoder.Go
import Mirrorscope.Lib.Checked

/-! # The goroutine walk with checked arithmetic

`walkGoroutines` as a debug build runs it: every sum and product of addresses that is
not a 64-bit number stops the program. `walkGoroutines_runs` says from the layout and
the memory when that happens; where it does not, the walk is the one with wrapping
sums.
-/

namespace Mirrorscope.Decoder.Go.Debug

open Checked

variable (view : ProcessView) (layout : GoLayout)

/-! ## The walk -/

/-- Read the word that lies at an offset from an address. -/
def readField (base off : UInt64) : Prog DecoderError UInt64 := do
  let addr ← add base off
  lift (readU64 view addr)

def readAllgsHeader : Prog DecoderError (UInt64 × UInt64) := do
  let allgs ← add layout.allgsAddr layout.loadBias
  let data ← lift (readU64 view allgs)
  let len ← readField view allgs layout.sliceLenOffset
  if len > maxGoroutines then
    throw (.error (.notApplicable
      ("runtime.allgs length " ++ toString len ++ " is implausible; layout likely misresolved")))
  else pure (data, len)

def resolveThread (status : GoStatus) (mPtr : UInt64) : Prog DecoderError (Option ThreadId) :=
  match layout.mProcid with
  | some procid =>
    if (status = .running ∨ status = .syscall) ∧ mPtr ≠ 0 then do
      pure (some ⟨← readField view mPtr procid⟩)
    else pure none
  | none => pure none

def readParentGoid (gp : UInt64) : Prog DecoderError (Option Int64) :=
  match layout.g.parentGoid with
  | some off => do pure (some (← readField view gp off).toInt64)
  | none => pure none

def readGoroutine (gp : UInt64) : Prog DecoderError GoroutineInfo := do
  let g := layout.g
  let statusAddr ← add gp g.atomicstatus
  let rawStatus ← lift (readU32 view statusAddr)
  let status := GoStatus.fromRaw rawStatus
  let waitAddr ← add gp g.waitreason
  let waitReason ← lift (readU8 view waitAddr)
  let mPtr ← readField view gp g.m
  let parentGoid ← readParentGoid view layout gp
  let thread ← resolveThread view layout status mPtr
  pure {
    goid := (← readField view gp g.goid).toInt64
    rawStatus
    status
    state := status.toTaskState waitReason
    waitReason
    waitReasonStr := waitReasonStr waitReason
    gopc := ← readField view gp g.gopc
    startpc := ← readField view gp g.startpc
    schedPc := ← readField view gp g.schedPc
    schedSp := ← readField view gp g.schedSp
    stackLo := ← readField view gp g.stackLo
    stackHi := ← readField view gp g.stackHi
    mPtr
    parentGoid
    thread }

def visitSlot (data : UInt64) (out : List GoroutineInfo) (index : Nat) :
    Prog DecoderError (List GoroutineInfo) := do
  let offset ← mul (UInt64.ofNat index) layout.ptrSize.toUInt64
  let gp ← readField view data offset
  if gp = 0 then pure out
  else do
    let info ← readGoroutine view layout gp
    pure (if info.status.isDead then out else out ++ [info])

def walkGoroutines : Prog DecoderError (List GoroutineInfo) := do
  let (data, len) ← readAllgsHeader view layout
  (List.range len.toNat).foldlM (visitSlot view layout data) []

/-! ## When its sums are 64-bit numbers -/

/-- The words at the offsets have addresses, each as long as those before it can be
read. -/
def FieldsFit (base : UInt64) : List UInt64 → Prop
  | [] => True
  | off :: offs => Fits base off ∧ ∀ v, readU64 view (base + off) = .ok v → FieldsFit base offs

/-- The creator's field has an address, on a runtime that records it. -/
def ParentFits (gp : UInt64) : Prop := ∀ off, layout.g.parentGoid = some off → Fits gp off

/-- The thread's field of an M has an address, where it is needed. -/
def ThreadFits (status : GoStatus) (mPtr : UInt64) : Prop :=
  ∀ procid, layout.mProcid = some procid → (status = .running ∨ status = .syscall) → mPtr ≠ 0 →
    Fits mPtr procid

/-- The fields of the goroutine at `gp` have addresses, each as long as those before it
can be read. -/
def GoroutineFits (gp : UInt64) : Prop :=
  let g := layout.g
  Fits gp g.atomicstatus ∧ ∀ raw, readU32 view (gp + g.atomicstatus) = .ok raw →
    Fits gp g.waitreason ∧ ∀ reason, readU8 view (gp + g.waitreason) = .ok reason →
      Fits gp g.m ∧ ∀ mPtr, readU64 view (gp + g.m) = .ok mPtr →
        ParentFits layout gp ∧ ∀ parent, Go.readParentGoid view layout gp = .ok parent →
          ThreadFits layout (GoStatus.fromRaw raw) mPtr ∧
            ∀ thread, Go.resolveThread view layout (GoStatus.fromRaw raw) mPtr = .ok thread →
              FieldsFit view gp
                [g.goid, g.gopc, g.startpc, g.schedPc, g.schedSp, g.stackLo, g.stackHi]

/-- The address of a slot of the slice. -/
def slotAddr (data : UInt64) (index : Nat) : UInt64 :=
  data + UInt64.ofNat index * layout.ptrSize.toUInt64

/-- A slot has an address, and the goroutine it points to, if any, fits. -/
def SlotFits (data : UInt64) (index : Nat) : Prop :=
  Fits data (UInt64.ofNat index * layout.ptrSize.toUInt64) ∧
    ∀ gp, readU64 view (slotAddr layout data index) = .ok gp → gp ≠ 0 →
      GoroutineFits view layout gp

/-- A slot and the goroutine it points to, if any, can be read. -/
def SlotReadable (data : UInt64) (index : Nat) : Prop :=
  ∃ gp, readU64 view (slotAddr layout data index) = .ok gp ∧
    (gp = 0 ∨ ∃ info, Go.readGoroutine view layout gp = .ok info)

/-- Every address that the walk comes to is a 64-bit number: the two of the slice's
header, and those of each slot and goroutine up to the first that cannot be read. -/
def WalkFits : Prop :=
  let allgs := layout.allgsAddr + layout.loadBias
  Fits layout.allgsAddr layout.loadBias ∧ ∀ data, readU64 view allgs = .ok data →
    Fits allgs layout.sliceLenOffset ∧
      ∀ len, readU64 view (allgs + layout.sliceLenOffset) = .ok len → len ≤ maxGoroutines →
        ∀ i < len.toNat, (∀ j < i, SlotReadable view layout data j) → SlotFits view layout data i

/-! ## The walk runs where they are -/

theorem readField_runs {α : Type} {base off : UInt64} {f : UInt64 → Prog DecoderError α}
    {g : UInt64 → Except DecoderError α} {D : UInt64 → Prop} (hf : ∀ v, Runs (f v) (g v) (D v)) :
    Runs (readField view base off >>= f) (readU64 view (base + off) >>= g)
      (Fits base off ∧ ∀ v, readU64 view (base + off) = .ok v → D v) := by
  rw [readField, bind_assoc]
  exact Runs.add_bind (Runs.lift_bind hf)

theorem readParentGoid_runs (gp : UInt64) :
    Runs (readParentGoid view layout gp) (Go.readParentGoid view layout gp)
      (ParentFits layout gp) := by
  unfold readParentGoid Go.readParentGoid ParentFits
  cases layout.g.parentGoid with
  | none => exact Runs.pure.congr (by simp)
  | some off => exact (readField_runs view fun v => Runs.pure).congr (by simp)

theorem resolveThread_runs (status : GoStatus) (mPtr : UInt64) :
    Runs (resolveThread view layout status mPtr) (Go.resolveThread view layout status mPtr)
      (ThreadFits layout status mPtr) := by
  unfold resolveThread Go.resolveThread ThreadFits
  cases layout.mProcid with
  | none => exact Runs.pure.congr (by simp)
  | some procid =>
    dsimp only
    split
    · rename_i h
      exact (readField_runs view fun v => Runs.pure).congr (by simp [h])
    · rename_i h
      exact Runs.pure.congr (by simp only [Option.some.injEq]; grind)

theorem readGoroutine_runs (gp : UInt64) :
    Runs (readGoroutine view layout gp) (Go.readGoroutine view layout gp)
      (GoroutineFits view layout gp) := by
  refine Runs.add_bind (Runs.lift_bind fun raw => ?_)
  refine Runs.add_bind (Runs.lift_bind fun reason => ?_)
  refine readField_runs view fun mPtr => ?_
  refine Runs.bind (readParentGoid_runs view layout gp) fun parent => ?_
  refine Runs.bind (resolveThread_runs view layout _ mPtr) fun thread => ?_
  -- the fields that are read whatever the others are
  exact readField_runs view fun goid => readField_runs view fun gopc =>
    readField_runs view fun startpc => readField_runs view fun schedPc =>
    readField_runs view fun schedSp => readField_runs view fun stackLo =>
    readField_runs view fun stackHi => Runs.pure

theorem visitSlot_runs (data : UInt64) (out : List GoroutineInfo) (index : Nat) :
    Runs (visitSlot view layout data out index) (Go.visitSlot view layout data out index)
      (FitsMul (UInt64.ofNat index) layout.ptrSize.toUInt64 ∧ SlotFits view layout data index) := by
  refine Runs.mul_bind (readField_runs view fun gp => ?_)
  split
  · rename_i h
    exact Runs.pure.congr (by simp [h])
  · rename_i h
    exact (Runs.bind (readGoroutine_runs view layout gp) fun info => Runs.pure).congr (by simp [h])

theorem visitSlot_ok (data : UInt64) (out : List GoroutineInfo) (index : Nat) :
    (∃ out', Go.visitSlot view layout data out index = .ok out') ↔
      SlotReadable view layout data index := by
  simp only [Go.visitSlot, SlotReadable, slotAddr]
  cases readU64 view (data + UInt64.ofNat index * layout.ptrSize.toUInt64) with
  | error e => simp [bind, Except.bind]
  | ok gp =>
    by_cases h : gp = 0
    · simp [bind, Except.bind, h, pure, Except.pure]
    · cases hinfo : Go.readGoroutine view layout gp with
      | error e => simp [bind, Except.bind, h, hinfo]
      | ok info => simp [bind, Except.bind, h, hinfo, pure, Except.pure]

theorem fitsMul_slot {len : UInt64} (hlen : len ≤ maxGoroutines) {i : Nat} (hi : i < len.toNat) :
    FitsMul (UInt64.ofNat i) layout.ptrSize.toUInt64 := by
  have hmax : len.toNat ≤ 2 ^ 20 := UInt64.le_iff_toNat_le.mp hlen
  have hptr : layout.ptrSize.toUInt64.toNat < 256 := by
    rw [UInt8.toNat_toUInt64]
    exact layout.ptrSize.toNat_lt
  have hindex : (UInt64.ofNat i).toNat < 2 ^ 20 := by
    rw [UInt64.toNat_ofNat']
    omega
  exact (Nat.mul_lt_mul'' hindex hptr).trans (by decide)

/-- The walk overflows just where an address it comes to is no 64-bit number; elsewhere
it is the walk with wrapping sums. -/
theorem walkGoroutines_runs :
    Runs (walkGoroutines view layout) (Go.walkGoroutines view layout) (WalkFits view layout) := by
  -- The header bounds the number of slots, and so the product of every slot's address.
  have hheader (f : UInt64 × UInt64 → Prog DecoderError (List GoroutineInfo))
      (g : UInt64 × UInt64 → Except DecoderError (List GoroutineInfo))
      (D : UInt64 → UInt64 → Prop)
      (hf : ∀ data len, len ≤ maxGoroutines → Runs (f (data, len)) (g (data, len)) (D data len)) :
      Runs (readAllgsHeader view layout >>= f) (Go.readAllgsHeader view layout >>= g)
        (let allgs := layout.allgsAddr + layout.loadBias
        Fits layout.allgsAddr layout.loadBias ∧ ∀ data, readU64 view allgs = .ok data →
          Fits allgs layout.sliceLenOffset ∧
            ∀ len, readU64 view (allgs + layout.sliceLenOffset) = .ok len →
              len ≤ maxGoroutines → D data len) := by
    simp only [readAllgsHeader, Go.readAllgsHeader, bind_assoc]
    refine Runs.add_bind (Runs.lift_bind fun data => readField_runs view fun len => ?_)
    split
    · rename_i hlong
      exact Runs.throw.congr (by simp [UInt64.not_le.mpr hlong])
    · rename_i hlen
      have hle : len ≤ maxGoroutines := UInt64.not_lt.mp hlen
      exact (hf data len hle).congr (by simp [hle])
  refine hheader _ _ _ fun data len hlen => ?_
  refine (Runs.foldlM_range (visitSlot_runs view layout data)
    (visitSlot_ok view layout data) len.toNat []).congr ?_
  constructor
  · exact fun h i hi hbefore => (h i hi hbefore).2
  · exact fun h i hi hbefore => ⟨fitsMul_slot layout hlen hi, h i hi hbefore⟩

end Mirrorscope.Decoder.Go.Debug
