import Mirrorscope.Decoder.TokioOverflow
import Mirrorscope.Decoder.GoOverflow
import Mirrorscope.Lib.ByteIO
import Mirrorscope.Lib.LittleEndian

/-! # The program headers of an executable

The thread-local block and the lowest loaded address, as the raw program-header table
states them, with checked sums and slices. The table's place is a number that the image
gives: the reading overflows only where that number is among the last four.
-/

namespace Mirrorscope.Decoder.AsyncRust

open Checked
open ByteIO (ByteVec)

/-! ## Reading the table -/

/-- A slice that has to be inside the image. -/
def slice (image : ByteVec) (start finish : Nat) : Prog EnumerateError (List UInt8) :=
  if start ≤ finish ∧ finish ≤ image.bytes.length then
    pure ((image.bytes.drop start).take (finish - start))
  else throw .overflow

/-- `width` bytes from `pos` on, if they are inside the image. -/
def field (width : UInt64) (image : ByteVec) (pos : UInt64) : Prog EnumerateError UInt64 := do
  let finish ← add pos width
  if finish.toNat ≤ image.bytes.length then
    pure (UInt64.ofNat (LittleEndian.decode ((image.bytes.drop pos.toNat).take width.toNat)))
  else throw (.error (.parse "truncated ELF header"))

def word : ByteVec → UInt64 → Prog EnumerateError UInt64 := field 8

def quarter : ByteVec → UInt64 → Prog EnumerateError UInt64 := field 4

def half : ByteVec → UInt64 → Prog EnumerateError UInt64 := field 2

def ptLoad : UInt64 := 1

def ptTls : UInt64 := 7

/-- Whether the image starts as a little-endian 64-bit ELF file does. -/
def isElf64 (image : ByteVec) : Prog EnumerateError Bool := do
  if image.bytes.length < 64 then pure false
  else if (← slice image 0 4) ≠ [0x7F, 0x45, 0x4C, 0x46] then pure false
  else if (← slice image 4 5) ≠ [2] then pure false
  else if (← slice image 5 6) ≠ [1] then pure false
  else pure true

/-- What the headers have stated so far. -/
structure Geometry where
  tlsAlign : UInt64 := 8
  tlsMemsz : UInt64 := 0
  minLoad : UInt64 := 0xFFFFFFFFFFFFFFFF
deriving DecidableEq, Repr

def visitHeader (image : ByteVec) (phoff phentsize : UInt64) (g : Geometry) (i : Nat) :
    Prog EnumerateError Geometry := do
  let offset ← mul (UInt64.ofNat i) phentsize
  let base ← add phoff offset
  let pType ← quarter image base
  let pVaddr ← word image (← add base 16)
  let pMemsz ← word image (← add base 40)
  let pAlign ← word image (← add base 48)
  if pType = ptTls then pure { g with tlsAlign := max pAlign 1, tlsMemsz := pMemsz }
  else if pType = ptLoad then pure { g with minLoad := min g.minLoad pVaddr }
  else pure g

/-- The alignment and size of the thread-local block and the lowest loaded address. -/
def elfGeometry (image : ByteVec) : Prog EnumerateError (UInt64 × UInt64 × UInt64) := do
  if ¬ (← isElf64 image) then throw (.error (.parse "not a little-endian ELF64 image"))
  else
    let phoff ← word image 32
    let phentsize ← half image 54
    let phnum ← half image 56
    let g ← (List.range phnum.toNat).foldlM (visitHeader image phoff phentsize) {}
    pure (g.tlsAlign, g.tlsMemsz, if g.minLoad = 0xFFFFFFFFFFFFFFFF then 0 else g.minLoad)

/-! ## When it overflows -/

/-- The number in `width` bytes of the image. -/
def fieldAt (image : ByteVec) (pos width : Nat) : Nat :=
  LittleEndian.decode ((image.bytes.drop pos).take width)

/-- The image passes the header check. -/
def Elf64 (image : ByteVec) : Prop :=
  64 ≤ image.bytes.length ∧ image.bytes.take 4 = [0x7F, 0x45, 0x4C, 0x46] ∧
    image.bytes[4]? = some 2 ∧ image.bytes[5]? = some 1

/-- The table of an image that has one does not start at one of the last four
addresses. -/
def GeometryFits (image : ByteVec) : Prop :=
  Elf64 image → fieldAt image 56 2 ≠ 0 → fieldAt image 32 8 + 4 < 2 ^ 64

section Field

variable {image : ByteVec} {pos width : UInt64}

theorem field_inside (h : pos.toNat + width.toNat ≤ image.bytes.length) :
    field width image pos = .ok (UInt64.ofNat (fieldAt image pos.toNat width.toNat)) := by
  have hfits : Fits pos width := by
    have := image.bounded
    unfold Fits
    omega
  have hle : (pos + width).toNat ≤ image.bytes.length := by rw [hfits.toNat_add]; exact h
  simp only [field, add_of_fits hfits, bind, Except.bind, if_pos hle]
  rfl

theorem field_outside (hfits : Fits pos width)
    (h : image.bytes.length < pos.toNat + width.toNat) :
    field width image pos = .error (.error (.parse "truncated ELF header")) := by
  have hlt : ¬ (pos + width).toNat ≤ image.bytes.length := by
    rw [hfits.toNat_add]
    omega
  simp only [field, add_of_fits hfits, bind, Except.bind, if_neg hlt]
  rfl

theorem safe_field (hfits : Fits pos width) : Safe (field width image pos) := by
  by_cases h : pos.toNat + width.toNat ≤ image.bytes.length
  · rw [field_inside h]
    exact Safe.pure
  · rw [field_outside hfits (by omega)]
    exact Safe.throw

end Field

section Table

variable {image : ByteVec}

theorem slice_inside {start finish : Nat} (hle : start ≤ finish)
    (h : finish ≤ image.bytes.length) :
    slice image start finish = .ok ((image.bytes.drop start).take (finish - start)) :=
  if_pos ⟨hle, h⟩

theorem take_one_drop {bs : List UInt8} {i : Nat} {b : UInt8} :
    (bs.drop i).take 1 = [b] ↔ bs[i]? = some b := by
  rw [List.take_one, List.head?_drop]
  cases bs[i]? <;> simp

open Classical in
theorem isElf64_eq : isElf64 image = .ok (decide (Elf64 image)) := by
  unfold isElf64 Elf64
  by_cases hlen : image.bytes.length < 64
  · have hnot : ¬ 64 ≤ image.bytes.length := by omega
    simp [hlen, hnot, pure, Except.pure]
  · have hle : 64 ≤ image.bytes.length := by omega
    rw [if_neg hlen, slice_inside (by omega) (by omega), slice_inside (by omega) (by omega),
      slice_inside (by omega) (by omega)]
    simp only [bind, Except.bind, List.drop_zero, Nat.sub_zero, Nat.reduceSub, take_one_drop, ne_eq,
      pure, Except.pure]
    by_cases hmagic : image.bytes.take 4 = [0x7F, 0x45, 0x4C, 0x46]
    · by_cases hclass : image.bytes[4]? = some 2
      · by_cases hdata : image.bytes[5]? = some 1 <;> simp [hle, hmagic, hclass, hdata]
      · simp [hmagic, hclass]
    · simp [hmagic]

/-- The base of a header, for a table in the lower half of the addresses. -/
theorem headerBase {phoff phentsize : UInt64} {i : Nat} (hphoff : phoff.toNat < 2 ^ 63)
    (hsize : phentsize.toNat < 2 ^ 16) (hi : i < 2 ^ 16) :
    FitsMul (UInt64.ofNat i) phentsize ∧ Fits phoff (UInt64.ofNat i * phentsize) ∧
      (phoff + UInt64.ofNat i * phentsize).toNat < 2 ^ 63 + 2 ^ 32 := by
  have hindex : (UInt64.ofNat i).toNat = i := by
    rw [UInt64.toNat_ofNat']
    omega
  have hprod : i * phentsize.toNat < 2 ^ 16 * 2 ^ 16 := Nat.mul_lt_mul'' hi hsize
  have hoffset : (UInt64.ofNat i * phentsize).toNat = i * phentsize.toNat := by
    rw [UInt64.toNat_mul, hindex]
    omega
  have hfits : Fits phoff (UInt64.ofNat i * phentsize) := by
    rw [Fits, hoffset]
    omega
  refine ⟨?_, hfits, ?_⟩
  · rw [FitsMul, hindex]
    omega
  · rw [hfits.toNat_add, hoffset]
    omega

/-- A field of a header at such a base can be asked for. -/
theorem safe_word_add {base off : UInt64} (hbase : base.toNat < 2 ^ 63 + 2 ^ 32)
    (hoff : off.toNat < 2 ^ 16) {α : Type} {f : UInt64 → Prog EnumerateError α}
    (hf : ∀ v, Safe (f v)) : Safe (do let v ← word image (← add base off); f v) := by
  have hfits : Fits base off := by
    unfold Fits
    omega
  have hword : Fits (base + off) 8 := by
    rw [Fits, hfits.toNat_add]
    simp only [UInt64.reduceToNat]
    omega
  exact Safe.add_bind hfits (Safe.bind (safe_field hword) fun v _ => hf v)

theorem visitHeader_safe {phoff phentsize : UInt64} {i : Nat} (hphoff : phoff.toNat < 2 ^ 63)
    (hsize : phentsize.toNat < 2 ^ 16) (hi : i < 2 ^ 16) (g : Geometry) :
    Safe (visitHeader image phoff phentsize g i) := by
  obtain ⟨hmul, hadd, hbase⟩ := headerBase hphoff hsize hi
  refine Safe.mul_bind hmul (Safe.add_bind hadd ?_)
  generalize phoff + UInt64.ofNat i * phentsize = base at hbase
  have hquarter : Fits base 4 := by
    simp only [Fits, UInt64.reduceToNat]
    omega
  refine Safe.bind (safe_field hquarter) fun pType _ => ?_
  refine safe_word_add hbase (by decide) fun pVaddr => ?_
  refine safe_word_add hbase (by decide) fun pMemsz => ?_
  refine safe_word_add hbase (by decide) fun pAlign => ?_
  split
  · exact Safe.pure
  · split
    · exact Safe.pure
    · exact Safe.pure

/-- The first header is at the start of the table. -/
theorem visitHeader_zero {phoff phentsize : UInt64} {e : Stop EnumerateError}
    (h : quarter image phoff = .error e) (g : Geometry) :
    visitHeader image phoff phentsize g 0 = .error e := by
  have hmul : FitsMul (UInt64.ofNat 0) phentsize := by simp [FitsMul]
  have hadd : Fits phoff (UInt64.ofNat 0 * phentsize) := by simp [Fits, phoff.toNat_lt]
  have hbase : phoff + UInt64.ofNat 0 * phentsize = phoff := by simp
  simp only [visitHeader, mul_of_fits hmul, add_of_fits hadd, hbase, bind, Except.bind, h]

/-- A table past the largest image stops the fold at its first header. -/
theorem foldlM_visitHeader {phoff phentsize : UInt64} {phnum : Nat} (hphnum : phnum ≠ 0)
    {e : Stop EnumerateError} (h : quarter image phoff = .error e) (g : Geometry) :
    (List.range phnum).foldlM (visitHeader image phoff phentsize) g = .error e := by
  obtain ⟨n, rfl⟩ := Nat.exists_eq_succ_of_ne_zero hphnum
  rw [List.range_succ_eq_map, List.foldlM_cons, visitHeader_zero h]
  rfl

/-- The headers are read without an overflow just where the first of them, if any, has
an address for its type. -/
theorem safe_foldlM_visitHeader {phoff phentsize : UInt64} {phnum : Nat}
    (hsize : phentsize.toNat < 2 ^ 16) (hphnum : phnum < 2 ^ 16) (g : Geometry) :
    Safe ((List.range phnum).foldlM (visitHeader image phoff phentsize) g) ↔
      (phnum ≠ 0 → phoff.toNat + 4 < 2 ^ 64) := by
  by_cases hzero : phnum = 0
  · subst hzero
    exact ⟨fun _ h => absurd rfl h, fun _ => Safe.pure⟩
  -- A header table in the lower half cannot overflow; one in the upper half begins
  -- outside the image, so the loop stops at its first header.
  by_cases hlow : phoff.toNat < 2 ^ 63
  · constructor
    · intro _ _
      omega
    · intro _
      refine Safe.foldlM (fun g i hi => ?_) g
      exact visitHeader_safe hlow hsize ((List.mem_range.mp hi).trans hphnum) g
  by_cases hfits : Fits phoff 4
  · have houtside : image.bytes.length < phoff.toNat + (4 : UInt64).toNat := by
      have := image.bounded
      omega
    rw [foldlM_visitHeader hzero (field_outside hfits houtside)]
    exact ⟨fun _ _ => hfits, fun _ => Safe.throw⟩
  · have hquarter : quarter image phoff = .error .overflow := by
      rw [quarter, field, add_of_not_fits hfits]
      rfl
    rw [foldlM_visitHeader hzero hquarter]
    exact ⟨fun h => absurd rfl h, fun h => absurd (h hzero) hfits⟩

theorem fieldAt_lt (image : ByteVec) (pos width : Nat) : fieldAt image pos width < 256 ^ width := by
  refine (LittleEndian.decode_lt _).trans_le (Nat.pow_le_pow_right (by decide) ?_)
  rw [List.length_take]
  exact Nat.min_le_left _ _

/-- The geometry is read without an overflow just where the table's place allows it. -/
theorem elfGeometry_safe_iff (image : ByteVec) :
    Safe (elfGeometry image) ↔ GeometryFits image := by
  unfold elfGeometry GeometryFits
  rw [isElf64_eq]
  by_cases helf : Elf64 image
  · have hfield (pos width : UInt64) (h : pos.toNat + width.toNat ≤ 64) :
        field width image pos = .ok (UInt64.ofNat (fieldAt image pos.toNat width.toNat)) :=
      field_inside (h.trans helf.1)
    have hphoff := fieldAt_lt image 32 8
    have hphentsize := fieldAt_lt image 54 2
    have hphnum := fieldAt_lt image 56 2
    have htoNat {n width : Nat} (h : n < 256 ^ width) (hwidth : width ≤ 8) :
        (UInt64.ofNat n).toNat = n := by
      rw [UInt64.toNat_ofNat']
      exact Nat.mod_eq_of_lt (h.trans_le (Nat.pow_le_pow_right (by decide) hwidth))
    simp only [helf, decide_true, word, half, hfield 32 8 (by decide), hfield 54 2 (by decide),
      hfield 56 2 (by decide), UInt64.reduceToNat, true_implies]
    refine Safe.map_iff.trans ?_
    rw [htoNat hphnum (by decide)]
    rw [safe_foldlM_visitHeader ?_ hphnum, htoNat hphoff (by decide)]
    rw [htoNat hphentsize (by decide)]
    exact hphentsize
  · simp only [helf, decide_false, false_implies, iff_true]
    exact Safe.throw

end Table

end Mirrorscope.Decoder.AsyncRust

namespace Mirrorscope.Decoder

open Checked
open AsyncRust (AsyncFnLayout AsyncLayouts RawTask TokioRuntimeLayout maxAwaitDepth maxOwnedTasks)
open AsyncRust.Debug (ContextFits DiscriminantFits LeafFits StackFits)
open Go (GoLayout)

/-- Each decoder overflows on just the memories and images where one of the sums it comes
to is no 64-bit number, or a discriminant has more than eight bytes. -/
theorem decoders_safe_iff (view : ProcessView) (image : ByteIO.ByteVec) :
    (∀ (layout : TokioRuntimeLayout) (contextAddr : UInt64) (out : List RawTask),
      Safe (AsyncRust.Debug.walkContext view layout contextAddr out) ↔
        ContextFits view layout contextAddr (maxOwnedTasks - out.length)) ∧
    (∀ layout : GoLayout,
      Safe (Go.Debug.walkGoroutines view layout) ↔ Go.Debug.WalkFits view layout) ∧
    (∀ (base : UInt64) (layout : AsyncFnLayout),
      Safe (AsyncRust.Debug.readDiscriminant view base layout) ↔
        DiscriminantFits view base layout) ∧
    (∀ (layouts : AsyncLayouts) (base : UInt64) (layout : AsyncFnLayout),
      Safe (AsyncRust.Debug.leafType view layouts base layout) ↔
        LeafFits view layouts maxAwaitDepth base layout) ∧
    (∀ (layouts : AsyncLayouts) (base : UInt64) (typeName : String),
      Safe (AsyncRust.Debug.logicalStack view layouts base typeName) ↔
        StackFits view layouts maxAwaitDepth base typeName) ∧
    (Safe (AsyncRust.elfGeometry image) ↔ AsyncRust.GeometryFits image) :=
  ⟨fun layout contextAddr out =>
      (AsyncRust.Debug.walkContext_runs view layout contextAddr out).safe_iff,
    fun layout => (Go.Debug.walkGoroutines_runs view layout).safe_iff,
    fun base layout => (AsyncRust.Debug.readDiscriminant_runs view base layout).safe_iff,
    fun layouts base layout => (AsyncRust.Debug.leafType_runs view layouts base layout).safe_iff,
    fun layouts base typeName =>
      (AsyncRust.Debug.logicalStack_runs view layouts base typeName).safe_iff,
    AsyncRust.elfGeometry_safe_iff image⟩

/-- A runtime of one goroutine, whose slot and whose memory hold nothing but ones. -/
def allOnes : ProcessView where
  threadIds := []
  registers := fun _ => .ok ⟨0, 0⟩
  readMemory := fun addr len =>
    .ok (if addr = 0x1008 then [1, 0, 0, 0, 0, 0, 0, 0] else List.replicate len 0xFF)
  physicalFrames := fun _ => .ok []
  threadPointer := fun _ => .ok none
  executableBase := none

def amd64Layout : GoLayout where
  ptrSize := 8
  allgsAddr := 0x1000
  loadBias := 0
  g := {
    goid := 0x98
    atomicstatus := 0x90
    waitreason := 0xB0
    stackLo := 0
    stackHi := 8
    schedPc := 0x40
    schedSp := 0x38
    gopc := 0x120
    startpc := 0x130
    m := 0x30
    parentGoid := some 0x118 }
  mProcid := some 0x48

/-- The pointer to a goroutine is not bounded: the address of its status is past the last
one. -/
theorem walkGoroutines_allOnes :
    ¬ ∀ (view : ProcessView) (layout : GoLayout), Safe (Go.Debug.walkGoroutines view layout) := by
  intro h
  have hstop : Go.Debug.walkGoroutines allOnes amd64Layout = .error .overflow := by
    decide +kernel
  exact h allOnes amd64Layout hstop

end Mirrorscope.Decoder
