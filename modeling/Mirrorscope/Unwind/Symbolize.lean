import Mirrorscope.Unwind.Elf

/-! # Symbolizing addresses

Modules are registered with their load bias and looked up by the addresses they
cover; what the debug information is asked for is the address less the bias.
`load_bias_iff` says for which images and biases that is the image's own address.
-/

namespace Mirrorscope.Unwind

open Checked

/-- A frame as the debug information has it: the function's name, if there is one and
as far as it demangles, and the file and line. -/
structure DebugFrame where
  function : Option (Option String)
  location : Option (Option String × Option UInt32)
deriving DecidableEq, Repr

/-- The debug information of a file. -/
structure Loader where
  findFrames : UInt64 → Except String (List DebugFrame)
  findSymbol : UInt64 → Option String

/-- The object files that modules are loaded from. -/
structure Files where
  segments : String → Except UnwindError (List Segment)
  loader : String → Except String Loader

/-- One resolved stack frame. -/
structure SymbolizedFrame where
  function : Option String
  file : Option String
  line : Option UInt32
  address : UInt64
deriving DecidableEq, Repr

/-- A loaded module and the loader that symbolizes it. -/
structure SymModule where
  baseAvma : UInt64
  avmaRange : AddressRange
  loader : Loader

structure Symbolizer where
  modules : List SymModule

def DebugFrame.symbolized (address : UInt64) (frame : DebugFrame) : SymbolizedFrame where
  function := frame.function.join
  file := frame.location.bind (·.1)
  line := frame.location.bind (·.2)
  address := address

/-- The frames of a stated address; without any, at least a symbol. -/
def Loader.lookup (loader : Loader) (svma avma : UInt64) : List SymbolizedFrame :=
  let frames :=
    match loader.findFrames svma with
    | .ok frames => frames.map (·.symbolized avma)
    | .error _ => []
  if frames.isEmpty then
    [{ function := loader.findSymbol svma, file := none, line := none, address := avma }]
  else frames

def moduleBounds (files : Files) (path : String) (mappingBase : UInt64) :
    Prog UnwindError (UInt64 × AddressRange) := do
  let segments ← lift (files.segments path)
  bounds segments mappingBase

namespace Symbolizer

def new : Symbolizer := ⟨[]⟩

/-- Register a module loaded at `mappingBase`. -/
def addModule (s : Symbolizer) (files : Files) (path : String) (mappingBase : UInt64) :
    Prog UnwindError Symbolizer := do
  let (baseAvma, avmaRange) ← moduleBounds files path mappingBase
  let loader ← lift ((files.loader path).mapError .symbol)
  pure ⟨s.modules ++ [{ baseAvma, avmaRange, loader }]⟩

/-- Resolve one address to its frames, none if no module covers it. -/
def resolve (s : Symbolizer) (avma : UInt64) : Prog UnwindError (List SymbolizedFrame) :=
  match s.modules.find? fun m => m.avmaRange.contains avma with
  | none => pure []
  | some m => do
    let svma ← sub avma m.baseAvma
    pure (m.loader.lookup svma avma)

end Symbolizer

/-! ## The load bias -/

/-- The start of the page that an address lies in. -/
def pageFloor (page v : Nat) : Nat := v - v % page

/-- A module whose image goes from `lo` to `hi`, mapped at `mappingBase`, is used with
the load bias `b`: its range is the image's, moved by `b`, and an address in it is
looked up as the image's own address. -/
def UsesBias (segments : List Segment) (lo hi : Nat) (mappingBase b : UInt64) : Prop :=
  ∃ range : AddressRange,
    bounds segments mappingBase = .ok (b, range) ∧
    range.start.toNat = (b.toNat + lo) % 2 ^ 64 ∧
    range.finish.toNat = range.start.toNat + (hi - lo) ∧
    ∀ (files : Files) (path : String) (loader : Loader) (s : Symbolizer),
      files.segments path = .ok segments → files.loader path = .ok loader →
      ∃ s', s.addModule files path mappingBase = .ok s' ∧
        ∀ avma, range.contains avma → (∀ m ∈ s.modules, ¬ m.avmaRange.contains avma) →
          s'.resolve avma = .ok (loader.lookup (avma - b) avma)

theorem Symbolizer.resolve_added {s : Symbolizer} {m : SymModule} {avma : UInt64}
    (hm : m.avmaRange.contains avma) (hs : ∀ m' ∈ s.modules, ¬ m'.avmaRange.contains avma)
    (hbase : m.baseAvma ≤ avma) :
    (⟨s.modules ++ [m]⟩ : Symbolizer).resolve avma =
      .ok (m.loader.lookup (avma - m.baseAvma) avma) := by
  have hfind : (s.modules ++ [m]).find? (fun m' => m'.avmaRange.contains avma) = some m := by
    rw [List.find?_append, List.find?_eq_none.mpr hs]
    simp [hm]
  simp only [resolve, hfind, sub, hbase, ↓reduceIte]
  rfl

/-- The bias is used right exactly when the image begins on a page, is not just the last
address, and moved up by the bias still ends below the end of the address space. -/
theorem load_bias_iff {segments : List Segment} {lo hi : Nat} (h : Image segments lo hi)
    (page : Nat) (b : UInt64) :
    UsesBias segments lo hi (UInt64.ofNat (pageFloor page lo) + b) b ↔
      page ∣ lo ∧ lo ≠ 2 ^ 64 - 1 ∧ b.toNat + hi < 2 ^ 64 := by
  have hlo := h.lo_lt
  have hle := h.lo_le_hi
  have htoNat {n : Nat} (hn : n < 2 ^ 64) : (UInt64.ofNat n).toNat = n := by
    rw [UInt64.toNat_ofNat']
    exact Nat.mod_eq_of_lt hn
  have hfloor : pageFloor page lo ≤ lo := Nat.sub_le _ _
  -- the wrapping difference is the bias just when the mapping begins where the image does
  have hbase : UInt64.ofNat (pageFloor page lo) + b - UInt64.ofNat lo = b ↔ page ∣ lo := by
    have hsame : UInt64.ofNat (pageFloor page lo) + b - UInt64.ofNat lo = b ↔
        UInt64.ofNat (pageFloor page lo) = UInt64.ofNat lo := by
      constructor
      · intro heq
        have hsum := congrArg (· + UInt64.ofNat lo) heq
        rw [UInt64.sub_add_cancel, UInt64.add_comm b] at hsum
        exact (UInt64.add_left_inj b).mp hsum
      · intro heq
        rw [heq, UInt64.add_comm, UInt64.add_sub_cancel]
    rw [hsame, ← UInt64.toNat_inj, htoNat hlo, htoNat (by omega), pageFloor,
      Nat.dvd_iff_mod_eq_zero]
    have := Nat.mod_le lo page
    omega
  constructor
  · rintro ⟨range, hbounds, -⟩
    rw [h.bounds_eq] at hbounds
    dsimp only at hbounds
    split at hbounds
    · split at hbounds
      · cases hbounds
      · rename_i hlast
        split at hbounds
        · rename_i hroom
          have hb := (Prod.mk.inj (Except.ok.inj hbounds)).1
          exact ⟨hbase.mp hb, hlast, hb ▸ hroom⟩
        · cases hbounds
    · cases hbounds
  · rintro ⟨hpage, hlast, hroom⟩
    have hhi : hi < 2 ^ 64 := by omega
    have hb := hbase.mpr hpage
    have hstart : (b + UInt64.ofNat lo).toNat = b.toNat + lo := by
      rw [UInt64.toNat_add, htoNat hlo]
      exact Nat.mod_eq_of_lt (by omega)
    have hfinish : (b + UInt64.ofNat hi).toNat = b.toNat + hi := by
      rw [UInt64.toNat_add, htoNat hhi]
      exact Nat.mod_eq_of_lt (by omega)
    have hbounds : bounds segments (UInt64.ofNat (pageFloor page lo) + b) =
        .ok (b, { start := b + UInt64.ofNat lo, finish := b + UInt64.ofNat hi }) := by
      rw [h.bounds_eq]
      simp only [hb, hhi, hlast, hroom, ↓reduceIte]
    refine ⟨_, hbounds, ?_, ?_, ?_⟩
    · dsimp only
      rw [hstart, Nat.mod_eq_of_lt (by omega)]
    · dsimp only
      rw [hstart, hfinish]
      omega
    · intro files path loader s hsegments hloader
      refine ⟨⟨s.modules ++ [⟨b, ⟨b + UInt64.ofNat lo, b + UInt64.ofNat hi⟩, loader⟩]⟩, ?_, ?_⟩
      · have hmodule : moduleBounds files path (UInt64.ofNat (pageFloor page lo) + b) =
            .ok (b, { start := b + UInt64.ofNat lo, finish := b + UInt64.ofNat hi }) := by
          rw [moduleBounds, hsegments]
          exact hbounds
        rw [Symbolizer.addModule, hmodule, hloader]
        rfl
      · intro avma hrange hothers
        refine Symbolizer.resolve_added hrange hothers ?_
        have hge : b + UInt64.ofNat lo ≤ avma := by
          simp only [AddressRange.contains, Bool.and_eq_true, decide_eq_true_eq] at hrange
          exact hrange.1
        rw [UInt64.le_iff_toNat_le, hstart] at hge
        rw [UInt64.le_iff_toNat_le]
        dsimp only
        omega

/-- A position-independent image that was loaded at its usual kind of place. -/
theorem load_bias_pie :
    UsesBias [⟨0, 0x2000⟩] 0 0x2000 (UInt64.ofNat (pageFloor 4096 0) + 0x7F0000000000)
      0x7F0000000000 := by
  have himage : Image [⟨0, 0x2000⟩] 0 0x2000 := by
    constructor
    · refine ⟨⟨_, List.mem_singleton_self _, rfl⟩, ?_⟩
      rintro a ⟨s, hs, rfl⟩
      exact Nat.zero_le _
    · refine ⟨⟨_, List.mem_singleton_self _, rfl⟩, ?_⟩
      rintro e ⟨s, hs, rfl⟩
      rw [List.mem_singleton.mp hs]
      decide
  exact (load_bias_iff himage 4096 0x7F0000000000).mpr (by decide)

/-- An image linked at `0x400000` and mapped at `0x200000` has a bias that wraps, and
its range overflows. -/
theorem load_bias_mappedBelow :
    ¬ UsesBias [⟨0x400000, 0x1000⟩] 0x400000 0x401000
      (UInt64.ofNat (pageFloor 4096 0x400000) + (0 - 0x200000)) (0 - 0x200000) := by
  rintro ⟨range, hbounds, -⟩
  have hstop : bounds [⟨0x400000, 0x1000⟩]
      (UInt64.ofNat (pageFloor 4096 0x400000) + (0 - 0x200000)) = .error .overflow := by
    decide +kernel
  rw [hstop] at hbounds
  cases hbounds

end Mirrorscope.Unwind
