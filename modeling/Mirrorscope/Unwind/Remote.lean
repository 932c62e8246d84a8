import Mirrorscope.Lib.LittleEndian
import Mirrorscope.Linux.Remote
import Mirrorscope.Unwind.Maps
import Mirrorscope.Unwind.Symbolize

/-! # Unwinding a stopped process

The modules in the maps file of a process are registered with an unwinder and with a symbolizer;
one that cannot be loaded is left out. The stack is then walked from the leaf registers over the
memory of the process, and each address of the walk is resolved to its frames.
-/

namespace Mirrorscope.Unwind

open ByteIO (IoError)
open Checked
open Linux (Arch Errno Pid Ptrace buffer)

/-! ## Modules for the unwinder -/

/-- A section of an object file, with its bytes where they can be read. -/
structure ElfSection where
  address : UInt64
  size : UInt64
  data : Option Bytes

/-- Object files with their sections by name. -/
structure ObjectFiles extends Files where
  sectionByName : String → String → Option ElfSection

/-- A section that was read: its stated addresses and its bytes. -/
structure SectionData where
  svma : AddressRange
  bytes : Bytes

structure ElfLayout where
  baseAvma : UInt64
  avmaRange : AddressRange
  text : Option SectionData
  ehFrame : Option SectionData
  ehFrameHdr : Option SectionData
  gotSvma : Option AddressRange

/-- The addresses of a section. -/
def ElfSection.range (s : ElfSection) : Prog UnwindError AddressRange := do
  let finish ← add s.address s.size
  pure { start := s.address, finish }

/-- A section, if the file has it and its bytes can be read. -/
def sectionData : Option ElfSection → Prog UnwindError (Option SectionData)
  | none => pure none
  | some s =>
    match s.data with
    | none => pure none
    | some bytes => do
      let svma ← s.range
      pure (some { svma, bytes })

/-- The addresses of a section, if the file has it. -/
def sectionRange : Option ElfSection → Prog UnwindError (Option AddressRange)
  | none => pure none
  | some s => do
    let range ← s.range
    pure (some range)

def readLayout (files : ObjectFiles) (path : String) (mappingBase : UInt64) :
    Prog UnwindError ElfLayout := do
  let segments ← lift (files.segments path)
  let (baseAvma, avmaRange) ← bounds segments mappingBase
  let text ← sectionData (files.sectionByName path ".text")
  let ehFrame ← sectionData (files.sectionByName path ".eh_frame")
  let ehFrameHdr ← sectionData (files.sectionByName path ".eh_frame_hdr")
  let gotSvma ← sectionRange (files.sectionByName path ".got")
  pure { baseAvma, avmaRange, text, ehFrame, ehFrameHdr, gotSvma }

/-- A module as the unwinder has it. -/
structure UnwindModule where
  name : String
  layout : ElfLayout

structure StackUnwinder where
  modules : List UnwindModule

/-- The leaf registers. -/
structure InitialRegs where
  pc : UInt64
  sp : UInt64
  fp : UInt64
  lr : UInt64
deriving DecidableEq, Repr

/-- A walk over a stack: the lookup addresses of its frames, innermost first, up to the end of the
stack or to the first frame that cannot be unwound. -/
abbrev IterFrames := List UnwindModule → InitialRegs → (UInt64 → Option UInt64) → List UInt64

namespace StackUnwinder

def new : StackUnwinder := ⟨[]⟩

/-- Register a module loaded at `mappingBase`. -/
def addModule (u : StackUnwinder) (files : ObjectFiles) (path : String) (mappingBase : UInt64) :
    Prog UnwindError StackUnwinder := do
  let layout ← readLayout files path mappingBase
  pure ⟨u.modules ++ [{ name := path, layout }]⟩

def unwind (u : StackUnwinder) (iterFrames : IterFrames) (regs : InitialRegs)
    (readStack : UInt64 → Option UInt64) : List UInt64 :=
  iterFrames u.modules regs readStack

end StackUnwinder

/-- Resolve every address of a stack, in order. -/
def unwindSymbolized (unwinder : StackUnwinder) (symbolizer : Symbolizer)
    (iterFrames : IterFrames) (regs : InitialRegs) (readStack : UInt64 → Option UInt64) :
    Prog UnwindError (List SymbolizedFrame) :=
  (unwinder.unwind iterFrames regs readStack).foldlM (fun frames address => do
    let resolved ← symbolizer.resolve address
    pure (frames ++ resolved)) []

/-! ## A stopped process -/

/-- What the kernel shows of a process: the text of its maps file, the names in its directory of
tasks, of which some may be no text, and the leaf registers of a stopped task. -/
class Procfs (ω : Type) where
  maps : Pid → ω → Except IoError (List Char)
  task : Pid → ω → Except IoError (List (Option (List Char)))
  registers : Pid → ω → Except Errno InitialRegs

inductive RemoteError where
  | maps (pid : Pid) (source : IoError)
  | ptrace (pid : Pid) (source : Errno)
  | unwind (error : UnwindError)
deriving DecidableEq, Repr

/-- A stack reader of a stopped process. -/
structure RemoteUnwinder where
  pid : Pid
  unwinder : StackUnwinder
  symbolizer : Symbolizer

/-- What was there before, where a module cannot be loaded. An overflow is not caught. -/
def orKeep {ε ε' α : Type} (before : α) : Prog ε α → Prog ε' α
  | .ok a => .ok a
  | .error (.error _) => .ok before
  | .error .overflow => .error .overflow

theorem orKeep_ok {ε ε' α : Type} {before a : α} {x : Prog ε α}
    (h : (orKeep before x : Prog ε' α) = .ok a) : x = .ok a ∨ a = before := by
  cases x with
  | ok a' => exact .inl (congrArg Except.ok (Except.ok.inj h))
  | error stop =>
    cases stop with
    | error e => exact .inr (Except.ok.inj h).symm
    | overflow => cases h

namespace RemoteUnwinder

variable {ω : Type}

/-- Register a module of the process, as far as it can be loaded. -/
def load (files : ObjectFiles) (u : RemoteUnwinder) (m : ModuleMapping) :
    Prog RemoteError RemoteUnwinder := do
  let path := String.ofList m.path
  let base := UInt64.ofNat m.base
  let unwinder ← orKeep u.unwinder (u.unwinder.addModule files path base)
  let symbolizer ← orKeep u.symbolizer (u.symbolizer.addModule files.toFiles path base)
  pure { u with unwinder, symbolizer }

/-- Load the modules of a process. -/
def forPid [Procfs ω] (files : ObjectFiles) (pid : Pid) (os : ω) :
    Prog RemoteError RemoteUnwinder := do
  let content ← lift ((Procfs.maps pid os).mapError (.maps pid))
  (parseMaps content).foldlM (load files) { pid, unwinder := .new, symbolizer := .new }

/-- The leaf registers of the process. -/
def registers [Procfs ω] (u : RemoteUnwinder) (os : ω) : Except RemoteError InitialRegs :=
  (Procfs.registers u.pid os).mapError (.ptrace u.pid)

/-- A word of the memory of the process. -/
def readU64 (arch : Arch) [Ptrace arch ω] (u : RemoteUnwinder) (os : ω) (addr : UInt64) :
    Option UInt64 :=
  match (Ptrace.processVmReadv arch u.pid addr 8 os).1 with
  | .ok copied => some (UInt64.ofNat (LittleEndian.decode (buffer 8 copied)))
  | .error _ => none

def backtrace (arch : Arch) [Ptrace arch ω] (iterFrames : IterFrames) (u : RemoteUnwinder)
    (regs : InitialRegs) (os : ω) : Prog RemoteError (List SymbolizedFrame) :=
  mapErr .unwind
    (unwindSymbolized u.unwinder u.symbolizer iterFrames regs (u.readU64 arch os))

/-- The stack of the process from its current registers. -/
def backtraceNow (arch : Arch) [Ptrace arch ω] [Procfs ω] (iterFrames : IterFrames)
    (u : RemoteUnwinder) (os : ω) : Prog RemoteError (List SymbolizedFrame) := do
  let regs ← lift (u.registers os)
  u.backtrace arch iterFrames regs os

end RemoteUnwinder

end Mirrorscope.Unwind
