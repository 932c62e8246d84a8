import Mirrorscope.Decoder.Native
import Mirrorscope.Decoder.PtraceView
import Mirrorscope.Unwind.Remote

/-! # The threads of a stopped process

The process view over ptrace: the threads that the process has, each with a stack reader of its
own, in the order of their numbers. A process of one thread is a task tree of one root.
-/

namespace Mirrorscope.Decoder

open ByteIO (IoError)
open Checked Linux
open Unwind (InitialRegs IterFrames ObjectFiles Procfs RemoteError RemoteUnwinder Symbolizer
  SymbolizedFrame UnwindError)

/-! ## The threads of a process -/

/-- `str::parse::<i32>`. -/
def parseI32 : List Char → Option Int
  | '-' :: digits =>
    if digits.isEmpty then none
    else (Numeral.digitsFrom 10 (2 ^ 31 + 1) 0 digits).map fun n => -(n : Int)
  | digits => (Numeral.parse 10 (2 ^ 31) digits).map fun n => (n : Int)

/-- A pid is read back from its numeral. -/
theorem parseI32_toDigits {n : Nat} (h : n < 2 ^ 31) : parseI32 (Nat.toDigits 10 n) = some n := by
  have hsign : ∀ digits, Nat.toDigits 10 n ≠ '-' :: digits := by
    intro digits hdigits
    have hplain := @Numeral.toDigits_plain 10 n (by omega) (by omega) '-'
      (by rw [hdigits]; exact List.mem_cons_self)
    exact hplain.2.2 rfl
  rw [parseI32]
  · rw [Numeral.parse_toDigits (by omega) (by omega) h]
    rfl
  · exact hsign

/-- Why a view of a process could not be had. -/
inductive PtraceViewError where
  | enumerateThreads (pid : Pid) (source : IoError)
  | unwinder (pid tid : Pid) (source : RemoteError)
deriving DecidableEq, Repr

variable {ω : Type}

/-- The thread ids that the directory of tasks names, in order. -/
def taskIds [Procfs ω] (pid : Pid) (os : ω) : Except IoError (List Pid) := do
  let names ← Procfs.task pid os
  pure ((names.filterMap fun name => name.bind parseI32).mergeSort fun a b => decide (a ≤ b))

/-- A stopped process with its threads. -/
structure ThreadedView (ω : Type) extends PtraceProcessView ω where
  threads : KeyMap UInt64 RemoteUnwinder

/-- The texts of the errors a view passes on. -/
structure ErrorTexts where
  errno : Errno → String
  io : IoError → String

namespace ErrorTexts

variable (texts : ErrorTexts)

def unwind : UnwindError → String
  | .io path reason => "failed to read module " ++ path ++ ": " ++ reason
  | .elf reason => "malformed or unsupported ELF module: " ++ reason
  | .symbol reason => "symbolization backend failed: " ++ reason

def remote : RemoteError → String
  | .maps pid source => "failed to read /proc/" ++ toString pid ++ "/maps: " ++ texts.io source
  | .ptrace pid source =>
    "ptrace register read failed for pid " ++ toString pid ++ ": " ++ texts.errno source
  | .unwind error => unwind error

def view : PtraceViewError → String
  | .enumerateThreads pid source =>
    "failed to enumerate threads of pid " ++ toString pid ++ ": " ++ texts.io source
  | .unwinder pid tid source =>
    "failed to prepare unwinder for thread " ++ toString tid ++ " of pid " ++ toString pid ++
      ": " ++ texts.remote source

end ErrorTexts

namespace ThreadedView

/-- Load the modules of every thread. -/
def forPid [Procfs ω] (files : ObjectFiles) (pid : Pid) (os : ω) :
    Prog PtraceViewError (ThreadedView ω) := do
  let tids ← lift ((taskIds pid os).mapError (.enumerateThreads pid))
  let threads ← tids.foldlM (fun threads tid => do
    let unwinder ← mapErr (.unwinder pid tid) (RemoteUnwinder.forPid files tid os)
    pure (threads.insert (UInt64.ofInt tid) unwinder)) (∅ : KeyMap UInt64 RemoteUnwinder)
  pure { pid, os, threads }

variable (arch : Arch) [Ptrace arch ω] [Procfs ω] (texts : ErrorTexts) (iterFrames : IterFrames)
  (v : ThreadedView ω)

def threadIds : List ThreadId := v.threads.keys.map ThreadId.mk

def registers (thread : ThreadId) : Except DecoderError Registers :=
  match v.threads[thread.raw]? with
  | none => .error (.unknownThread thread)
  | some unwinder =>
    match unwinder.registers v.os with
    | .ok regs => .ok { pc := regs.pc, sp := regs.sp }
    | .error e => .error (.registerReadFailed thread (texts.remote e))

/-- The frame at an index of a stack. Only the leaf has a stack pointer that is known. -/
def physicalFrame (leafSp : UInt64) (frame : SymbolizedFrame) (index : Nat) : PhysicalFrame where
  pc := frame.address
  sp := if index = 0 then leafSp else 0
  functionName := frame.function
  location := frame.file.map fun path => { path, line := frame.line.getD 0, column := 0 }

/-- The stack of a thread. That its symbolizer overflows is ruled out by how it was loaded, see
`backtrace_ne_overflow`. -/
def physicalFrames (thread : ThreadId) : Except DecoderError (List PhysicalFrame) :=
  match v.threads[thread.raw]? with
  | none => .error (.unknownThread thread)
  | some unwinder => do
    let leaf ← v.registers texts thread
    match unwinder.backtraceNow arch iterFrames v.os with
    | .ok frames => .ok (frames.zipIdx.map fun frame => physicalFrame leaf.sp frame.1 frame.2)
    | .error (.error e) => .error (.physicalFramesFailed thread (texts.remote e))
    | .error .overflow => .error (.physicalFramesFailed thread "overflow")

/-- The view as a decoder takes it; the methods that no decoder of threads calls are those of
`rest`. -/
def toProcessView (rest : ProcessView) : ProcessView :=
  { v.toPtraceProcessView.toView arch texts.errno rest with
    threadIds := v.threadIds
    registers := v.registers texts
    physicalFrames := v.physicalFrames arch texts iterFrames }

/-- The threads of a view come in order. -/
theorem ascending (rest : ProcessView) :
    NativeThreadsDecoder.Ascending (v.toProcessView arch texts iterFrames rest) := by
  refine List.pairwise_map.mpr ?_
  exact v.threads.ordered_keys.imp fun hlt => Std.compare_eq_lt.mp hlt

end ThreadedView

/-! ## Stacks without overflow -/

/-- Every module lies above its bias. -/
def AboveBias (s : Symbolizer) : Prop := ∀ m ∈ s.modules, m.baseAvma ≤ m.avmaRange.start

theorem bounds_aboveBias {segments : List Unwind.Segment} {base bias : UInt64}
    {range : Unwind.AddressRange} (h : Unwind.bounds segments base = .ok (bias, range)) :
    bias ≤ range.start := by
  obtain ⟨⟨lo, hi⟩, -, hrest⟩ := Effect.except_bind_ok h
  dsimp only at hrest
  split at hrest
  · cases hrest
  · obtain ⟨start, hstart, hrest⟩ := Effect.except_bind_ok hrest
    obtain ⟨finish, -, hpure⟩ := Effect.except_bind_ok hrest
    obtain ⟨rfl, rfl⟩ := Prod.mk.inj (Except.ok.inj hpure)
    unfold add at hstart
    split at hstart
    · rename_i hfits
      rcases Except.ok.inj hstart with rfl
      rw [UInt64.le_iff_toNat_le, hfits.toNat_add]
      exact Nat.le_add_right _ _
    · cases hstart

theorem addModule_aboveBias {s s' : Symbolizer} {files : Unwind.Files} {path : String}
    {base : UInt64} (hs : AboveBias s) (h : s.addModule files path base = .ok s') :
    AboveBias s' := by
  obtain ⟨⟨bias, range⟩, hbounds, hrest⟩ := Effect.except_bind_ok h
  obtain ⟨loader, -, hpure⟩ := Effect.except_bind_ok hrest
  rcases Except.ok.inj hpure with rfl
  obtain ⟨segments, -, hbounds⟩ := Effect.except_bind_ok hbounds
  intro m hm
  rcases List.mem_append.mp hm with hm | hm
  · exact hs m hm
  · rw [List.mem_singleton.mp hm]
    exact bounds_aboveBias hbounds

/-- Modules are loaded above their biases. -/
theorem foldlM_load_aboveBias {files : ObjectFiles} {modules : List Unwind.ModuleMapping}
    {u u' : RemoteUnwinder} (hu : AboveBias u.symbolizer)
    (h : modules.foldlM (RemoteUnwinder.load files) u = .ok u') : AboveBias u'.symbolizer := by
  refine Effect.foldlM_ok (I := fun u => AboveBias u.symbolizer) ?_ hu h
  intro u m u' hu hload
  obtain ⟨unwinder, -, hrest⟩ := Effect.except_bind_ok hload
  obtain ⟨symbolizer, hsymbolizer, hpure⟩ := Effect.except_bind_ok hrest
  rcases Except.ok.inj hpure with rfl
  rcases Unwind.orKeep_ok hsymbolizer with hadd | rfl
  · exact addModule_aboveBias hu hadd
  · exact hu

theorem new_aboveBias : AboveBias .new := by
  intro m hm
  cases hm

theorem resolve_aboveBias {s : Symbolizer} (h : AboveBias s) (avma : UInt64) :
    ∃ frames, s.resolve avma = .ok frames := by
  unfold Symbolizer.resolve
  split
  · exact ⟨[], rfl⟩
  · rename_i m hm
    have hle : m.baseAvma ≤ avma := by
      have hcontains := List.find?_some hm
      simp only [Unwind.AddressRange.contains, Bool.and_eq_true, decide_eq_true_eq] at hcontains
      exact UInt64.le_trans (h m (List.mem_of_find?_eq_some hm)) hcontains.1
    rw [sub, if_pos hle]
    exact ⟨_, rfl⟩

theorem unwindSymbolized_aboveBias {s : Symbolizer} (h : AboveBias s)
    (unwinder : Unwind.StackUnwinder) (iterFrames : IterFrames) (regs : InitialRegs)
    (readStack : UInt64 → Option UInt64) :
    ∃ frames, Unwind.unwindSymbolized unwinder s iterFrames regs readStack = .ok frames := by
  have hfold (addresses : List UInt64) (before : List SymbolizedFrame) :
      ∃ frames, addresses.foldlM (fun frames address => do
        let resolved ← s.resolve address
        pure (frames ++ resolved)) before = (.ok frames : Prog UnwindError _) := by
    induction addresses generalizing before with
    | nil => exact ⟨before, rfl⟩
    | cons address addresses ih =>
      obtain ⟨resolved, hresolved⟩ := resolve_aboveBias h address
      rw [List.foldlM_cons, hresolved]
      exact ih (before ++ resolved)
  exact hfold _ []

/-- A stack that is read with the modules of a process is resolved without overflow. -/
theorem backtrace_ne_overflow [Procfs ω] (arch : Arch) [Ptrace arch ω] {files : ObjectFiles}
    {pid : Pid} {os : ω} {u : RemoteUnwinder} (h : RemoteUnwinder.forPid files pid os = .ok u)
    (iterFrames : IterFrames) (regs : InitialRegs) (os' : ω) :
    ∃ frames, u.backtrace arch iterFrames regs os' = .ok frames := by
  obtain ⟨content, -, hfold⟩ := Effect.except_bind_ok h
  obtain ⟨frames, hframes⟩ := unwindSymbolized_aboveBias
    (foldlM_load_aboveBias new_aboveBias hfold) u.unwinder iterFrames regs (u.readU64 arch os')
  exact ⟨frames, by rw [RemoteUnwinder.backtrace, hframes]; rfl⟩

end Mirrorscope.Decoder
