import Mirrorscope.Dap.Inspect
import Mirrorscope.Linux.Machine

/-! # What a live tracee shows

A stopped program of one thread, seen through a replay backend. The maps file and the registers
of the process are up to the state of the program; so are then its stack, and everything else that
a client is shown but the pid.
-/

namespace Mirrorscope.Dap

open Checked (Prog lift lift_ok_bind mapErr)
open Decoder (ErrorTexts ProcessView ThreadedView selectDecoder taskIds backtrace_ne_overflow)
open Decoder.NativeThreadsDecoder (threadNode exists_tree flattenPreorder_of_leaves
  logicalStack_ok)
open Linux ReplayBackend
open Run (Hosted)
open Unwind (InitialRegs IterFrames ObjectFiles Procfs RemoteError RemoteUnwinder StackUnwinder
  Symbolizer SymbolizedFrame orKeep parseMaps unwindSymbolized)

variable {arch : Arch} {M : Machine arch} [Procfs (Os M)] {files : ObjectFiles}
  {iterFrames : IterFrames} {texts : ErrorTexts} {rest : ProcessView}
  {maps : M.Group → List Char} {registers : M.Group → InitialRegs}

/-- A number that the kernel gives to a process. -/
def IsProcess (p : Pid) : Prop := 0 < p ∧ p.toNat < 2 ^ 31

instance (p : Pid) : Decidable (IsProcess p) := inferInstanceAs (Decidable (_ ∧ _))

/-- What the kernel shows of a process is up to the state of its program: the maps file, and the
leaf registers once it is stopped. The process has one thread. -/
structure Shows (M : Machine arch) [Procfs (Os M)] (maps : M.Group → List Char)
    (registers : M.Group → InitialRegs) : Prop where
  maps : ∀ {os : Os M} {p : Pid} {i : Nat} {img : Image M}, os.At p i 0 img →
    Procfs.maps p os = .ok (maps img.group)
  registers : ∀ {os : Os M} {p : Pid} {i : Nat} {img : Image M}, os.At p i 0 img →
    img.stops 0 = none → Procfs.registers p os = .ok (registers img.group)
  alone : ∀ {os : Os M} {p : Pid} {i : Nat} {img : Image M}, os.At p i 0 img → IsProcess p →
    taskIds p os = .ok [p]

/-- A kernel that shows a program by its state. -/
abbrev procfsOf (maps : M.Group → List Char) (registers : M.Group → InitialRegs) :
    Procfs (Os M) where
  maps p os :=
    match os.find p with
    | some found => .ok (maps found.2.2.group)
    | none => .error ⟨2⟩
  task p os :=
    match os.find p with
    | some _ => .ok [some (Nat.toDigits 10 p.toNat)]
    | none => .error ⟨2⟩
  registers p os :=
    match os.find p with
    | some found =>
      if (found.2.2.stops found.2.1).isSome then .error .ESRCH
      else .ok (registers found.2.2.group)
    | none => .error .ESRCH

omit [Procfs (Os M)] in
theorem shows_procfsOf (maps : M.Group → List Char) (registers : M.Group → InitialRegs) :
    @Shows arch M (procfsOf maps registers) maps registers := by
  refine @Shows.mk arch M (procfsOf maps registers) maps registers ?_ ?_ ?_
  · intro os p i img hat
    simp [Procfs.maps, hat.find]
  · intro os p i img hat hready
    simp [Procfs.registers, hat.find, hready]
  · intro os p i img hat hpid
    have hnat : (p.toNat : Int) = p := Int.toNat_of_nonneg (Int.le_of_lt hpid.1)
    have hparse := Decoder.parseI32_toDigits hpid.2
    simp [taskIds, Procfs.task, hat.find, hparse, hnat]

/-- The stack reader of a process with this maps file. -/
def readerOf (files : ObjectFiles) (content : List Char) (pid : Pid) :
    Prog RemoteError RemoteUnwinder :=
  (parseMaps content).foldlM (RemoteUnwinder.load files)
    { pid, unwinder := .new, symbolizer := .new }

theorem orKeep_cases {ε ε' α : Type} (before : α) (x : Prog ε α) :
    (∃ a, (orKeep before x : Prog ε' α) = .ok a) ∨
      (orKeep before x : Prog ε' α) = .error .overflow := by
  cases x with
  | ok a => exact .inl ⟨a, rfl⟩
  | error stop =>
    cases stop with
    | error e => exact .inl ⟨before, rfl⟩
    | overflow => exact .inr rfl

/-- Modules are loaded alike for every process, or overflow for every process. -/
theorem foldlM_load_cases (files : ObjectFiles) (modules : List Unwind.ModuleMapping)
    (unwinder : StackUnwinder) (symbolizer : Symbolizer) :
    (∃ unwinder' symbolizer', ∀ pid,
      modules.foldlM (RemoteUnwinder.load files) ⟨pid, unwinder, symbolizer⟩ =
        .ok ⟨pid, unwinder', symbolizer'⟩) ∨
    ∀ pid, modules.foldlM (RemoteUnwinder.load files) ⟨pid, unwinder, symbolizer⟩ =
      .error .overflow := by
  induction modules generalizing unwinder symbolizer with
  | nil => exact .inl ⟨unwinder, symbolizer, fun _ => rfl⟩
  | cons m modules ih =>
    have hload (pid : Pid) : RemoteUnwinder.load files ⟨pid, unwinder, symbolizer⟩ m = (do
        let unwinder ← orKeep unwinder
          (unwinder.addModule files (String.ofList m.path) (UInt64.ofNat m.base))
        let symbolizer ← orKeep symbolizer
          (symbolizer.addModule files.toFiles (String.ofList m.path) (UInt64.ofNat m.base))
        pure ⟨pid, unwinder, symbolizer⟩ : Prog RemoteError RemoteUnwinder) := rfl
    simp only [List.foldlM_cons, hload]
    rcases @orKeep_cases _ RemoteError _ unwinder
      (unwinder.addModule files (String.ofList m.path) (UInt64.ofNat m.base)) with
      ⟨unwinder₁, hunwinder⟩ | hover
    · rcases @orKeep_cases _ RemoteError _ symbolizer
        (symbolizer.addModule files.toFiles (String.ofList m.path) (UInt64.ofNat m.base)) with
        ⟨symbolizer₁, hsymbolizer⟩ | hover
      · rw [hunwinder, hsymbolizer]
        exact ih unwinder₁ symbolizer₁
      · rw [hunwinder, hover]
        exact .inr fun _ => rfl
    · rw [hover]
      exact .inr fun _ => rfl

/-- A word of the memory of an image. -/
def wordAt (img : Image M) (addr : UInt64) : Option UInt64 :=
  match M.read img.group 0 addr 8 with
  | .ok copied => some (UInt64.ofNat (LittleEndian.decode (buffer 8 copied)))
  | .error _ => none

/-- The one thread of a process. -/
def oneThread (pid : Pid) : Value :=
  .object [("threads", .array [.object [("id", .ofU64 1),
    ("name", .string (threadNode ⟨UInt64.ofInt pid⟩).name)]])]

/-- The one task of a process. -/
def oneTask (pid : Pid) : Value :=
  .object [("tasks", .array [serializeTask ⟨UInt64.ofInt pid⟩
    (threadNode ⟨UInt64.ofInt pid⟩)])]

/-- The stack that resolved frames are shown as. -/
def shownStack (regs : InitialRegs) (frames : List SymbolizedFrame) : Value :=
  stackFrames ((frames.zipIdx.map fun frame =>
    ThreadedView.physicalFrame regs.sp frame.1 frame.2).map .fromPhysical)

/-- What the registers scope shows. -/
def shownRegisters (regs : InitialRegs) : Value :=
  .object [("variables", .array [registerVar "pc" regs.pc, registerVar "sp" regs.sp,
    registerVar "fp" regs.fp, registerVar "lr" regs.lr, localsNote])]

variable {b : Hosted ReplayBackend (Os M)} {i : Nat} {img : Image M}

omit [Procfs (Os M)] in
theorem traceePid_live (hlive : b.object.exited = none) :
    traceePid b.object = .ok b.object.session.pid := by
  rw [traceePid, hlive]
  rfl

theorem forPid_readerOf (hshows : Shows M maps registers)
    (hat : b.host.At b.object.session.pid i 0 img) :
    RemoteUnwinder.forPid files b.object.session.pid b.host =
      readerOf files (maps img.group) b.object.session.pid := by
  rw [RemoteUnwinder.forPid, hshows.maps hat]
  rfl

/-- A live tracee whose modules were loaded. -/
structure Loaded (files : ObjectFiles) (iterFrames : IterFrames) (maps : M.Group → List Char)
    (registers : M.Group → InitialRegs) (img : Image M) (unwinder : StackUnwinder)
    (symbolizer : Symbolizer) (frames : List SymbolizedFrame) : Prop where
  reader : ∀ pid, readerOf files (maps img.group) pid = .ok ⟨pid, unwinder, symbolizer⟩
  frames : unwindSymbolized unwinder symbolizer iterFrames (registers img.group)
    (wordAt img) = .ok frames

variable {unwinder : StackUnwinder} {symbolizer : Symbolizer}
  {frames : List SymbolizedFrame}

omit [Procfs (Os M)] in
theorem readU64_wordAt (hat : b.host.At b.object.session.pid i 0 img) :
    RemoteUnwinder.readU64 arch ⟨b.object.session.pid, unwinder, symbolizer⟩ b.host =
      wordAt img := by
  funext addr
  have hread : (Ptrace.processVmReadv arch b.object.session.pid addr 8 b.host).1 =
      M.read img.group 0 addr 8 := by
    change (Os.onImage _ _ b.host).1 = _
    rw [hat.onImage]
  rw [RemoteUnwinder.readU64, hread]
  rfl

/-- The view of the tracee. -/
def viewOf (b : Hosted ReplayBackend (Os M)) (unwinder : StackUnwinder) (symbolizer : Symbolizer) :
    ThreadedView (Os M) where
  pid := b.object.session.pid
  os := b.host
  threads := (∅ : KeyMap UInt64 RemoteUnwinder).insert (UInt64.ofInt b.object.session.pid)
    ⟨b.object.session.pid, unwinder, symbolizer⟩

/-- The view has the one stack reader there is. -/
theorem forPid_alone (hshows : Shows M maps registers)
    (hat : b.host.At b.object.session.pid i 0 img) (hpid : IsProcess b.object.session.pid) :
    ThreadedView.forPid files b.object.session.pid b.host = (do
      let unwinder ← mapErr (.unwinder b.object.session.pid b.object.session.pid)
        (readerOf files (maps img.group) b.object.session.pid)
      pure { pid := b.object.session.pid
             os := b.host
             threads := (∅ : KeyMap UInt64 RemoteUnwinder).insert
               (UInt64.ofInt b.object.session.pid) unwinder }) := by
  have htids : (taskIds b.object.session.pid b.host).mapError
      (Decoder.PtraceViewError.enumerateThreads b.object.session.pid) =
      .ok [b.object.session.pid] := by
    rw [hshows.alone hat hpid]
    rfl
  rw [ThreadedView.forPid, htids, lift_ok_bind, List.foldlM_cons, forPid_readerOf hshows hat]
  cases readerOf files (maps img.group) b.object.session.pid <;> rfl

theorem registers_unwinder (hshows : Shows M maps registers)
    (hat : b.host.At b.object.session.pid i 0 img) (hready : img.stops 0 = none) :
    RemoteUnwinder.registers ⟨b.object.session.pid, unwinder, symbolizer⟩ b.host =
      .ok (registers img.group) := by
  rw [RemoteUnwinder.registers, hshows.registers hat hready]
  rfl

/-! ## What is answered -/

section Answers

variable (hshows : Shows M maps registers) (hlive : b.object.exited = none)
  (hat : b.host.At b.object.session.pid i 0 img) (hpid : IsProcess b.object.session.pid)

include hshows hlive hat hpid

/-- Where the modules of the tracee overflow, nothing is answered. -/
theorem decode_overflow (hover : ∀ pid, readerOf files (maps img.group) pid = .error .overflow) :
    decode arch files iterFrames texts rest b = .error .overflow := by
  rw [decode, traceePid_live hlive, lift_ok_bind, forPid_alone hshows hat hpid, hover]
  rfl

variable (hloaded : Loaded files iterFrames maps registers img unwinder symbolizer frames)

include hloaded

theorem decode_loaded : decode arch files iterFrames texts rest b = .ok
    (selectDecoder, (viewOf b unwinder symbolizer).toProcessView arch texts iterFrames rest) := by
  rw [decode, traceePid_live hlive, lift_ok_bind, forPid_alone hshows hat hpid, hloaded.reader]
  rfl

variable (texts rest) in
/-- The one task of the tracee, and its tree. -/
theorem decodeTasks_loaded : ∃ tree, decodeTasks arch files iterFrames texts rest b = .ok
      (selectDecoder, (viewOf b unwinder symbolizer).toProcessView arch texts iterFrames rest,
        tree) ∧
    tree.roots = [⟨UInt64.ofInt b.object.session.pid⟩] ∧ (∀ id, tree.children id = []) ∧
    tree.node ⟨UInt64.ofInt b.object.session.pid⟩ =
      some (threadNode ⟨UInt64.ofInt b.object.session.pid⟩) := by
  have hids : ((viewOf b unwinder symbolizer).toProcessView arch texts iterFrames rest).threadIds =
      [⟨UInt64.ofInt b.object.session.pid⟩] := by
    change (viewOf b unwinder symbolizer).threads.keys.map Decoder.ThreadId.mk = _
    rw [viewOf, KeyMap.keys_singleton]
    rfl
  obtain ⟨tree, htree, hroots, hchildren, hnode⟩ :=
    exists_tree ((viewOf b unwinder symbolizer).ascending arch texts iterFrames rest)
  refine ⟨tree, ?_, ?_, hchildren, ?_⟩
  · rw [decodeTasks, decode_loaded hshows hlive hat hpid hloaded, Effect.except_ok_bind]
    change (lift ((Decoder.NativeThreadsDecoder.decodeTasks _).mapError _) >>= _) = _
    rw [htree]
    rfl
  · rw [hroots, hids]
    rfl
  · exact hnode _ (by rw [hids]; exact List.mem_singleton_self _)

theorem threads_loaded :
    threads arch files iterFrames texts rest b = .ok (oneThread b.object.session.pid) := by
  obtain ⟨tree, htasks, hroots, -, hnode⟩ :=
    decodeTasks_loaded texts rest hshows hlive hat hpid hloaded
  rw [threads, htasks, Effect.except_ok_bind]
  change Except.ok (threadList tree) = _
  rw [threadList, hroots, List.zipIdx_singleton, List.map_singleton, hnode]
  rfl

theorem taskTimeline_loaded :
    taskTimeline arch files iterFrames texts rest b = .ok (oneTask b.object.session.pid) := by
  obtain ⟨tree, htasks, hroots, hchildren, hnode⟩ :=
    decodeTasks_loaded texts rest hshows hlive hat hpid hloaded
  rw [taskTimeline, htasks, Effect.except_ok_bind]
  change Except.ok (taskList tree _) = _
  rw [flattenPreorder_of_leaves hchildren, hroots, taskList, Option.getD_some,
    Decoder.TaskTree.taskTimeline, List.filterMap_cons, hnode]
  rfl

variable (hready : img.stops 0 = none)

include hready

omit hlive hpid in
theorem physicalFrames_loaded : (viewOf b unwinder symbolizer).physicalFrames arch texts iterFrames
      ⟨UInt64.ofInt b.object.session.pid⟩ =
    .ok (frames.zipIdx.map fun frame =>
      ThreadedView.physicalFrame (registers img.group).sp frame.1 frame.2) := by
  have hback : RemoteUnwinder.backtraceNow arch iterFrames
      ⟨b.object.session.pid, unwinder, symbolizer⟩ b.host = .ok frames := by
    rw [RemoteUnwinder.backtraceNow, registers_unwinder hshows hat hready]
    change RemoteUnwinder.backtrace arch iterFrames _ (registers img.group) b.host = _
    rw [RemoteUnwinder.backtrace, readU64_wordAt hat, hloaded.frames]
    rfl
  have hview : (viewOf b unwinder symbolizer).threads[UInt64.ofInt b.object.session.pid]? =
      some ⟨b.object.session.pid, unwinder, symbolizer⟩ := by
    rw [viewOf, KeyMap.get_insert, if_pos rfl]
  have hleaf : (viewOf b unwinder symbolizer).registers texts
      ⟨UInt64.ofInt b.object.session.pid⟩ =
      .ok { pc := (registers img.group).pc, sp := (registers img.group).sp } := by
    simp only [ThreadedView.registers, hview]
    rw [show (viewOf b unwinder symbolizer).os = b.host from rfl,
      registers_unwinder hshows hat hready]
  simp only [ThreadedView.physicalFrames, hview, hleaf, Effect.except_ok_bind]
  rw [show (viewOf b unwinder symbolizer).os = b.host from rfl, hback]

theorem stackTrace_loaded (arguments : Value) :
    stackTrace arch files iterFrames texts rest arguments b =
      .ok (shownStack (registers img.group) frames) := by
  obtain ⟨tree, htasks, hroots, -, -⟩ :=
    decodeTasks_loaded texts rest hshows hlive hat hpid hloaded
  have hstack : selectDecoder.logicalStack
      ((viewOf b unwinder symbolizer).toProcessView arch texts iterFrames rest)
      ⟨UInt64.ofInt b.object.session.pid⟩ =
      .ok ((frames.zipIdx.map fun frame =>
        ThreadedView.physicalFrame (registers img.group).sp frame.1 frame.2).map
          .fromPhysical) :=
    logicalStack_ok (physicalFrames_loaded hshows hat hloaded hready)
  rw [stackTrace, htasks, Effect.except_ok_bind]
  dsimp only
  rw [hroots, List.head?_cons]
  dsimp only
  rw [hstack]
  rfl

omit hpid in
theorem variables_loaded {arguments : Value}
    (href : (arguments.get "variablesReference").bind Value.asU64 = some registersRef) :
    «variables» files texts arguments b = .ok (shownRegisters (registers img.group)) := by
  rw [«variables», if_neg (not_not_intro href), traceePid_live hlive, lift_ok_bind,
    forPid_readerOf hshows hat, hloaded.reader]
  change (lift ((RemoteUnwinder.registers _ b.host).mapError _) >>= _) = _
  rw [registers_unwinder hshows hat hready]
  rfl

end Answers

/-- What a client is shown of a tracee: a stack and the registers, if there is anything to see,
and one thread and one task, which the pid names. -/
structure Inspected (files : ObjectFiles) (iterFrames : IterFrames) (texts : ErrorTexts)
    (rest : ProcessView) (b : Hosted ReplayBackend (Os M))
    (seen : Prog BackendError (Value × Value)) : Prop where
  threads : threads arch files iterFrames texts rest b =
    seen.map fun _ => oneThread b.object.session.pid
  taskTimeline : taskTimeline arch files iterFrames texts rest b =
    seen.map fun _ => oneTask b.object.session.pid
  stackTrace : ∀ arguments,
    stackTrace arch files iterFrames texts rest arguments b = seen.map Prod.fst
  registers : ∀ arguments,
    (arguments.get "variablesReference").bind Value.asU64 = some registersRef →
      «variables» files texts arguments b = seen.map Prod.snd

/-- Where there is no view, every request that needs one fails alike. -/
theorem inspected_of_error {stop : Checked.Stop BackendError}
    (hdecode : decode arch files iterFrames texts rest b = .error stop)
    (hregisters : ∀ arguments,
      (arguments.get "variablesReference").bind Value.asU64 = some registersRef →
        «variables» files texts arguments b = .error stop) :
    Inspected files iterFrames texts rest b (.error stop) := by
  have htasks : decodeTasks arch files iterFrames texts rest b = .error stop := by
    rw [decodeTasks, hdecode]
    rfl
  constructor
  · rw [threads, htasks]
    rfl
  · rw [taskTimeline, htasks]
    rfl
  · intro arguments
    rw [stackTrace, htasks]
    rfl
  · exact hregisters

/-- What is shown of a live tracee is up to the state of its program. -/
theorem exists_inspected (files : ObjectFiles) (iterFrames : IterFrames) (texts : ErrorTexts)
    (rest : ProcessView) (hshows : Shows M maps registers) (hready : img.stops 0 = none) :
    ∃ seen, seen ≠ .error (.error .noTracee) ∧
      ∀ (b : Hosted ReplayBackend (Os M)) (i : Nat), b.object.exited = none →
        b.host.At b.object.session.pid i 0 img → IsProcess b.object.session.pid →
          Inspected files iterFrames texts rest b seen := by
  rcases foldlM_load_cases files (parseMaps (maps img.group)) .new .new with
    ⟨unwinder, symbolizer, hload⟩ | hover
  · obtain ⟨frames, hframes⟩ := Decoder.unwindSymbolized_aboveBias
      (Decoder.foldlM_load_aboveBias Decoder.new_aboveBias (hload 0)) unwinder iterFrames
      (registers img.group) (wordAt img)
    have hloaded : Loaded files iterFrames maps registers img unwinder symbolizer frames :=
      ⟨hload, hframes⟩
    refine ⟨.ok (shownStack (registers img.group) frames, shownRegisters (registers img.group)),
      nofun, fun b i hlive hat hpid => ?_⟩
    exact {
      threads := threads_loaded hshows hlive hat hpid hloaded
      taskTimeline := taskTimeline_loaded hshows hlive hat hpid hloaded
      stackTrace := stackTrace_loaded hshows hlive hat hpid hloaded hready
      registers := fun _ href => variables_loaded hshows hlive hat hloaded hready href }
  · refine ⟨.error .overflow, nofun, fun b i hlive hat hpid => ?_⟩
    have hdecode : decode arch files iterFrames texts rest b = .error .overflow :=
      decode_overflow hshows hlive hat hpid hover
    refine inspected_of_error hdecode ?_
    intro arguments href
    rw [«variables», if_neg (not_not_intro href), traceePid_live hlive, lift_ok_bind,
      forPid_readerOf hshows hat, readerOf, hover]
    rfl

omit [Procfs (Os M)] in
theorem traceePid_gone (hgone : b.object.exited ≠ none) :
    traceePid b.object = .error .noTracee := by
  rw [traceePid, if_pos (Option.isSome_iff_ne_none.mpr hgone)]

/-- Nothing is shown of a tracee that is gone. -/
theorem inspected_gone (hgone : b.object.exited ≠ none) :
    Inspected files iterFrames texts rest b (.error (.error .noTracee)) := by
  refine inspected_of_error ?_ ?_
  · rw [decode, traceePid_gone hgone]
    rfl
  · intro arguments href
    rw [«variables», if_neg (not_not_intro href), traceePid_gone hgone]
    rfl

end Mirrorscope.Dap
