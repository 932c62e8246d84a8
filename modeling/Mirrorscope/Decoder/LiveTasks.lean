import Mirrorscope.Decoder.OwnedTasks
import Mirrorscope.Decoder.TaskWalk

/-! # The live tasks of a process

Every thread that has entered a runtime leads to that runtime's tasks, and several threads may
lead to the same ones. The tasks are gathered by the address of their header, so that neither
the order of the threads nor how many share a runtime shows in the result.

The gathering is a fold over the threads, and `Gathers` is what it has gathered after some of
them:
* `LeadsTo`, `Discovered`: a thread leads to the tasks of its runtime.
* `Gathers.skip`, `Gathers.enter`: a thread outside every runtime, and one inside of one.
* `Enumerates`: the roots of a set of tasks, by their headers.
* `enumerateRoots_stable`: they do not depend on the order of the threads.
-/

namespace Mirrorscope.Decoder.AsyncRust

/-! ## Thread-local storage -/

def aarch64TcbSize : UInt64 := 16

/-- Where the static thread-local block is with respect to the thread pointer: above it, past
the control block, or below it. -/
inductive TlsVariant where
  | variantI
  | variantII
deriving DecidableEq, Repr

/-- Quotient rounded up. -/
def divCeil (n d : UInt64) : UInt64 := if n % d > 0 then n / d + 1 else n / d

def alignUp (value align : UInt64) : UInt64 :=
  if align ≤ 1 then value else divCeil value align * align

def staticTlsAddress (variant : TlsVariant) (threadPointer tlsOffset tlsAlign blockSize : UInt64) :
    UInt64 :=
  match variant with
  | .variantI => threadPointer + alignUp aarch64TcbSize (max tlsAlign 1) + tlsOffset
  | .variantII => threadPointer - alignUp blockSize (max tlsAlign 1) + tlsOffset

/-! ## Facts of a binary -/

/-- What is known of a binary: where `CONTEXT` is, and the future type of each poll function. -/
structure BinaryFacts where
  version : TokioVersion
  contextTlsOffset : UInt64
  tlsAlign : UInt64
  tlsBlockSize : UInt64
  minLoadVaddr : UInt64
  pollTypes : List (UInt64 × String)

def BinaryFacts.futureTypeFor (facts : BinaryFacts) (staticAddr : UInt64) : Option String :=
  (facts.pollTypes.find? fun entry => entry.1 = staticAddr).map Prod.snd

/-! ## Enumeration -/

structure EnumerationPlan where
  facts : BinaryFacts
  layout : TokioRuntimeLayout

/-- What the threads so far have led to. -/
structure Gathered where
  byHeader : KeyMap UInt64 RawTask
  anyThreadPointer : Bool
  anyRuntime : Bool

namespace EnumerationPlan

variable (plan : EnumerationPlan) (variant : TlsVariant) (view : ProcessView)

/-- How far the executable was moved when it was loaded. -/
def loadBias : Except EnumerateError UInt64 :=
  match view.executableBase with
  | some base => pure (base - plan.facts.minLoadVaddr)
  | none => throw .loadBaseUnavailable

/-- The address of a thread's `CONTEXT`. -/
def contextAddr (tp : UInt64) : UInt64 :=
  staticTlsAddress variant tp plan.facts.contextTlsOffset plan.facts.tlsAlign
    plan.facts.tlsBlockSize

/-- Walk the tasks of one thread's runtime. -/
def visitThread (acc : Gathered) (tid : ThreadId) : Except EnumerateError Gathered := do
  match ← (view.threadPointer tid).mapError fun e => .implausibleRuntime e.display with
  | none => pure acc
  | some tp => do
    let acc := { acc with anyThreadPointer := true }
    match ← walkContext view plan.layout (plan.contextAddr variant tp) [] with
    | (true, raw) =>
      pure { acc with
        anyRuntime := true
        byHeader := raw.foldl (fun byHeader task => byHeader.insert task.header task) acc.byHeader }
    | (false, _) => pure acc

/-- The tasks of all threads, by header. -/
def collectRaw : Except EnumerateError (List RawTask) := do
  let acc ← view.threadIds.foldlM (plan.visitThread variant view)
    { byHeader := ∅, anyThreadPointer := false, anyRuntime := false }
  if ¬ acc.anyThreadPointer then throw .threadPointerUnavailable
  else if ¬ acc.anyRuntime then throw .noRuntimeHandle
  else pure acc.byHeader.values

/-- Number the tasks with a future type that can be decoded, from `nextId` on. -/
def rootsFromRaw (loadBias : UInt64) (layouts : AsyncLayouts) :
    UInt64 → List RawTask → List TaskRoot
  | _, [] => []
  | nextId, task :: raw =>
    match plan.facts.futureTypeFor (task.pollRuntime - loadBias) with
    | none => rootsFromRaw loadBias layouts nextId raw
    | some typeName =>
      if ¬ layouts.isCoroutine typeName then rootsFromRaw loadBias layouts nextId raw
      else
        { id := nextId, base := task.future, typeName, headerAddr := some task.header } ::
          rootsFromRaw loadBias layouts (nextId + 1) raw

/-- The live tasks that can be decoded. -/
def enumerateRoots (layouts : AsyncLayouts) : Except EnumerateError (List TaskRoot) := do
  let loadBias ← plan.loadBias view
  let raw ← plan.collectRaw variant view
  pure (plan.rootsFromRaw loadBias layouts 1 raw)

end EnumerationPlan

/-! ## A task is known by its header -/

section Known

variable {view : ProcessView} {layout : TokioRuntimeLayout}

/-- The entry says of its header what the memory says. -/
def Known (view : ProcessView) (layout : TokioRuntimeLayout) (task : RawTask) : Prop :=
  task.future = task.header + layout.futureOffset ∧
    ∃ vtable, read view (task.header + layout.headerVtable) = .ok vtable ∧
      read view (vtable + layout.vtablePoll) = .ok task.pollRuntime

theorem Known.eq {task task' : RawTask} (h : Known view layout task)
    (h' : Known view layout task') (hheader : task.header = task'.header) : task = task' := by
  rcases h with ⟨hfuture, vtable, hvtable, hpoll⟩
  rcases h' with ⟨hfuture', vtable', hvtable', hpoll'⟩
  rw [hheader] at hfuture hvtable
  rcases Except.ok.inj (hvtable.symm.trans hvtable') with rfl
  rcases Except.ok.inj (hpoll.symm.trans hpoll') with hsame
  cases task
  cases task'
  simp_all

theorem walkShard_known {node : UInt64} {out out' : List RawTask}
    (hout : ∀ task ∈ out, Known view layout task)
    (h : walkShard view layout node out = .ok out') : ∀ task ∈ out', Known view layout task := by
  induction node, out using walkShard.induct layout with
  | case1 out =>
    rw [walkShard, if_pos rfl] at h
    rcases Except.ok.inj h with rfl
    exact hout
  | case2 node out hnode hfull =>
    rw [walkShard, if_neg hnode, dif_pos hfull] at h
    cases h
  | case3 node out hnode hroom ih =>
    rw [walkShard, if_neg hnode, dif_neg hroom] at h
    rcases Effect.except_bind_ok h with ⟨vtable, hvtable, h⟩
    rcases Effect.except_bind_ok h with ⟨pollRuntime, hpoll, h⟩
    rcases Effect.except_bind_ok h with ⟨trailerOffset, -, h⟩
    rcases Effect.except_bind_ok h with ⟨next, -, h⟩
    refine ih pollRuntime next ?_ h
    intro task htask
    rcases List.mem_append.mp htask with htask | htask
    · exact hout task htask
    · rcases List.mem_singleton.mp htask with rfl
      exact ⟨rfl, vtable, hvtable, hpoll⟩

theorem walkContext_known {contextAddr : UInt64} {found : Bool} {raw : List RawTask}
    (h : walkContext view layout contextAddr [] = .ok (found, raw)) :
    ∀ task ∈ raw, Known view layout task := by
  rcases Effect.except_bind_ok h with ⟨owned, -, h⟩
  cases owned with
  | none =>
    rcases Prod.mk.inj (Except.ok.inj h) with ⟨-, rfl⟩
    intro task htask
    cases htask
  | some owned =>
    rcases Effect.except_bind_ok h with ⟨out, hcollect, h⟩
    rcases Prod.mk.inj (Except.ok.inj h) with ⟨-, rfl⟩
    rcases Effect.except_bind_ok hcollect with ⟨dataPtr, -, hcollect⟩
    rcases Effect.except_bind_ok hcollect with ⟨len, -, hcollect⟩
    split at hcollect
    · cases hcollect
    · refine Effect.foldlM_ok (I := fun out => ∀ task ∈ out, Known view layout task) ?_ ?_ hcollect
      · intro out shard out' hout hvisit
        rcases Effect.except_bind_ok hvisit with ⟨head, -, hshard⟩
        exact walkShard_known hout hshard
      · intro task htask
        cases htask

/-! ### The walk reads nothing but memory -/

variable {view' : ProcessView} (hmemory : view.readMemory = view'.readMemory)
include hmemory

theorem readU64_congr : readU64 view = readU64 view' := by
  funext addr
  rw [readU64, readU64, hmemory]

theorem read_congr : read view = read view' := by
  funext addr
  rw [read, read, readU64_congr hmemory]

theorem walkShard_congr (node : UInt64) (out : List RawTask) :
    walkShard view layout node out = walkShard view' layout node out := by
  induction node, out using walkShard.induct layout with
  | case1 out => rw [walkShard, if_pos rfl, walkShard, if_pos rfl]
  | case2 node out hnode hfull =>
    rw [walkShard, if_neg hnode, dif_pos hfull, walkShard, if_neg hnode, dif_pos hfull]
  | case3 node out hnode hroom ih =>
    rw [walkShard, if_neg hnode, dif_neg hroom, walkShard, if_neg hnode, dif_neg hroom,
      read_congr hmemory]
    refine bind_congr fun vtable => bind_congr fun pollRuntime => bind_congr fun _ => ?_
    exact bind_congr fun next => ih pollRuntime next

theorem walkContext_congr (contextAddr : UInt64) (out : List RawTask) :
    walkContext view layout contextAddr out = walkContext view' layout contextAddr out := by
  have howned : ownedTasksAddr view layout contextAddr = ownedTasksAddr view' layout contextAddr := by
    rw [ownedTasksAddr, ownedTasksAddr, readU64_congr hmemory]
  have hvisit : visitShard view layout = visitShard view' layout := by
    funext dataPtr out shard
    rw [visitShard, visitShard, read_congr hmemory]
    exact bind_congr fun head => walkShard_congr hmemory head out
  rw [walkContext, walkContext, howned]
  refine bind_congr fun owned => ?_
  cases owned with
  | none => rfl
  | some owned =>
    dsimp only
    rw [collectFromOwned, collectFromOwned, read_congr hmemory, hvisit]

end Known

/-! ## What the threads lead to

All that is gathered is told by the set of answers to `thread_pointer`. In this section `walk`
is the walk from a thread pointer.
-/

section Gather

/-- The walk from a thread pointer. -/
abbrev ThreadWalk : Type := UInt64 → Except EnumerateError (Bool × List RawTask)

/-- An answer to `thread_pointer`. -/
abbrev Pointer : Type := Except DecoderError (Option UInt64)

variable (walk : ThreadWalk)

/-- The thread can be looked at: it has no pointer, or one from which the walk succeeds. -/
def Listed (pointer : Pointer) : Prop :=
  ∃ tp?, pointer = .ok tp? ∧ ∀ tp, tp? = some tp → ∃ result, walk tp = .ok result

variable (pointers : List Pointer)

/-- One of the threads has entered a runtime with these tasks. -/
def LeadsTo (raw : List RawTask) : Prop :=
  ∃ tp, .ok (some tp) ∈ pointers ∧ walk tp = .ok (true, raw)

/-- One of the threads leads to this task. -/
def Discovered (task : RawTask) : Prop := ∃ raw, LeadsTo walk pointers raw ∧ task ∈ raw

/-- The threads with these pointers have led to this. -/
structure Gathers (acc : Gathered) : Prop where
  pointer : acc.anyThreadPointer = true ↔ ∃ tp, .ok (some tp) ∈ pointers
  runtime : acc.anyRuntime = true ↔ ∃ raw, LeadsTo walk pointers raw
  tasks : ∀ header task, acc.byHeader[header]? = some task ↔
    task.header = header ∧ Discovered walk pointers task

variable {walk pointers}

theorem leadsTo_snoc {pointer : Pointer} {raw : List RawTask} :
    LeadsTo walk (pointers ++ [pointer]) raw ↔ LeadsTo walk pointers raw ∨
      ∃ tp, pointer = .ok (some tp) ∧ walk tp = .ok (true, raw) := by
  unfold LeadsTo
  constructor
  · rintro ⟨tp, hmem, hwalk⟩
    rcases List.mem_append.mp hmem with hmem | hmem
    · exact .inl ⟨tp, hmem, hwalk⟩
    · exact .inr ⟨tp, (List.mem_singleton.mp hmem).symm, hwalk⟩
  · rintro (⟨tp, hmem, hwalk⟩ | ⟨tp, rfl, hwalk⟩)
    · exact ⟨tp, List.mem_append_left _ hmem, hwalk⟩
    · exact ⟨tp, List.mem_append_right _ List.mem_cons_self, hwalk⟩

/-- A thread that leads to no runtime. -/
theorem Gathers.skip {acc : Gathered} (h : Gathers walk pointers acc) {pointer : Pointer}
    (hno : ∀ tp raw, pointer = .ok (some tp) → walk tp ≠ .ok (true, raw)) {any : Bool}
    (hany : any = true ↔ acc.anyThreadPointer = true ∨ ∃ tp, pointer = .ok (some tp)) :
    Gathers walk (pointers ++ [pointer]) { acc with anyThreadPointer := any } := by
  -- The thread leads nowhere, so what is led to is the same.
  have hsame : ∀ raw, LeadsTo walk (pointers ++ [pointer]) raw ↔ LeadsTo walk pointers raw := by
    intro raw
    rw [leadsTo_snoc]
    constructor
    · rintro (hleads | ⟨tp, hpointer, hwalk⟩)
      · exact hleads
      · exact absurd hwalk (hno tp raw hpointer)
    · exact .inl
  constructor
  · rw [hany, h.pointer]
    simp only [List.mem_append, List.mem_singleton]
    constructor
    · rintro (⟨tp, hmem⟩ | ⟨tp, rfl⟩)
      · exact ⟨tp, .inl hmem⟩
      · exact ⟨tp, .inr rfl⟩
    · rintro ⟨tp, hmem | heq⟩
      · exact .inl ⟨tp, hmem⟩
      · exact .inr ⟨tp, heq.symm⟩
  · rw [h.runtime]
    exact exists_congr fun raw => (hsame raw).symm
  · intro header task
    rw [h.tasks]
    unfold Discovered
    simp only [hsame]

/-- A thread that leads to a runtime. -/
theorem Gathers.enter {acc : Gathered} (h : Gathers walk pointers acc) {tp : UInt64}
    {raw : List RawTask} (hwalk : walk tp = .ok (true, raw)) {P : RawTask → Prop}
    (hP : ∀ t u, P t → P u → t.header = u.header → t = u)
    (hknown : ∀ tp raw, walk tp = .ok (true, raw) → ∀ task ∈ raw, P task) :
    Gathers walk (pointers ++ [.ok (some tp)])
      { byHeader := raw.foldl (fun byHeader task => byHeader.insert task.header task) acc.byHeader
        anyThreadPointer := true
        anyRuntime := true } := by
  -- What the thread leads to is discovered now.
  have hdiscovered : ∀ task, Discovered walk (pointers ++ [.ok (some tp)]) task ↔
      Discovered walk pointers task ∨ task ∈ raw := by
    intro task
    unfold Discovered
    simp only [leadsTo_snoc]
    constructor
    · rintro ⟨raw', hleads | ⟨tp', heq, hwalk'⟩, hmem⟩
      · exact .inl ⟨raw', hleads, hmem⟩
      · rcases Option.some.inj (Except.ok.inj heq) with rfl
        rcases Prod.mk.inj (Except.ok.inj (hwalk.symm.trans hwalk')) with ⟨-, rfl⟩
        exact .inr hmem
    · rintro (⟨raw', hleads, hmem⟩ | hmem)
      · exact ⟨raw', .inl hleads, hmem⟩
      · exact ⟨raw, .inr ⟨tp, rfl, hwalk⟩, hmem⟩
  constructor
  · simp only [true_iff]
    exact ⟨tp, List.mem_append_right _ List.mem_cons_self⟩
  · simp only [true_iff]
    exact ⟨raw, leadsTo_snoc.mpr (.inr ⟨tp, rfl, hwalk⟩)⟩
  · intro header task
    -- Two tasks of one header are the same task, so it does not matter which is kept.
    have hkept : ∀ k t, acc.byHeader[k]? = some t → P t ∧ t.header = k := by
      intro k t hget
      rcases (h.tasks k t).mp hget with ⟨hheader, raw', ⟨tp', -, hwalk'⟩, hmem⟩
      exact ⟨hknown tp' raw' hwalk' t hmem, hheader⟩
    rw [KeyMap.get_foldl_insert hP (hknown tp raw hwalk) hkept, h.tasks, hdiscovered]
    tauto

/-- What is gathered is told by the set of answers. -/
theorem Gathers.byHeader_eq {pointers' : List Pointer} {acc acc' : Gathered}
    (h : Gathers walk pointers acc) (h' : Gathers walk pointers' acc')
    (hsame : ∀ pointer, pointer ∈ pointers ↔ pointer ∈ pointers') :
    acc.byHeader = acc'.byHeader := by
  refine Std.ExtTreeMap.ext_getElem? fun header => ?_
  refine Option.ext fun task => ?_
  rw [h.tasks, h'.tasks]
  unfold Discovered LeadsTo
  simp only [hsame]

end Gather

namespace EnumerationPlan

variable {plan : EnumerationPlan} {variant : TlsVariant} {view view' : ProcessView}

/-- The walk from a thread pointer, through the thread's `CONTEXT`. -/
def walkThread (plan : EnumerationPlan) (variant : TlsVariant) (view : ProcessView) : ThreadWalk :=
  fun tp => walkContext view plan.layout (plan.contextAddr variant tp) []

/-- The thread pointers of a process. -/
def pointers (view : ProcessView) : List Pointer := view.threadIds.map view.threadPointer

/-- One thread of the fold: it is skipped or entered, and what it needs to be read for that. -/
theorem visitThread_needs {before : List Pointer} {acc : Gathered}
    (h : Gathers (plan.walkThread variant view) before acc) (tid : ThreadId) :
    Effect.Needs (Listed (plan.walkThread variant view)) (fun _ => True)
      [view.threadPointer tid]
      (Gathers (plan.walkThread variant view) (before ++ [view.threadPointer tid]))
      (plan.visitThread variant view acc tid) := by
  unfold visitThread
  cases hpointer : view.threadPointer tid with
  | error e =>
    refine ⟨trivial, _, List.mem_cons_self, ?_⟩
    rintro ⟨tp?, hok, -⟩
    cases hok
  | ok tp? =>
    cases tp? with
    | none =>
      constructor
      · refine h.skip ?_ ?_
        · intro tp raw heq
          cases heq
        · simp
      · intro pointer hmem
        rcases List.mem_singleton.mp hmem with rfl
        exact ⟨none, rfl, fun tp heq => by cases heq⟩
    | some tp =>
      show Effect.Needs _ _ _ _ (plan.walkThread variant view tp >>= _)
      -- The walk from the thread pointer fails, or ends inside of a runtime or outside.
      cases hwalk : plan.walkThread variant view tp with
      | error e =>
        refine ⟨trivial, _, List.mem_cons_self, ?_⟩
        rintro ⟨tp?, hok, hlisted⟩
        rcases hlisted tp (Except.ok.inj hok).symm with ⟨result, hresult⟩
        rw [hwalk] at hresult
        cases hresult
      | ok result =>
        have hlisted : ∀ pointer ∈ [(.ok (some tp) : Pointer)],
            Listed (plan.walkThread variant view) pointer := by
          intro pointer hmem
          rcases List.mem_singleton.mp hmem with rfl
          refine ⟨some tp, rfl, ?_⟩
          intro tp' heq
          rcases Option.some.inj heq with rfl
          exact ⟨result, hwalk⟩
        rcases result with ⟨found, raw⟩
        cases found with
        | true =>
          refine ⟨?_, hlisted⟩
          exact h.enter hwalk (fun t u ht hu => ht.eq hu) fun tp raw hraw => walkContext_known hraw
        | false =>
          refine ⟨?_, hlisted⟩
          refine h.skip ?_ ?_
          · intro tp' raw' heq hfound
            rcases Option.some.inj (Except.ok.inj heq) with rfl
            rw [hwalk] at hfound
            cases hfound
          · simp

/-- The live tasks can be listed: every thread can be looked at, and one has a runtime. -/
def Listable (walk : ThreadWalk) (pointers : List Pointer) : Prop :=
  (∀ pointer ∈ pointers, Listed walk pointer) ∧ ∃ raw, LeadsTo walk pointers raw

/-- The walk over the threads. -/
theorem collectRaw_cases (plan : EnumerationPlan) (variant : TlsVariant) (view : ProcessView) :
    (Listable (plan.walkThread variant view) (pointers view) ∧
      ∃ acc, Gathers (plan.walkThread variant view) (pointers view) acc ∧
        plan.collectRaw variant view = .ok acc.byHeader.values) ∨
    (¬ Listable (plan.walkThread variant view) (pointers view) ∧
      ∃ e, plan.collectRaw variant view = .error e) := by
  -- Before any thread is visited nothing is gathered.
  have hstart : Gathers (plan.walkThread variant view) []
      { byHeader := ∅, anyThreadPointer := false, anyRuntime := false } := by
    constructor
    · simp
    · simp [LeadsTo]
    · simp [Discovered, LeadsTo]
  have hneeds : Effect.Needs (Listed (plan.walkThread variant view)) (fun _ => True)
      (view.threadIds.flatMap fun tid => [view.threadPointer tid])
      (Gathers (plan.walkThread variant view) (([] ++ view.threadIds).map view.threadPointer))
      (view.threadIds.foldlM (plan.visitThread variant view)
        { byHeader := ∅, anyThreadPointer := false, anyRuntime := false }) := by
    refine Effect.Needs.foldlM
      (I := fun before => Gathers (plan.walkThread variant view) (before.map view.threadPointer))
      ?_ hstart
    intro before tid acc hacc
    rw [List.map_append, List.map_singleton]
    exact visitThread_needs hacc tid
  rw [List.nil_append, ← List.map_eq_flatMap] at hneeds
  unfold collectRaw
  cases hfold : view.threadIds.foldlM (plan.visitThread variant view)
      { byHeader := ∅, anyThreadPointer := false, anyRuntime := false } with
  | error e =>
    rw [hfold] at hneeds
    rcases hneeds with ⟨-, pointer, hmem, hunlisted⟩
    refine .inr ⟨?_, e, rfl⟩
    intro hlistable
    exact hunlisted (hlistable.1 pointer hmem)
  | ok acc =>
    rw [hfold] at hneeds
    rcases hneeds with ⟨hgathers, hlisted⟩
    rw [Effect.except_ok_bind]
    -- Where every thread could be walked, there may still have been no pointer, or no runtime.
    by_cases hpointer : acc.anyThreadPointer = true
    · rw [if_neg (not_not.mpr hpointer)]
      by_cases hruntime : acc.anyRuntime = true
      · rw [if_neg (not_not.mpr hruntime)]
        exact .inl ⟨⟨hlisted, hgathers.runtime.mp hruntime⟩, acc, hgathers, rfl⟩
      · rw [if_pos hruntime]
        refine .inr ⟨?_, _, rfl⟩
        intro hlistable
        exact hruntime (hgathers.runtime.mpr hlistable.2)
    · rw [if_pos hpointer]
      refine .inr ⟨?_, _, rfl⟩
      rintro ⟨-, raw, tp, hmem, -⟩
      exact hpointer (hgathers.pointer.mpr ⟨tp, hmem⟩)

/-! ### Numbers -/

section Roots

variable (plan : EnumerationPlan) (loadBias : UInt64) (layouts : AsyncLayouts)

/-- The poll function of the task is known, and its future can be decoded as this type. -/
def HasType (task : RawTask) (typeName : String) : Prop :=
  plan.facts.futureTypeFor (task.pollRuntime - loadBias) = some typeName ∧
    layouts.isCoroutine typeName = true

/-- The type as which the task can be decoded. -/
def typeOf (task : RawTask) : Option String :=
  (plan.facts.futureTypeFor (task.pollRuntime - loadBias)).filter layouts.isCoroutine

theorem typeOf_eq_some {task : RawTask} {typeName : String} :
    plan.typeOf loadBias layouts task = some typeName ↔
      HasType plan loadBias layouts task typeName :=
  Option.filter_eq_some_iff

theorem rootsFromRaw_cons (nextId : UInt64) (task : RawTask) (raw : List RawTask) :
    plan.rootsFromRaw loadBias layouts nextId (task :: raw) =
      match plan.typeOf loadBias layouts task with
      | none => plan.rootsFromRaw loadBias layouts nextId raw
      | some typeName =>
        { id := nextId, base := task.future, typeName, headerAddr := some task.header } ::
          plan.rootsFromRaw loadBias layouts (nextId + 1) raw := by
  rw [rootsFromRaw, typeOf]
  cases plan.facts.futureTypeFor (task.pollRuntime - loadBias) with
  | none => rfl
  | some typeName =>
    dsimp only
    by_cases hco : layouts.isCoroutine typeName = true
    · rw [if_neg (not_not.mpr hco), Option.filter_some_pos hco]
    · rw [if_pos hco, Option.filter_some_neg (by simpa using hco)]

/-- The numbers go up from the first. -/
theorem id_rootsFromRaw (nextId : UInt64) (raw : List RawTask) {i : Nat} {root : TaskRoot}
    (h : (plan.rootsFromRaw loadBias layouts nextId raw)[i]? = some root) :
    root.id = nextId + UInt64.ofNat i := by
  induction raw generalizing nextId i with
  | nil => cases h
  | cons task raw ih =>
    rw [rootsFromRaw_cons] at h
    cases htype : plan.typeOf loadBias layouts task with
    | none =>
      rw [htype] at h
      exact ih nextId h
    | some typeName =>
      rw [htype] at h
      cases i with
      | zero =>
        rcases Option.some.inj h with rfl
        exact (UInt64.add_zero nextId).symm
      | succ i =>
        rw [ih (nextId + 1) h]
        exact succ_add_ofNat nextId i

/-- The roots are those of the tasks with a type, in order. -/
theorem headers_rootsFromRaw (nextId : UInt64) (raw : List RawTask) :
    (plan.rootsFromRaw loadBias layouts nextId raw).map TaskRoot.headerAddr =
      ((raw.filter fun task => (plan.typeOf loadBias layouts task).isSome).map
        RawTask.header).map some := by
  induction raw generalizing nextId with
  | nil => rfl
  | cons task raw ih =>
    rw [rootsFromRaw_cons, List.filter_cons]
    cases htype : plan.typeOf loadBias layouts task with
    | none =>
      dsimp only
      rw [ih]
      rfl
    | some typeName =>
      dsimp only
      rw [List.map_cons, ih]
      rfl

/-- A root is that of a task with its type. -/
theorem mem_rootsFromRaw (nextId : UInt64) (raw : List RawTask) {root : TaskRoot}
    (h : root ∈ plan.rootsFromRaw loadBias layouts nextId raw) :
    ∃ task ∈ raw, root.headerAddr = some task.header ∧ root.base = task.future ∧
      HasType plan loadBias layouts task root.typeName := by
  induction raw generalizing nextId with
  | nil => cases h
  | cons task raw ih =>
    rw [rootsFromRaw_cons] at h
    cases htype : plan.typeOf loadBias layouts task with
    | none =>
      rw [htype] at h
      rcases ih nextId h with ⟨other, hother, hroot⟩
      exact ⟨other, List.mem_cons_of_mem task hother, hroot⟩
    | some typeName =>
      rw [htype] at h
      rcases List.mem_cons.mp h with rfl | h
      · exact ⟨task, List.mem_cons_self, rfl, rfl, (plan.typeOf_eq_some loadBias layouts).mp htype⟩
      · rcases ih (nextId + 1) h with ⟨other, hother, hroot⟩
        exact ⟨other, List.mem_cons_of_mem task hother, hroot⟩

/-- What `enumerate_roots` makes of the tasks that are there. -/
structure Enumerates (discovered : RawTask → Prop) (roots : List TaskRoot) : Prop where
  numbered : ∀ i root, roots[i]? = some root → root.id = UInt64.ofNat (i + 1)
  ascending : ∃ headers : List UInt64,
    roots.map TaskRoot.headerAddr = headers.map some ∧ headers.Pairwise (· < ·)
  only : ∀ root ∈ roots, ∃ task : RawTask, discovered task ∧
    root.headerAddr = some task.header ∧ root.base = task.future ∧
    HasType plan loadBias layouts task root.typeName
  all : ∀ task : RawTask, discovered task →
    ((∃ root ∈ roots, root.headerAddr = some task.header) ↔
      ∃ typeName, HasType plan loadBias layouts task typeName)

variable {walk : ThreadWalk} {pointers : List Pointer} {acc : Gathered}

theorem mem_values (h : Gathers walk pointers acc) (task : RawTask) :
    task ∈ acc.byHeader.values ↔ Discovered walk pointers task := by
  rw [KeyMap.mem_values_iff]
  constructor
  · rintro ⟨header, hget⟩
    exact ((h.tasks header task).mp hget).2
  · intro hdiscovered
    exact ⟨task.header, (h.tasks task.header task).mpr ⟨rfl, hdiscovered⟩⟩

theorem enumerates_rootsFromRaw (h : Gathers walk pointers acc) :
    Enumerates plan loadBias layouts (Discovered walk pointers)
      (plan.rootsFromRaw loadBias layouts 1 acc.byHeader.values) := by
  have hkeyed : ∀ (header : UInt64) (task : RawTask), acc.byHeader[header]? = some task →
      task.header = header := fun header task hget => ((h.tasks header task).mp hget).1
  constructor
  case numbered =>
    intro i root hget
    rw [id_rootsFromRaw plan loadBias layouts 1 _ hget, UInt64.ofNat_add, UInt64.add_comm]
    rfl
  case ascending =>
    refine ⟨_, headers_rootsFromRaw plan loadBias layouts 1 _, ?_⟩
    rw [List.pairwise_map]
    exact ((KeyMap.pairwise_values hkeyed).filter _).imp fun hlt => Std.compare_eq_lt.mp hlt
  case only =>
    intro root hroot
    rcases mem_rootsFromRaw plan loadBias layouts 1 _ hroot with ⟨task, htask, hroot⟩
    exact ⟨task, (mem_values h task).mp htask, hroot⟩
  case all =>
    intro task htask
    have hthere : (∃ root ∈ plan.rootsFromRaw loadBias layouts 1 acc.byHeader.values,
          root.headerAddr = some task.header) ↔
        some task.header ∈ (plan.rootsFromRaw loadBias layouts 1 acc.byHeader.values).map
          TaskRoot.headerAddr := List.mem_map.symm
    rw [hthere, headers_rootsFromRaw]
    simp only [← typeOf_eq_some, ← Option.isSome_iff_exists]
    constructor
    · intro hmem
      rcases List.mem_map.mp hmem with ⟨header, hheader, heq⟩
      rcases List.mem_map.mp hheader with ⟨other, hother, rfl⟩
      rcases List.mem_filter.mp hother with ⟨hvalue, htype⟩
      -- two tasks with one header are under one key
      have hget : acc.byHeader[other.header]? = some other :=
        (h.tasks other.header other).mpr ⟨rfl, (mem_values h other).mp hvalue⟩
      have hget' : acc.byHeader[other.header]? = some task :=
        (h.tasks other.header task).mpr ⟨(Option.some.inj heq).symm, htask⟩
      rcases Option.some.inj (hget.symm.trans hget') with rfl
      exact htype
    · intro htype
      refine List.mem_map_of_mem (List.mem_map_of_mem ?_)
      exact List.mem_filter.mpr ⟨(mem_values h task).mpr htask, htype⟩

end Roots

/-! ### Threads in any order -/

theorem walkThread_congr (hmemory : view.readMemory = view'.readMemory) :
    plan.walkThread variant view = plan.walkThread variant view' := by
  funext tp
  exact walkContext_congr hmemory _ _

theorem listable_congr {walk : ThreadWalk} {pointers pointers' : List Pointer}
    (hsame : ∀ pointer, pointer ∈ pointers ↔ pointer ∈ pointers') :
    Listable walk pointers ↔ Listable walk pointers' := by
  unfold Listable LeadsTo
  simp only [hsame]

/-- **Live tasks.** Threads whose pointers are the same set, in any order and any number, lead
to the same roots, or neither can be listed. The roots are numbered from 1 in the order of their
headers, no header comes twice, and a task that is there has a root exactly if its poll function
is that of a coroutine type. -/
theorem enumerateRoots_stable (plan : EnumerationPlan) (variant : TlsVariant)
    (layouts : AsyncLayouts) (hmemory : view.readMemory = view'.readMemory)
    (hbase : view.executableBase = view'.executableBase)
    (hthreads : ∀ pointer, pointer ∈ pointers view ↔ pointer ∈ pointers view') :
    ((∃ e e', plan.enumerateRoots variant view layouts = .error e ∧
        plan.enumerateRoots variant view' layouts = .error e') ∨
      ∃ roots, plan.enumerateRoots variant view layouts = .ok roots ∧
        plan.enumerateRoots variant view' layouts = .ok roots) ∧
    ∀ roots, plan.enumerateRoots variant view layouts = .ok roots →
      ∃ loadBias, plan.loadBias view = .ok loadBias ∧
        Enumerates plan loadBias layouts
          (Discovered (plan.walkThread variant view) (pointers view)) roots := by
  have hbias : plan.loadBias view' = plan.loadBias view := by
    rw [loadBias, loadBias, hbase]
  have hraw := collectRaw_cases plan variant view
  have hraw' := collectRaw_cases plan variant view'
  rw [← walkThread_congr hmemory, ← listable_congr hthreads] at hraw'
  unfold enumerateRoots
  rw [hbias]
  cases hload : plan.loadBias view with
  | error e =>
    refine ⟨.inl ⟨e, e, rfl, rfl⟩, ?_⟩
    intro roots h
    cases h
  | ok loadBias =>
    simp only [Effect.except_ok_bind]
    rcases hraw with ⟨hlistable, acc, hgathers, hraw⟩ | ⟨hlistable, e, hraw⟩
    · rcases hraw' with ⟨-, acc', hgathers', hraw'⟩ | ⟨hno, -⟩
      · rw [hraw, hraw', hgathers'.byHeader_eq hgathers fun pointer => (hthreads pointer).symm]
        refine ⟨.inr ⟨_, rfl, rfl⟩, ?_⟩
        intro roots h
        rcases Except.ok.inj h with rfl
        exact ⟨loadBias, rfl, enumerates_rootsFromRaw plan loadBias layouts hgathers⟩
      · exact absurd hlistable hno
    · rcases hraw' with ⟨hyes, -⟩ | ⟨-, e', hraw'⟩
      · exact absurd hyes hlistable
      · rw [hraw, hraw']
        refine ⟨.inl ⟨e, e', rfl, rfl⟩, ?_⟩
        intro roots h
        cases h

/-- A plan for a binary with two poll functions, one of them that of `sleeper`. -/
def sleeperPlan : EnumerationPlan where
  facts :=
    { version := ⟨1, 44, 2⟩
      contextTlsOffset := 0
      tlsAlign := 8
      tlsBlockSize := 72
      minLoadVaddr := 0x400
      pollTypes := [(0xA6AA, "probe::sleeper::\x7basync_fn_env#0\x7d"), (0xB7BB, "Boxed")] }
  layout := tokio144

/-- Threads with these pointers over the memory with two shards. -/
def threadsOf (pointers : List UInt64) : ProcessView :=
  { memoryView twoShards with
    threadIds := (List.range pointers.length).map fun i => ⟨UInt64.ofNat i⟩
    threadPointer := fun tid => .ok pointers[tid.raw.toNat]?
    executableBase := some 0x800 }

theorem enumerateRoots_threadsOf :
    ∃ roots, sleeperPlan.enumerateRoots .variantI (threadsOf [0xff0]) sleeperDecoder.layouts =
        .ok roots ∧
      sleeperPlan.enumerateRoots .variantI (threadsOf [0xff0, 0xff0, 0xff0])
        sleeperDecoder.layouts = .ok roots ∧
      roots = [⟨1, 0x10038, "probe::sleeper::\x7basync_fn_env#0\x7d", some 0x10000⟩] := by
  have hwalk : walkContext (threadsOf [0xff0]) tokio144 0x1000 [] =
      .ok (true, [⟨0x10000, 0xAAAA, 0x10038⟩, ⟨0x20000, 0xBBBB, 0x20038⟩]) := by
    rw [@walkContext_congr (threadsOf [0xff0]) tokio144 (memoryView twoShards) rfl,
      walkContext_eq encodes_twoShards]
    rfl
  have hvisit : ∀ acc, sleeperPlan.visitThread .variantI (threadsOf [0xff0]) acc ⟨0⟩ =
      .ok {
        byHeader := (acc.byHeader.insert 0x10000 ⟨0x10000, 0xAAAA, 0x10038⟩).insert 0x20000
          ⟨0x20000, 0xBBBB, 0x20038⟩
        anyThreadPointer := true
        anyRuntime := true } := by
    intro acc
    show (walkContext (threadsOf [0xff0]) tokio144 0x1000 [] >>= _) = _
    rw [hwalk]
    rfl
  have hcollect : sleeperPlan.collectRaw .variantI (threadsOf [0xff0]) =
      .ok [⟨0x10000, 0xAAAA, 0x10038⟩, ⟨0x20000, 0xBBBB, 0x20038⟩] := by
    have hids : (threadsOf [0xff0]).threadIds = [⟨0⟩] := rfl
    rw [collectRaw, hids, List.foldlM_cons, hvisit]
    rfl
  have hone : sleeperPlan.enumerateRoots .variantI (threadsOf [0xff0]) sleeperDecoder.layouts =
      .ok [⟨1, 0x10038, "probe::sleeper::\x7basync_fn_env#0\x7d", some 0x10000⟩] := by
    rw [enumerateRoots, hcollect]
    rfl
  have hthreads : ∀ pointer, pointer ∈ pointers (threadsOf [0xff0]) ↔
      pointer ∈ pointers (threadsOf [0xff0, 0xff0, 0xff0]) := by
    intro pointer
    show pointer ∈ [.ok (some 0xff0)] ↔
      pointer ∈ [.ok (some 0xff0), .ok (some 0xff0), .ok (some 0xff0)]
    simp
  rcases (@enumerateRoots_stable (threadsOf [0xff0]) (threadsOf [0xff0, 0xff0, 0xff0]) sleeperPlan
    .variantI sleeperDecoder.layouts rfl rfl hthreads).1 with ⟨e, e', he, -⟩ | ⟨roots, h, h'⟩
  · rw [hone] at he
    cases he
  · rw [hone] at h
    exact ⟨roots, hone.trans h, h', (Except.ok.inj h).symm⟩

end EnumerationPlan

end Mirrorscope.Decoder.AsyncRust
