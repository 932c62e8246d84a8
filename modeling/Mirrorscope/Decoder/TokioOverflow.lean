import Mirrorscope.Decoder.OwnedTasks
import Mirrorscope.Lib.Checked

/-! # The Tokio decoder with checked arithmetic

The walk over the owned tasks and the decoding of one task as a debug build runs
them: a sum or product of addresses that is not a 64-bit number, and a shift by 64 or
more, stops the program. Each `_runs` theorem says from the layout and the memory when
that happens.
-/

namespace Mirrorscope.Decoder.AsyncRust.Debug

open Checked

variable (view : ProcessView)

/-! ## The walk over the owned tasks -/

section Walk

variable (layout : TokioRuntimeLayout)

/-- A checked read that declines the walk where it fails. -/
def readAt (base off : UInt64) : Prog EnumerateError UInt64 := do
  let addr ← add base off
  lift (read view addr)

/-- A decoder error declines the walk. -/
def orImplausibleRuntime {α : Type} (x : Prog DecoderError α) : Prog EnumerateError α :=
  mapErr (fun e => .implausibleRuntime e.display) x

def ownedTasksAddr (contextAddr : UInt64) : Prog DecoderError (Option UInt64) := do
  let handleCell ← add contextAddr layout.contextCurrent
  let arcAddr ← add handleCell layout.handleCellValue
  let arcPtr ← lift (readU64 view arcAddr)
  if arcPtr = 0 then pure none
  else do
    let handle ← add arcPtr layout.arcData
    let shared ← add handle layout.handleShared
    let owned ← add shared layout.sharedOwned
    pure (some owned)

def walkShard (node : UInt64) (out : List RawTask) : Prog EnumerateError (List RawTask) :=
  if node = 0 then pure out
  else if _hfull : out.length ≥ maxOwnedTasks then
    throw (.error (.implausibleRuntime "task count exceeded MAX_TASKS; list likely cyclic"))
  else do
    let vtable ← readAt view node layout.headerVtable
    let pollRuntime ← readAt view vtable layout.vtablePoll
    let trailerOffset ← readAt view vtable layout.vtableTrailerOffset
    let future ← add node layout.futureOffset
    let task : RawTask := { header := node, pollRuntime, future }
    let trailer ← add node trailerOffset
    let next ← readAt view trailer layout.trailerOwnedNext
    walkShard next (out ++ [task])
termination_by maxOwnedTasks - out.length
decreasing_by
  rw [List.length_append, List.length_singleton]
  omega

def visitShard (dataPtr : UInt64) (out : List RawTask) (shard : Nat) :
    Prog EnumerateError (List RawTask) := do
  let offset ← mul (UInt64.ofNat shard) layout.shardStride
  let mutex ← add dataPtr offset
  let data ← add mutex layout.mutexData
  let head ← readAt view data layout.listHead
  walkShard view layout head out

def collectFromOwned (owned : UInt64) (out : List RawTask) :
    Prog EnumerateError (List RawTask) := do
  let list ← add owned layout.ownedList
  let dataPtr ← readAt view list layout.shardedLists
  let lists ← add list layout.shardedLists
  let len ← readAt view lists 8
  if len > maxShards then
    throw (.error (.implausibleRuntime ("ShardedList reports " ++ toString len ++ " shards")))
  else (List.range len.toNat).foldlM (visitShard view layout dataPtr) out

def walkContext (contextAddr : UInt64) (out : List RawTask) :
    Prog EnumerateError (Bool × List RawTask) := do
  let owned ← orImplausibleRuntime (ownedTasksAddr view layout contextAddr)
  match owned with
  | some owned => do
    let out ← collectFromOwned view layout owned out
    pure (true, out)
  | none => pure (false, out)

/-! ### When its sums are 64-bit numbers -/

/-- The addresses of the list from `node` on are 64-bit numbers, for as many tasks as
there is room for; `rest` is what is asked of the room that is left at its end. -/
def ListFits : (room : Nat) → UInt64 → (rest : Nat → Prop) → Prop
  | 0, node, rest => node = 0 → rest 0
  | room + 1, node, rest =>
    if node = 0 then rest (room + 1)
    else
      Fits node layout.headerVtable ∧
        ∀ vtable, read view (node + layout.headerVtable) = .ok vtable →
      Fits vtable layout.vtablePoll ∧
        ∀ poll, read view (vtable + layout.vtablePoll) = .ok poll →
      Fits vtable layout.vtableTrailerOffset ∧
        ∀ trailerOffset, read view (vtable + layout.vtableTrailerOffset) = .ok trailerOffset →
      Fits node layout.futureOffset ∧ Fits node trailerOffset ∧
        Fits (node + trailerOffset) layout.trailerOwnedNext ∧
        ∀ next, read view (node + trailerOffset + layout.trailerOwnedNext) = .ok next →
          ListFits room next rest

/-- The shards' addresses are 64-bit numbers, and those of the lists they hold. -/
def ShardsFit (dataPtr : UInt64) : List Nat → (room : Nat) → Prop
  | [], _ => True
  | shard :: shards, room =>
    let mutex := dataPtr + UInt64.ofNat shard * layout.shardStride
    FitsMul (UInt64.ofNat shard) layout.shardStride ∧
      Fits dataPtr (UInt64.ofNat shard * layout.shardStride) ∧
      Fits mutex layout.mutexData ∧ Fits (mutex + layout.mutexData) layout.listHead ∧
      ∀ head, read view (mutex + layout.mutexData + layout.listHead) = .ok head →
        ListFits view layout room head fun left => ShardsFit dataPtr shards left

/-- The addresses of the sharded list at `owned` are 64-bit numbers. -/
def OwnedFits (owned : UInt64) (room : Nat) : Prop :=
  let list := owned + layout.ownedList
  Fits owned layout.ownedList ∧ Fits list layout.shardedLists ∧
    ∀ dataPtr, read view (list + layout.shardedLists) = .ok dataPtr →
      Fits (list + layout.shardedLists) 8 ∧
        ∀ len, read view (list + layout.shardedLists + 8) = .ok len → len ≤ maxShards →
          ShardsFit view layout dataPtr (List.range len.toNat) room

/-- The addresses on the way from a thread's `CONTEXT` are 64-bit numbers. -/
def ContextFits (contextAddr : UInt64) (room : Nat) : Prop :=
  let handleCell := contextAddr + layout.contextCurrent
  Fits contextAddr layout.contextCurrent ∧ Fits handleCell layout.handleCellValue ∧
    ∀ arcPtr, readU64 view (handleCell + layout.handleCellValue) = .ok arcPtr → arcPtr ≠ 0 →
      let handle := arcPtr + layout.arcData
      let shared := handle + layout.handleShared
      Fits arcPtr layout.arcData ∧ Fits handle layout.handleShared ∧
        Fits shared layout.sharedOwned ∧
        OwnedFits view layout (shared + layout.sharedOwned) room

/-! ### The walk runs where they are -/

theorem readAt_runs {α : Type} {base off : UInt64} {f : UInt64 → Prog EnumerateError α}
    {g : UInt64 → Except EnumerateError α} {D : UInt64 → Prop}
    (hf : ∀ v, Runs (f v) (g v) (D v)) :
    Runs (readAt view base off >>= f) (read view (base + off) >>= g)
      (Fits base off ∧ ∀ v, read view (base + off) = .ok v → D v) := by
  rw [readAt, bind_assoc]
  exact Runs.add_bind (Runs.lift_bind hf)

/-- The walk over one list, and what comes after it. -/
theorem walkShard_runs {α : Type} {f : List RawTask → Prog EnumerateError α}
    {g : List RawTask → Except EnumerateError α} {rest : Nat → Prop}
    (hf : ∀ out, Runs (f out) (g out) (rest (maxOwnedTasks - out.length)))
    (room : Nat) (node : UInt64) (out : List RawTask) (hroom : room = maxOwnedTasks - out.length) :
    Runs (walkShard view layout node out >>= f) (AsyncRust.walkShard view layout node out >>= g)
      (ListFits view layout room node rest) := by
  -- Induction on the room left among the owned tasks, by which the walk terminates.
  induction room generalizing node out with
  | zero =>
    rw [walkShard, AsyncRust.walkShard]
    have hfull : out.length ≥ maxOwnedTasks := by omega
    by_cases hnode : node = 0
    · simp only [hnode, ↓reduceIte, ListFits, forall_const]
      rw [hroom]
      exact hf out
    · simp only [hnode, ↓reduceIte, hfull, ↓reduceDIte, ListFits]
      exact Runs.throw.congr (by simp)
  | succ room ih =>
    rw [walkShard, AsyncRust.walkShard]
    have hfull : ¬ out.length ≥ maxOwnedTasks := by omega
    by_cases hnode : node = 0
    · simp only [hnode, ↓reduceIte, ListFits]
      rw [hroom]
      exact hf out
    · simp only [hnode, ↓reduceIte, hfull, ↓reduceDIte, ListFits, bind_assoc]
      refine readAt_runs view fun vtable => ?_
      refine readAt_runs view fun pollRuntime => ?_
      refine readAt_runs view fun trailerOffset => ?_
      refine Runs.add_bind (Runs.add_bind (readAt_runs view fun next => ?_))
      exact ih next _ (by simp; omega)

theorem visitShards_runs (dataPtr : UInt64) (shards : List Nat) (out : List RawTask) :
    Runs (shards.foldlM (visitShard view layout dataPtr) out)
      (shards.foldlM (AsyncRust.visitShard view layout dataPtr) out)
      (ShardsFit view layout dataPtr shards (maxOwnedTasks - out.length)) := by
  induction shards generalizing out with
  | nil => exact Runs.pure
  | cons shard shards ih =>
    simp only [List.foldlM_cons, visitShard, AsyncRust.visitShard, bind_assoc]
    refine Runs.mul_bind (Runs.add_bind (Runs.add_bind (readAt_runs view fun head => ?_)))
    exact walkShard_runs view layout ih _ head out rfl

theorem collectFromOwned_runs (owned : UInt64) (out : List RawTask) :
    Runs (collectFromOwned view layout owned out)
      (AsyncRust.collectFromOwned view layout owned out)
      (OwnedFits view layout owned (maxOwnedTasks - out.length)) := by
  have hlen (dataPtr len : UInt64) :
      Runs (if len > maxShards then
          throw (.error (.implausibleRuntime ("ShardedList reports " ++ toString len ++ " shards")))
        else (List.range len.toNat).foldlM (visitShard view layout dataPtr) out)
        (if len > maxShards then
          throw (.implausibleRuntime ("ShardedList reports " ++ toString len ++ " shards"))
        else (List.range len.toNat).foldlM (AsyncRust.visitShard view layout dataPtr) out)
        (len ≤ maxShards →
          ShardsFit view layout dataPtr (List.range len.toNat) (maxOwnedTasks - out.length)) := by
    split
    · rename_i hlong
      exact Runs.throw.congr (by simp [UInt64.not_le.mpr hlong])
    · rename_i hle
      exact (visitShards_runs view layout dataPtr _ out).congr (by simp [UInt64.not_lt.mp hle])
  refine (Runs.add_bind (readAt_runs view fun dataPtr =>
    Runs.add_bind (readAt_runs view fun len => hlen dataPtr len))).congr ?_
  -- the address of the lists is formed twice
  constructor
  · rintro ⟨howned, hlists, h⟩
    exact ⟨howned, hlists, fun dataPtr hread => (h dataPtr hread).2⟩
  · rintro ⟨howned, hlists, h⟩
    exact ⟨howned, hlists, fun dataPtr hread => ⟨hlists, h dataPtr hread⟩⟩

/-- Where the owned tasks are, if the thread has entered a runtime. -/
theorem ownedTasksAddr_ok (contextAddr owned : UInt64) :
    (AsyncRust.ownedTasksAddr view layout contextAddr).mapError
        (fun e => EnumerateError.implausibleRuntime e.display) = .ok (some owned) ↔
      ∃ arcPtr,
        readU64 view (contextAddr + layout.contextCurrent + layout.handleCellValue) = .ok arcPtr ∧
          arcPtr ≠ 0 ∧
            owned = arcPtr + layout.arcData + layout.handleShared + layout.sharedOwned := by
  unfold AsyncRust.ownedTasksAddr
  cases hread : readU64 view (contextAddr + layout.contextCurrent + layout.handleCellValue) with
  | error e => simp [bind, Except.bind, Except.mapError, hread]
  | ok arcPtr =>
    by_cases h : arcPtr = 0
    · simp [bind, Except.bind, Except.mapError, hread, h, pure, Except.pure]
    · simp [bind, Except.bind, Except.mapError, hread, h, pure, Except.pure, eq_comm]

theorem ownedTasksAddr_runs (contextAddr : UInt64) :
    Runs (ownedTasksAddr view layout contextAddr)
      (AsyncRust.ownedTasksAddr view layout contextAddr)
      (let handleCell := contextAddr + layout.contextCurrent
      Fits contextAddr layout.contextCurrent ∧ Fits handleCell layout.handleCellValue ∧
        ∀ arcPtr, readU64 view (handleCell + layout.handleCellValue) = .ok arcPtr → arcPtr ≠ 0 →
          Fits arcPtr layout.arcData ∧ Fits (arcPtr + layout.arcData) layout.handleShared ∧
            Fits (arcPtr + layout.arcData + layout.handleShared) layout.sharedOwned) := by
  refine Runs.add_bind (Runs.add_bind (Runs.lift_bind fun arcPtr => ?_))
  split
  · rename_i hzero
    exact Runs.pure.congr (by simp [hzero])
  · rename_i hne
    -- The rest of the way reads nothing.
    have hsums : Runs (do
        let handle ← add arcPtr layout.arcData
        let shared ← add handle layout.handleShared
        let owned ← add shared layout.sharedOwned
        pure (some owned))
        (pure (some (arcPtr + layout.arcData + layout.handleShared + layout.sharedOwned)) :
          Except DecoderError (Option UInt64)) _ :=
      Runs.add_bind (Runs.add_bind (Runs.add_bind Runs.pure))
    exact hsums.congr (by simp [hne])

/-- The walk overflows just where an address on its way is no 64-bit number; elsewhere it
is the walk with wrapping sums. -/
theorem walkContext_runs (contextAddr : UInt64) (out : List RawTask) :
    Runs (walkContext view layout contextAddr out)
      (AsyncRust.walkContext view layout contextAddr out)
      (ContextFits view layout contextAddr (maxOwnedTasks - out.length)) := by
  have howned : Runs (orImplausibleRuntime (ownedTasksAddr view layout contextAddr))
      ((AsyncRust.ownedTasksAddr view layout contextAddr).mapError
        fun e => EnumerateError.implausibleRuntime e.display) _ :=
    (ownedTasksAddr_runs view layout contextAddr).mapErr _
  -- What comes after the address of the owned tasks, if there is one.
  have hrest (owned : Option UInt64) :
      Runs (match owned with
        | some owned => do
          let out ← collectFromOwned view layout owned out
          pure (true, out)
        | none => pure (false, out))
        (match owned with
        | some owned => do
          let out ← AsyncRust.collectFromOwned view layout owned out
          pure (true, out)
        | none => pure (false, out))
        (∀ addr, owned = some addr →
          OwnedFits view layout addr (maxOwnedTasks - out.length)) := by
    cases owned with
    | none => exact Runs.pure.congr (by simp)
    | some addr =>
      exact (Runs.bind (collectFromOwned_runs view layout addr out) fun out => Runs.pure).congr
        (by simp)
  refine (Runs.bind howned hrest).congr ?_
  -- The two halves speak of the owned tasks' address; `ContextFits` of the words read.
  constructor
  · rintro ⟨⟨hcell, hvalue, hsums⟩, h⟩
    refine ⟨hcell, hvalue, fun arcPtr hread hne => ?_⟩
    obtain ⟨harc, hhandle, hshared⟩ := hsums arcPtr hread hne
    refine ⟨harc, hhandle, hshared, h (some _) ?_ _ rfl⟩
    exact (ownedTasksAddr_ok view layout contextAddr _).mpr ⟨arcPtr, hread, hne, rfl⟩
  · rintro ⟨hcell, hvalue, h⟩
    refine ⟨⟨hcell, hvalue, fun arcPtr hread hne => ?_⟩, ?_⟩
    · obtain ⟨harc, hhandle, hshared, -⟩ := h arcPtr hread hne
      exact ⟨harc, hhandle, hshared⟩
    · rintro owned hok addr rfl
      obtain ⟨arcPtr, hread, hne, rfl⟩ := (ownedTasksAddr_ok view layout contextAddr addr).mp hok
      exact (h arcPtr hread hne).2.2.2

end Walk

/-! ## Decoding one task -/

section Decode

/-- The little-endian number in the bytes, each shifted to its place. -/
def orBytes (bytes : List UInt8) : Prog DecoderError UInt64 :=
  bytes.zipIdx.foldlM (fun value b => do
    let shifted ← shl b.1.toUInt64 (8 * b.2)
    pure (value ||| shifted)) 0

def readDiscriminant (base : UInt64) (layout : AsyncFnLayout) : Prog DecoderError UInt64 := do
  let addr ← add base layout.discrOffset
  let bytes ← lift (view.readMemory addr layout.discrSize.toNat)
  orBytes bytes

def activeVariant (base : UInt64) (layout : AsyncFnLayout) :
    Prog DecoderError (UInt64 × VariantInfo) := do
  let discr ← readDiscriminant view base layout
  match layout.variantFor discr with
  | some variant => pure (discr, variant)
  | none => throw (.error (.notApplicable ("coroutine " ++ layout.typeName ++
      " has discriminant " ++ toString discr ++ " matching no variant")))

variable (layouts : AsyncLayouts)

def leafTypeFrom : Nat → UInt64 → AsyncFnLayout → Prog DecoderError (Option String)
  | 0, _, _ => pure none
  | depth + 1, base, layout => do
    let (_, variant) ← activeVariant view base layout
    match variant.awaitee with
    | none => pure none
    | some awaitee =>
      match layouts.get awaitee.typeName with
      | some next => do
        let child ← add base awaitee.offset
        leafTypeFrom depth child next
      | none => pure (some awaitee.typeName)

def leafType (base : UInt64) (layout : AsyncFnLayout) : Prog DecoderError (Option String) :=
  leafTypeFrom view layouts maxAwaitDepth base layout

def stackFrom : Nat → UInt64 → String → Prog DecoderError (List StackFrame)
  | 0, _, _ => pure []
  | depth + 1, base, typeName => do
    match layouts.get typeName with
    | none => throw (.error (.notApplicable ("no layout for coroutine type " ++ typeName)))
    | some layout => do
      let (_, variant) ← activeVariant view base layout
      if ¬ variant.kind.isSuspend then pure [.coroutine base layout variant none]
      else
        match variant.awaitee with
        | none => pure [.coroutine base layout variant none]
        | some child =>
          if layouts.isCoroutine child.typeName then do
            let suspend := { kind := .other, detail := some (shortType child.typeName) }
            let childBase ← add base child.offset
            let rest ← stackFrom depth childBase child.typeName
            pure (.coroutine base layout variant (some suspend) :: rest)
          else
            pure [.coroutine base layout variant (some (leafSuspend child)), .leaf child]

def logicalStack (base : UInt64) (typeName : String) : Prog DecoderError (List LogicalFrame) := do
  pure ((← stackFrom view layouts maxAwaitDepth base typeName).map StackFrame.logicalFrame)

/-! ### When its sums are 64-bit numbers -/

/-- The discriminant has an address, and the view gives no more than eight bytes for it. -/
def DiscriminantFits (base : UInt64) (layout : AsyncFnLayout) : Prop :=
  Fits base layout.discrOffset ∧
    ∀ bytes, view.readMemory (base + layout.discrOffset) layout.discrSize.toNat = .ok bytes →
      bytes.length ≤ 8

/-- The coroutines on the way to the leaf future have addresses and discriminants that
fit. -/
def LeafFits : Nat → UInt64 → AsyncFnLayout → Prop
  | 0, _, _ => True
  | depth + 1, base, layout =>
    DiscriminantFits view base layout ∧
      ∀ active, AsyncRust.activeVariant view base layout = .ok active →
        ∀ awaitee, active.2.awaitee = some awaitee →
          ∀ next, layouts.get awaitee.typeName = some next →
            Fits base awaitee.offset ∧ LeafFits depth (base + awaitee.offset) next

/-- The same along the suspended coroutines of a logical stack. -/
def StackFits : Nat → UInt64 → String → Prop
  | 0, _, _ => True
  | depth + 1, base, typeName =>
    ∀ layout, layouts.get typeName = some layout →
      DiscriminantFits view base layout ∧
        ∀ active, AsyncRust.activeVariant view base layout = .ok active →
          active.2.kind.isSuspend = true → ∀ child, active.2.awaitee = some child →
            layouts.isCoroutine child.typeName = true →
              Fits base child.offset ∧ StackFits depth (base + child.offset) child.typeName

/-! ### Decoding runs where they are -/

theorem orBytes_runs (bytes : List UInt8) :
    Runs (orBytes bytes) (pure (AsyncRust.orBytes bytes)) (bytes.length ≤ 8) := by
  -- For any indices: the place of each byte has to be below 64.
  have hfold (as : List (UInt8 × Nat)) (value : UInt64) :
      Runs (as.foldlM (fun value b => do
          let shifted ← shl b.1.toUInt64 (8 * b.2)
          pure (value ||| shifted)) value : Prog DecoderError UInt64)
        (pure ((as.map fun b => b.1.toUInt64 <<< UInt64.ofNat (8 * b.2)).foldl (· ||| ·) value))
        (∀ b ∈ as, 8 * b.2 < 64) := by
    induction as generalizing value with
    | nil => exact Runs.pure.congr (by simp)
    | cons b as ih =>
      rw [List.foldlM_cons, bind_assoc]
      have hstep := Runs.shl_bind
        (f := fun shifted => pure (value ||| shifted) >>= fun value => as.foldlM (fun value b => do
          let shifted ← shl b.1.toUInt64 (8 * b.2)
          pure (value ||| shifted)) value) (ih (value ||| b.1.toUInt64 <<< UInt64.ofNat (8 * b.2)))
      exact hstep.congr (by simp)
  refine (hfold bytes.zipIdx 0).congr ?_
  constructor
  · intro h
    by_contra hlong
    have hlt : 8 < bytes.length := by omega
    -- The ninth byte would be shifted by 64.
    have hget : bytes.zipIdx[8]? = some (bytes[8], 8) := by
      rw [List.getElem?_zipIdx]
      simp [List.getElem?_eq_getElem hlt]
    have hbits := h _ (List.mem_of_getElem? hget)
    simp at hbits
  · intro h b hb
    have := List.snd_lt_add_of_mem_zipIdx hb
    omega

theorem readDiscriminant_runs (base : UInt64) (layout : AsyncFnLayout) :
    Runs (readDiscriminant view base layout) (AsyncRust.readDiscriminant view base layout)
      (DiscriminantFits view base layout) :=
  Runs.add_bind (Runs.lift_bind orBytes_runs)

theorem activeVariant_runs (base : UInt64) (layout : AsyncFnLayout) :
    Runs (activeVariant view base layout) (AsyncRust.activeVariant view base layout)
      (DiscriminantFits view base layout) := by
  refine (Runs.bind (readDiscriminant_runs view base layout) (D := fun _ => True)
    fun discr => ?_).congr (by simp)
  cases layout.variantFor discr with
  | none => exact Runs.throw
  | some variant => exact Runs.pure

theorem leafTypeFrom_runs (depth : Nat) (base : UInt64) (layout : AsyncFnLayout) :
    Runs (leafTypeFrom view layouts depth base layout)
      (AsyncRust.leafTypeFrom view layouts depth base layout)
      (LeafFits view layouts depth base layout) := by
  induction depth generalizing base layout with
  | zero => exact Runs.pure
  | succ depth ih =>
    refine Runs.bind (activeVariant_runs view base layout) fun active => ?_
    obtain ⟨discr, variant⟩ := active
    cases hawaitee : variant.awaitee with
    | none => simpa [hawaitee] using Runs.pure
    | some awaitee =>
      cases hnext : layouts.get awaitee.typeName with
      | none => simpa [hawaitee, hnext] using Runs.pure
      | some next => simpa [hawaitee, hnext] using Runs.add_bind (ih (base + awaitee.offset) next)

theorem stackFrom_runs (depth : Nat) (base : UInt64) (typeName : String) :
    Runs (stackFrom view layouts depth base typeName)
      (AsyncRust.stackFrom view layouts depth base typeName)
      (StackFits view layouts depth base typeName) := by
  induction depth generalizing base typeName with
  | zero => exact Runs.pure
  | succ depth ih =>
    simp only [stackFrom, AsyncRust.stackFrom, StackFits]
    cases hlayout : layouts.get typeName with
    | none => exact Runs.throw.congr (by simp)
    | some layout =>
      simp only [Option.some.injEq, forall_eq']
      -- The walk goes on only from a suspended coroutine that awaits another.
      refine Runs.bind (activeVariant_runs view base layout) fun active => ?_
      obtain ⟨discr, variant⟩ := active
      by_cases hsuspend : variant.kind.isSuspend = true
      · cases hawaitee : variant.awaitee with
        | none => simpa [hawaitee, hsuspend] using Runs.pure
        | some child =>
          by_cases hcoroutine : layouts.isCoroutine child.typeName = true
          · have hrest := Runs.bind (ih (base + child.offset) child.typeName)
              (D := fun _ => True) fun rest => Runs.pure
                (a := StackFrame.coroutine base layout variant (some
                  { kind := .other, detail := some (shortType child.typeName) }) :: rest)
            simp only [hsuspend, hcoroutine, not_true_eq_false, ↓reduceIte,
              Option.some.injEq, forall_eq', forall_const]
            exact (Runs.add_bind hrest).congr (by simp)
          · simpa [hawaitee, hsuspend, hcoroutine] using Runs.pure
      · simpa [hsuspend] using Runs.pure

theorem leafType_runs (base : UInt64) (layout : AsyncFnLayout) :
    Runs (leafType view layouts base layout) (AsyncRust.leafType view layouts base layout)
      (LeafFits view layouts maxAwaitDepth base layout) :=
  leafTypeFrom_runs view layouts maxAwaitDepth base layout

theorem logicalStack_runs (base : UInt64) (typeName : String) :
    Runs (logicalStack view layouts base typeName)
      (AsyncRust.logicalStack view layouts base typeName)
      (StackFits view layouts maxAwaitDepth base typeName) :=
  (Runs.bind (stackFrom_runs view layouts maxAwaitDepth base typeName) (D := fun _ => True)
    fun frames => Runs.pure).congr (by simp)

end Decode

end Mirrorscope.Decoder.AsyncRust.Debug
