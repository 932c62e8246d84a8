import Mirrorscope.Decoder.AsyncView

/-! # Await chains

The awaited futures of a coroutine are followed twice: once for the leaf future that tells what
the task waits for, and once for the frames of its logical stack. Both walks stop at the same
coroutine, with the same error if there is one. The stack lists the coroutines from the task's
own inwards, so its innermost frame comes last.
-/

namespace Mirrorscope.Decoder.AsyncRust

section

variable (view : ProcessView) (layouts : AsyncLayouts)

/-- The coroutine is suspended, and awaits the child. -/
def SuspendedOn (c : Coroutine) (child : ChildRef) : Prop :=
  ∃ layout discr variant, layouts.get c.typeName = some layout ∧
    activeVariant view c.base layout = .ok (discr, variant) ∧ variant.kind.isSuspend = true ∧
    variant.awaitee = some child

/-- A coroutine with its layout and the variant it is in. -/
def IsActive (c : Coroutine) (layout : AsyncFnLayout) (variant : VariantInfo) : Prop :=
  layouts.get c.typeName = some layout ∧ ∃ discr, activeVariant view c.base layout =
    .ok (discr, variant)

/-- The awaited futures are followed from a coroutine for at most `depth` coroutines: the
frames of the coroutines, and the leaf future at the end. -/
inductive Follows : Nat → Coroutine → List StackFrame → Option ChildRef → Prop where
  | cut {c : Coroutine} : Follows 0 c [] none
  | stop {depth : Nat} {c : Coroutine} {layout : AsyncFnLayout} {variant : VariantInfo} :
      IsActive view layouts c layout variant →
      variant.kind.isSuspend = false ∨ variant.awaitee = none →
      Follows (depth + 1) c [.coroutine c.base layout variant none] none
  | leaf {depth : Nat} {c : Coroutine} {layout : AsyncFnLayout} {variant : VariantInfo}
      {child : ChildRef} : IsActive view layouts c layout variant →
      variant.kind.isSuspend = true → variant.awaitee = some child →
      layouts.isCoroutine child.typeName = false →
      Follows (depth + 1) c [.coroutine c.base layout variant (some (leafSuspend child))]
        (some child)
  | step {depth : Nat} {c : Coroutine} {layout : AsyncFnLayout} {variant : VariantInfo}
      {child : ChildRef} {frames : List StackFrame} {leaf : Option ChildRef} :
      IsActive view layouts c layout variant → variant.kind.isSuspend = true →
      variant.awaitee = some child → layouts.isCoroutine child.typeName = true →
      Follows depth ⟨c.base + child.offset, child.typeName⟩ frames leaf →
      Follows (depth + 1) c (.coroutine c.base layout variant
        (some { kind := .other, detail := some (shortType child.typeName) }) :: frames) leaf

end

variable {view : ProcessView} {layouts : AsyncLayouts}

theorem IsActive.unique {c : Coroutine} {layout layout' : AsyncFnLayout}
    {variant variant' : VariantInfo} (h : IsActive view layouts c layout variant)
    (h' : IsActive view layouts c layout' variant') : layout = layout' ∧ variant = variant' := by
  rcases h with ⟨hlayout, discr, hactive⟩
  rcases h' with ⟨hlayout', discr', hactive'⟩
  exact ⟨Option.some.inj (hlayout.symm.trans hlayout'),
    activeVariant_unique hlayout hactive hlayout' hactive'⟩

/-- What a suspended coroutine awaits, by its active variant. -/
theorem IsActive.suspendedOn_iff {c : Coroutine} {layout : AsyncFnLayout}
    {variant : VariantInfo} (h : IsActive view layouts c layout variant) (child : ChildRef) :
    SuspendedOn view layouts c child ↔
      variant.kind.isSuspend = true ∧ variant.awaitee = some child := by
  constructor
  · rintro ⟨layout', discr', variant', hlayout', hactive', hsuspend, hchild⟩
    rcases h.unique ⟨hlayout', discr', hactive'⟩ with ⟨-, rfl⟩
    exact ⟨hsuspend, hchild⟩
  · rintro ⟨hsuspend, hchild⟩
    rcases h with ⟨hlayout, discr, hactive⟩
    exact ⟨layout, discr, variant, hlayout, hactive, hsuspend, hchild⟩

/-- The frame of an active coroutine is its own. -/
theorem IsActive.coroutine_frame {c : Coroutine} {layout : AsyncFnLayout}
    {variant : VariantInfo} (h : IsActive view layouts c layout variant)
    (suspend : Option SuspendPoint) :
    (StackFrame.coroutine c.base layout variant suspend).coroutine? = some c := by
  have hname : layout.typeName = c.typeName := layouts.keyed c.typeName layout h.1
  simp only [StackFrame.coroutine?, hname]

/-! ## The stack -/

/-- The frames of a walk: those of the coroutines, and one for the leaf. -/
def withLeaf (frames : List StackFrame) (leaf : Option ChildRef) : List StackFrame :=
  frames ++ leaf.toList.map StackFrame.leaf

/-- A stack is made of the followed coroutines and the leaf. -/
theorem stackFrom_follows {depth : Nat} {c : Coroutine} {stack : List StackFrame}
    (h : stackFrom view layouts depth c.base c.typeName = .ok stack) :
    ∃ frames leaf, Follows view layouts depth c frames leaf ∧ stack = withLeaf frames leaf := by
  induction depth generalizing c stack with
  | zero =>
    rcases Except.ok.inj h with rfl
    exact ⟨[], none, .cut, rfl⟩
  | succ depth ih =>
    rw [stackFrom] at h
    split at h
    · cases h
    · rename_i layout hlayout
      rcases Effect.except_bind_ok h with ⟨⟨discr, variant⟩, hactive, h⟩
      have hself : IsActive view layouts c layout variant := ⟨hlayout, discr, hactive⟩
      simp only [Bool.not_eq_true] at h
      by_cases hsuspend : variant.kind.isSuspend = false
      · rw [if_pos hsuspend] at h
        rcases Except.ok.inj h with rfl
        exact ⟨_, none, .stop hself (.inl hsuspend), rfl⟩
      · rw [if_neg hsuspend] at h
        rw [Bool.not_eq_false] at hsuspend
        cases hawaitee : variant.awaitee with
        | none =>
          rw [hawaitee] at h
          rcases Except.ok.inj h with rfl
          exact ⟨_, none, .stop hself (.inr hawaitee), rfl⟩
        | some child =>
          simp only [hawaitee] at h
          by_cases hcoroutine : layouts.isCoroutine child.typeName = true
          · rw [if_pos hcoroutine] at h
            rcases Effect.except_bind_ok h with ⟨rest, hrest, h⟩
            rcases Except.ok.inj h with rfl
            rcases @ih ⟨c.base + child.offset, child.typeName⟩ rest hrest with
              ⟨frames, leaf, hfollows, rfl⟩
            exact ⟨_, leaf, .step hself hsuspend hawaitee hcoroutine hfollows, rfl⟩
          · rw [if_neg hcoroutine] at h
            rcases Except.ok.inj h with rfl
            rw [Bool.not_eq_true] at hcoroutine
            exact ⟨_, some child, .leaf hself hsuspend hawaitee hcoroutine, rfl⟩

/-! ## The leaf future -/

/-- Only suspend points await. -/
def OnlySuspendsAwait (layouts : AsyncLayouts) : Prop :=
  ∀ name layout discr variant, layouts.get name = some layout →
    layout.variantFor discr = some variant → variant.kind.isSuspend = false →
    variant.awaitee = none

/-- The active variant is one of the layout's. -/
theorem activeVariant_mem {base discr : UInt64} {layout : AsyncFnLayout} {variant : VariantInfo}
    (h : activeVariant view base layout = .ok (discr, variant)) :
    layout.variantFor discr = some variant := by
  rcases Effect.except_bind_ok h with ⟨discr', -, h⟩
  cases hvariant : layout.variantFor discr' with
  | none =>
    simp only [hvariant] at h
    cases h
  | some found =>
    simp only [hvariant] at h
    rcases Prod.mk.inj (Except.ok.inj h) with ⟨rfl, rfl⟩
    exact hvariant

theorem IsActive.awaitee_none {c : Coroutine} {layout : AsyncFnLayout} {variant : VariantInfo}
    (h : IsActive view layouts c layout variant) (honly : OnlySuspendsAwait layouts)
    (hstop : variant.kind.isSuspend = false ∨ variant.awaitee = none) :
    variant.awaitee = none := by
  rcases h with ⟨hlayout, discr, hactive⟩
  rcases hstop with hkind | hnone
  · exact honly c.typeName layout discr variant hlayout (activeVariant_mem hactive) hkind
  · exact hnone

theorem get_of_isCoroutine {name : String} (h : layouts.isCoroutine name = true) :
    ∃ layout, layouts.get name = some layout := Option.isSome_iff_exists.mp h

theorem get_of_not_isCoroutine {name : String} (h : layouts.isCoroutine name = false) :
    layouts.get name = none := by
  rw [AsyncLayouts.isCoroutine, Option.isSome_eq_false_iff] at h
  exact Option.isNone_iff_eq_none.mp h

/-- The leaf of a stack is the leaf future. -/
theorem Follows.leafTypeFrom (honly : OnlySuspendsAwait layouts) {depth : Nat} {c : Coroutine}
    {frames : List StackFrame} {leaf : Option ChildRef}
    (h : Follows view layouts depth c frames leaf) {layout : AsyncFnLayout}
    (hlayout : layouts.get c.typeName = some layout) :
    leafTypeFrom view layouts depth c.base layout = .ok (leaf.map ChildRef.typeName) := by
  induction h generalizing layout with
  | cut => rfl
  | stop hself hstop =>
    have hnone := hself.awaitee_none honly hstop
    rcases hself with ⟨hlayout', discr, hactive⟩
    rcases Option.some.inj (hlayout.symm.trans hlayout') with rfl
    rw [AsyncRust.leafTypeFrom, hactive, Effect.except_ok_bind]
    simp only [hnone]
    rfl
  | leaf hself _ hchild hleaf =>
    rcases hself with ⟨hlayout', discr, hactive⟩
    rcases Option.some.inj (hlayout.symm.trans hlayout') with rfl
    rw [AsyncRust.leafTypeFrom, hactive, Effect.except_ok_bind]
    simp only [hchild, get_of_not_isCoroutine hleaf]
    rfl
  | step hself _ hchild hcoroutine _ ih =>
    rcases hself with ⟨hlayout', discr, hactive⟩
    rcases Option.some.inj (hlayout.symm.trans hlayout') with rfl
    rcases get_of_isCoroutine hcoroutine with ⟨next, hnext⟩
    rw [AsyncRust.leafTypeFrom, hactive, Effect.except_ok_bind]
    simp only [hchild, hnext]
    exact ih hnext

/-- The frames are those of the coroutines along the awaits. -/
theorem Follows.path (honly : OnlySuspendsAwait layouts) {depth : Nat} {c : Coroutine}
    {frames : List StackFrame} {leaf : Option ChildRef}
    (h : Follows view layouts depth c frames leaf) :
    ∃ visited, Chain.Path (Awaits view layouts) depth c visited ∧
      frames.map StackFrame.coroutine? = visited.map some := by
  induction h with
  | cut => exact ⟨[], .cut, rfl⟩
  | @stop depth c layout variant hself hstop =>
    have hnone := hself.awaitee_none honly hstop
    refine ⟨[c], .stop ?_, by rw [List.map_cons, hself.coroutine_frame]; rfl⟩
    rintro d ⟨layout', discr', variant', child, hlayout', hactive', hchild, -⟩
    rcases hself.unique ⟨hlayout', discr', hactive'⟩ with ⟨-, rfl⟩
    cases hnone.symm.trans hchild
  | @leaf depth c layout variant child hself _ hchild hleaf =>
    refine ⟨[c], .stop ?_, by rw [List.map_cons, hself.coroutine_frame]; rfl⟩
    rintro d ⟨layout', discr', variant', child', hlayout', hactive', hchild', hyes, -⟩
    rcases hself.unique ⟨hlayout', discr', hactive'⟩ with ⟨-, rfl⟩
    rcases Option.some.inj (hchild.symm.trans hchild') with rfl
    cases hleaf.symm.trans hyes
  | @step depth c layout variant child frames leaf hself _ hchild hcoroutine _ ih =>
    rcases ih with ⟨visited, hpath, hframes⟩
    refine ⟨c :: visited, .step ?_ hpath, ?_⟩
    · rcases hself with ⟨hlayout, discr, hactive⟩
      exact ⟨layout, discr, variant, child, hlayout, hactive, hchild, hcoroutine, rfl⟩
    · rw [List.map_cons, hself.coroutine_frame, hframes]
      rfl

/-- Two computations that fail at once fail alike. -/
theorem error_bind_iff {α β α' β' : Type} {f : α → Except DecoderError β}
    {g : α' → Except DecoderError β'} (e e' : DecoderError) :
    ((Except.error e >>= f) = .error e') ↔ ((Except.error e >>= g) = .error e') := by
  constructor
  · intro h
    rw [Except.error.inj h]
    rfl
  · intro h
    rw [Except.error.inj h]
    rfl

theorem ok_error_iff {α β : Type} (a : α) (b : β) (e : DecoderError) :
    (Except.ok a : Except DecoderError α) = .error e ↔
      (Except.ok b : Except DecoderError β) = .error e := by
  constructor
  · intro h
    cases h
  · intro h
    cases h

/-- Both walks fail on the same memory, with the same error. -/
theorem leafTypeFrom_error_iff (honly : OnlySuspendsAwait layouts) {depth : Nat} {c : Coroutine}
    {layout : AsyncFnLayout} (hlayout : layouts.get c.typeName = some layout) (e : DecoderError) :
    leafTypeFrom view layouts depth c.base layout = .error e ↔
      stackFrom view layouts depth c.base c.typeName = .error e := by
  induction depth generalizing c layout with
  | zero => exact ok_error_iff _ _ e
  | succ depth ih =>
    simp only [leafTypeFrom, stackFrom, hlayout]
    cases hactive : activeVariant view c.base layout with
    | error e' => exact error_bind_iff e' e
    | ok found =>
      rcases found with ⟨discr, variant⟩
      have hself : IsActive view layouts c layout variant := ⟨hlayout, discr, hactive⟩
      simp only [Effect.except_ok_bind, Bool.not_eq_true]
      by_cases hsuspend : variant.kind.isSuspend = false
      · rw [if_pos hsuspend, hself.awaitee_none honly (.inl hsuspend)]
        exact ok_error_iff _ _ e
      · rw [if_neg hsuspend]
        cases hchild : variant.awaitee with
        | none => exact ok_error_iff _ _ e
        | some child =>
          dsimp only
          by_cases hcoroutine : layouts.isCoroutine child.typeName = true
          · -- both go on to the awaited coroutine
            rcases get_of_isCoroutine hcoroutine with ⟨next, hnext⟩
            rw [if_pos hcoroutine, hnext]
            dsimp only
            rw [@ih ⟨c.base + child.offset, child.typeName⟩ next hnext]
            cases stackFrom view layouts depth (c.base + child.offset) child.typeName with
            | error e' =>
              constructor
              · intro h
                rw [Except.error.inj h]
                rfl
              · intro h
                rw [Except.error.inj h]
            | ok rest => exact ok_error_iff _ _ e
          · rw [if_neg hcoroutine]
            rw [Bool.not_eq_true] at hcoroutine
            rw [get_of_not_isCoroutine hcoroutine]
            exact ok_error_iff _ _ e

/-- Where a leaf future is found, the first coroutine is suspended. -/
theorem Follows.suspended {depth : Nat} {c : Coroutine} {frames : List StackFrame}
    {child : ChildRef} (h : Follows view layouts depth c frames (some child)) :
    ∃ layout variant, IsActive view layouts c layout variant ∧
      variant.kind.isSuspend = true := by
  cases h with
  | leaf hself hsuspend => exact ⟨_, _, hself, hsuspend⟩
  | step hself hsuspend => exact ⟨_, _, hself, hsuspend⟩

theorem stateFromVariant_suspend {kind : VariantKind} (h : kind.isSuspend = true) :
    stateFromVariant kind = .blocked .unknown := by
  cases kind with
  | suspend point => rfl
  | _ => cases h

/-- Without a header, the state of a suspended task tells of its leaf future. -/
theorem taskState_suspended {c : Coroutine} {layout : AsyncFnLayout} {variant : VariantInfo}
    (hself : IsActive view layouts c layout variant) (hsuspend : variant.kind.isSuspend = true)
    {leaf : String} (hleaf : leafType view layouts c.base layout = .ok (some leaf)) :
    taskState view layouts c.base layout none = .ok (.blocked (classifyLeaf leaf).block) := by
  rcases hself with ⟨-, discr, hactive⟩
  have hstate : baseState view variant none = .ok (.blocked .unknown) := by
    rw [baseState, stateFromVariant_suspend hsuspend]
    rfl
  rw [taskState, hactive, Effect.except_ok_bind]
  simp only [hstate, Effect.except_ok_bind, hleaf]
  rfl

theorem logicalStack_error_iff {base : UInt64} {typeName : String} (e : DecoderError) :
    logicalStack view layouts base typeName = .error e ↔
      stackFrom view layouts maxAwaitDepth base typeName = .error e := by
  rw [logicalStack]
  cases stackFrom view layouts maxAwaitDepth base typeName with
  | error e' =>
    constructor
    · intro h
      rw [Except.error.inj h]
    · intro h
      rw [Except.error.inj h]
      rfl
  | ok stack => exact ok_error_iff _ _ e

/-- **The two walks agree.** Where only suspend points await, the leaf future and the logical
stack of a coroutine are found on the same memory and fail alike. The stack has a frame for
each coroutine on the way and one for the leaf future, if there is one, and the leaf's frame,
the task's state and its wake cause tell the same of it. -/
theorem await_walks_agree (honly : OnlySuspendsAwait layouts) {base : UInt64} {typeName : String}
    {layout : AsyncFnLayout} (hlayout : layouts.get typeName = some layout) :
    (∀ e, leafType view layouts base layout = .error e ↔
      logicalStack view layouts base typeName = .error e) ∧
    ∀ leaf, leafType view layouts base layout = .ok leaf →
      ∃ (frames : List StackFrame) (visited : List Coroutine) (last : Option ChildRef),
        logicalStack view layouts base typeName =
          .ok ((withLeaf frames last).map StackFrame.logicalFrame) ∧
        Chain.Path (Awaits view layouts) maxAwaitDepth ⟨base, typeName⟩ visited ∧
        frames.map StackFrame.coroutine? = visited.map some ∧
        frames.length ≤ maxAwaitDepth ∧ last.map ChildRef.typeName = leaf ∧
        (∀ name, leaf = some name →
          (∀ child, last = some child →
            (StackFrame.leaf child).logicalFrame.suspend.map SuspendPoint.kind =
              some (classifyLeaf name).suspend) ∧
          taskState view layouts base layout none = .ok (.blocked (classifyLeaf name).block) ∧
          wakeCause view layouts base layout = .ok (classifyLeaf name).wake) ∧
        (leaf = none → wakeCause view layouts base layout = .ok .unknown) := by
  -- Both walks read the same discriminants in the same order, and fail at the same one.
  have herror : ∀ e, leafType view layouts base layout = .error e ↔
      logicalStack view layouts base typeName = .error e := by
    intro e
    rw [logicalStack_error_iff]
    exact leafTypeFrom_error_iff honly (c := ⟨base, typeName⟩) hlayout e
  refine ⟨herror, ?_⟩
  intro leaf hleaf
  cases hstack : stackFrom view layouts maxAwaitDepth base typeName with
  | error e =>
    have hfailed := (herror e).mpr ((logicalStack_error_iff e).mpr hstack)
    cases hleaf.symm.trans hfailed
  | ok stack =>
    rcases stackFrom_follows (c := ⟨base, typeName⟩) hstack with ⟨frames, last, hfollows, rfl⟩
    rcases hfollows.path honly with ⟨visited, hpath, hframes⟩
    have hsame : last.map ChildRef.typeName = leaf :=
      Except.ok.inj ((hfollows.leafTypeFrom honly hlayout).symm.trans hleaf)
    have hlength : frames.length ≤ maxAwaitDepth := by
      have heq := congrArg List.length hframes
      rw [List.length_map, List.length_map] at heq
      rw [heq]
      exact hpath.length_le
    refine ⟨frames, visited, last, ?_, hpath, hframes, hlength, hsame, ?_, ?_⟩
    · rw [logicalStack, hstack]
      rfl
    · intro name hname
      subst hname
      refine ⟨?_, ?_, ?_⟩
      · intro child hchild
        rw [hchild] at hsame
        rw [← Option.some.inj hsame]
        rfl
      · rcases Option.map_eq_some_iff.mp hsame with ⟨child, rfl, -⟩
        rcases hfollows.suspended with ⟨layout', variant, hself, hsuspend⟩
        rcases Option.some.inj (hlayout.symm.trans hself.1) with rfl
        exact taskState_suspended hself hsuspend hleaf
      · rw [wakeCause, hleaf]
        rfl
    · intro hnone
      rw [wakeCause, hleaf, hnone]
      rfl

/-- The one variant of such a coroutine is a suspend point. -/
theorem suspendedIn_variant {typeName : String} {awaitee : ChildRef} {children : List ChildRef}
    {discr : UInt64} {variant : VariantInfo}
    (h : (suspendedIn typeName awaitee children).variantFor discr = some variant) :
    variant.kind.isSuspend = true := by
  rw [AsyncFnLayout.variantFor, suspendedIn, KeyMap.get_insert, KeyMap.get_empty] at h
  split at h
  · rw [← Option.some.inj h]
    rfl
  · cases h

theorem OnlySuspendsAwait.insert {layouts : AsyncLayouts} (h : OnlySuspendsAwait layouts)
    (typeName : String) (awaitee : ChildRef) (children : List ChildRef) :
    OnlySuspendsAwait (layouts.insert (suspendedIn typeName awaitee children)) := by
  intro name layout discr variant hlayout hvariant hkind
  rw [AsyncLayouts.get, AsyncLayouts.insert, KeyMap.get_insert] at hlayout
  split at hlayout
  · rcases Option.some.inj hlayout with rfl
    rw [suspendedIn_variant hvariant] at hkind
    cases hkind
  · exact h name layout discr variant hlayout hvariant hkind

/-- `outer` awaits `joiner`, which awaits `sleeper`, which awaits a timer. -/
def nested : AsyncLayouts :=
  ((AsyncLayouts.new.insert (suspendedIn outer ⟨8, joiner⟩ [])).insert
    (suspendedIn joiner ⟨16, sleeper⟩ [])).insert
    (suspendedIn sleeper ⟨8, "tokio::time::sleep::Sleep"⟩ [])

theorem onlySuspendsAwait_nested : OnlySuspendsAwait nested := by
  refine ((OnlySuspendsAwait.insert ?_ outer _ _).insert joiner _ _).insert sleeper _ _
  intro name layout discr variant hlayout
  rw [AsyncLayouts.get, AsyncLayouts.new, KeyMap.get_empty] at hlayout
  cases hlayout

/-- A task three coroutines deep sleeps: its stack, its state and its wake cause tell of the
one timer at the end. -/
theorem await_walks_agree_nested :
    ∃ layout frames, nested.get outer = some layout ∧
      leafType allSuspended nested 0x1000 layout = .ok (some "tokio::time::sleep::Sleep") ∧
      logicalStack allSuspended nested 0x1000 outer = .ok frames ∧
      frames.map LogicalFrame.displayName = ["outer", "joiner", "sleeper", "Sleep"] ∧
      (∃ visited, visited.length = 3 ∧
        Chain.Path (Awaits allSuspended nested) maxAwaitDepth ⟨0x1000, outer⟩ visited) ∧
      taskState allSuspended nested 0x1000 layout none = .ok (.blocked .timer) ∧
      wakeCause allSuspended nested 0x1000 layout = .ok .timer := by
  have hstack : ∃ frames, logicalStack allSuspended nested 0x1000 outer = .ok frames ∧
      frames.map LogicalFrame.displayName = ["outer", "joiner", "sleeper", "Sleep"] :=
    ⟨_, rfl, by decide⟩
  rcases hstack with ⟨stack, hstack, hnames⟩
  have hagree := @await_walks_agree allSuspended nested onlySuspendsAwait_nested 0x1000 outer _ rfl
  rcases hagree.2 _ rfl with ⟨frames, visited, last, hframes, hpath, hvisited, -, hlast, hleaf, -⟩
  refine ⟨suspendedIn outer ⟨8, joiner⟩ [], stack, rfl, rfl, hstack, hnames, ⟨visited, ?_, hpath⟩,
    (hleaf _ rfl).2⟩
  -- one frame is the timer's, the others are those of the coroutines
  have hlength := congrArg List.length hnames
  rcases Except.ok.inj (hstack.symm.trans hframes) with rfl
  rcases Option.map_eq_some_iff.mp hlast with ⟨child, rfl, -⟩
  have hcoroutines := congrArg List.length hvisited
  simp only [withLeaf, List.map_append, List.length_append, List.length_map, List.length_cons,
    List.length_nil, Option.toList] at hlength hcoroutines
  omega

/-! ## The order of the frames -/

section

variable (view layouts)

/-- The first frame is a coroutine that awaits the future of the second. -/
def AwaitsFrame (f g : StackFrame) : Prop :=
  ∃ c child, f.coroutine? = some c ∧ SuspendedOn view layouts c child ∧
    ((layouts.isCoroutine child.typeName = true ∧
        g.coroutine? = some ⟨c.base + child.offset, child.typeName⟩) ∨
      layouts.isCoroutine child.typeName = false ∧ g = .leaf child)

/-- The stack of a task has its innermost frame first: the task's own coroutine comes last,
each frame is awaited by the next one, and the first awaits nothing more, unless the stack has
been cut off. -/
structure InnermostFirst (task : Coroutine) (stack : List StackFrame) : Prop where
  own : ∃ f, stack.getLast? = some f ∧ f.coroutine? = some task
  awaited : ∀ (k : Nat) (f g : StackFrame), stack[k]? = some f → stack[k + 1]? = some g →
    AwaitsFrame view layouts g f
  innermost : ∃ f, stack.head? = some f ∧
    (stack.length = maxAwaitDepth ∨ ∀ g, ¬ AwaitsFrame view layouts f g)

end

/-- A coroutine that awaits itself is followed until the walk is cut off. -/
theorem Follows.of_self {c : Coroutine} {child : ChildRef}
    (hself : SuspendedOn view layouts c child)
    (hsame : (⟨c.base + child.offset, child.typeName⟩ : Coroutine) = c) {depth : Nat}
    {frames : List StackFrame} {leaf : Option ChildRef}
    (h : Follows view layouts depth c frames leaf) :
    leaf = none ∧ frames.length = depth ∧ ∀ f ∈ frames, f.coroutine? = some c := by
  induction depth generalizing frames leaf with
  | zero =>
    cases h with
    | cut => exact ⟨rfl, rfl, fun f hf => absurd hf List.not_mem_nil⟩
  | succ depth ih =>
    cases h with
    | stop hactive hstop =>
      rcases (hactive.suspendedOn_iff child).mp hself with ⟨hsuspend, hchild⟩
      rcases hstop with hkind | hnone
      · rw [hkind] at hsuspend
        cases hsuspend
      · cases hnone.symm.trans hchild
    | leaf hactive _ hchild hleaf =>
      rcases Option.some.inj (hchild.symm.trans ((hactive.suspendedOn_iff child).mp hself).2)
        with rfl
      -- the child is of the coroutine's own type, which has a layout
      have hname := congrArg Coroutine.typeName hsame
      dsimp only at hname
      rw [AsyncLayouts.isCoroutine, hname, hactive.1] at hleaf
      cases hleaf
    | step hactive _ hchild hcoroutine hrest =>
      rcases Option.some.inj (hchild.symm.trans ((hactive.suspendedOn_iff child).mp hself).2)
        with rfl
      rw [hsame] at hrest
      rcases ih hrest with ⟨hnone, hlength, hall⟩
      refine ⟨hnone, by rw [List.length_cons, hlength], ?_⟩
      intro f hf
      rcases List.mem_cons.mp hf with rfl | hf
      · exact hactive.coroutine_frame _
      · exact hall f hf

/-- The frames of a coroutine that goes on to another. -/
theorem Follows.goesOn {c d : Coroutine} (hnext : GoesOn view layouts c d) {depth : Nat}
    {frames : List StackFrame} {leaf : Option ChildRef}
    (h : Follows view layouts (depth + 1) c frames leaf) :
    ∃ f rest, frames = f :: rest ∧ f.coroutine? = some c ∧
      Follows view layouts depth d rest leaf := by
  rcases hnext with ⟨⟨layout', discr', variant', hlayout', hactive', hsuspend'⟩, hawaits⟩
  rcases hawaits with ⟨layout'', discr'', variant'', child, hlayout'', hactive'', hchild, hyes, rfl⟩
  have hactive : IsActive view layouts c layout'' variant'' := ⟨hlayout'', discr'', hactive''⟩
  rcases hactive.unique ⟨hlayout', discr', hactive'⟩ with ⟨rfl, rfl⟩
  cases h with
  | stop hself hstop =>
    rcases hself.unique hactive with ⟨rfl, rfl⟩
    rcases hstop with hkind | hnone
    · rw [hkind] at hsuspend'
      cases hsuspend'
    · cases hnone.symm.trans hchild
  | leaf hself _ hchild' hleaf =>
    rcases hself.unique hactive with ⟨rfl, rfl⟩
    rcases Option.some.inj (hchild.symm.trans hchild') with rfl
    cases hleaf.symm.trans hyes
  | step hself _ hchild' _ hrest =>
    rcases hself.unique hactive with ⟨rfl, rfl⟩
    rcases Option.some.inj (hchild.symm.trans hchild') with rfl
    exact ⟨_, _, rfl, hself.coroutine_frame _, hrest⟩

/-- Two coroutines that await each other take turns, so an even number of frames ends with the
other one. -/
theorem Follows.alternate {c d : Coroutine} (hcd : GoesOn view layouts c d)
    (hdc : GoesOn view layouts d c) {n : Nat} {frames : List StackFrame}
    {leaf : Option ChildRef} (h : Follows view layouts (2 * n + 2) c frames leaf) :
    leaf = none ∧ ∃ f, frames.getLast? = some f ∧ f.coroutine? = some d := by
  induction n generalizing frames with
  | zero =>
    rcases h.goesOn hcd with ⟨f, rest, rfl, -, h⟩
    rcases h.goesOn hdc with ⟨g, rest, rfl, hg, h⟩
    cases h with
    | cut => exact ⟨rfl, g, rfl, hg⟩
  | succ n ih =>
    rcases h.goesOn hcd with ⟨f, rest, rfl, -, h⟩
    rcases h.goesOn hdc with ⟨g, rest, rfl, -, h⟩
    rcases ih h with ⟨hnone, last, hlast, hd⟩
    refine ⟨hnone, last, ?_, hd⟩
    rw [List.getLast?_cons, List.getLast?_cons, hlast]
    rfl

/-- A walk that is not cut off at once begins with the frame of its coroutine. -/
theorem Follows.first {depth : Nat} {c : Coroutine} {frames : List StackFrame}
    {leaf : Option ChildRef} (h : Follows view layouts depth c frames leaf) (hpos : 0 < depth) :
    ∃ f rest, frames = f :: rest ∧ f.coroutine? = some c := by
  cases h with
  | cut => omega
  | stop hself => exact ⟨_, _, rfl, hself.coroutine_frame _⟩
  | leaf hself => exact ⟨_, _, rfl, hself.coroutine_frame _⟩
  | step hself => exact ⟨_, _, rfl, hself.coroutine_frame _⟩

/-- Where one coroutine's frame awaits that of another, the walk goes on to it. -/
theorem AwaitsFrame.goesOn {f g : StackFrame} {c d : Coroutine}
    (h : AwaitsFrame view layouts f g) (hf : f.coroutine? = some c)
    (hg : g.coroutine? = some d) : GoesOn view layouts c d := by
  rcases h with ⟨c', child, hc', hon, hnext⟩
  rcases Option.some.inj (hf.symm.trans hc') with rfl
  rcases hon with ⟨layout, discr, variant, hlayout, hactive, hsuspend, hchild⟩
  rcases hnext with ⟨hcoroutine, hd⟩ | ⟨-, rfl⟩
  · rcases Option.some.inj (hg.symm.trans hd) with rfl
    exact ⟨⟨layout, discr, variant, hlayout, hactive, hsuspend⟩, layout, discr, variant, child,
      hlayout, hactive, hchild, hcoroutine, rfl⟩
  · cases hg

/-- A stack of one coroutine over and over is innermost first, if it awaits itself. -/
theorem innermostFirst_self {c : Coroutine} {child : ChildRef}
    (hself : SuspendedOn view layouts c child)
    (hsame : (⟨c.base + child.offset, child.typeName⟩ : Coroutine) = c)
    {stack : List StackFrame} (hlength : stack.length = maxAwaitDepth)
    (hall : ∀ f ∈ stack, f.coroutine? = some c) : InnermostFirst view layouts c stack := by
  have hcoroutine : layouts.isCoroutine child.typeName = true := by
    rcases hself with ⟨layout, discr, variant, hlayout, -⟩
    have hname := congrArg Coroutine.typeName hsame
    dsimp only at hname
    rw [AsyncLayouts.isCoroutine, hname, hlayout]
    rfl
  have hne : stack ≠ [] := by
    intro hnil
    rw [hnil] at hlength
    cases hlength
  refine ⟨?_, ?_, ?_⟩
  · exact ⟨stack.getLast hne, List.getLast?_eq_some_getLast hne, hall _ (List.getLast_mem hne)⟩
  · intro k f g hf hg
    refine ⟨c, child, hall g (List.mem_of_getElem? hg), hself, .inl ⟨hcoroutine, ?_⟩⟩
    rw [hsame]
    exact hall f (List.mem_of_getElem? hf)
  · exact ⟨stack.head hne, List.head?_eq_some_head hne, .inl hlength⟩

/-- A stack has its innermost frame first exactly when the task awaits no other future. -/
theorem innermostFirst_iff {c : Coroutine} {stack : List StackFrame}
    (h : stackFrom view layouts maxAwaitDepth c.base c.typeName = .ok stack) :
    InnermostFirst view layouts c stack ↔ ∀ child, SuspendedOn view layouts c child →
      (⟨c.base + child.offset, child.typeName⟩ : Coroutine) = c := by
  rcases stackFrom_follows h with ⟨frames, leaf, hfollows, rfl⟩
  have hwalk := hfollows
  cases hfollows with
  | @stop _ _ layout variant hself hstop =>
    -- one frame, that of a coroutine that awaits nothing
    have hnone : ∀ child, ¬ SuspendedOn view layouts c child := by
      intro child hon
      rcases (hself.suspendedOn_iff child).mp hon with ⟨hsuspend, hchild⟩
      rcases hstop with hkind | hawaitee
      · rw [hkind] at hsuspend
        cases hsuspend
      · cases hawaitee.symm.trans hchild
    constructor
    · intro _ child hon
      exact absurd hon (hnone child)
    · intro _
      have hframe := hself.coroutine_frame none
      refine ⟨⟨_, rfl, hframe⟩, ?_, ⟨_, rfl, .inr ?_⟩⟩
      · intro k f g _ hg
        cases k <;> cases hg
      · rintro g ⟨c', child, hc', hon, -⟩
        rcases Option.some.inj (hframe.symm.trans hc') with rfl
        exact hnone child hon
  | @leaf _ _ layout variant child hself hsuspend hchild hleaf =>
    have hon := (hself.suspendedOn_iff child).mpr ⟨hsuspend, hchild⟩
    constructor
    · intro hfirst
      -- the last frame is the leaf's, not the task's own
      rcases hfirst.own with ⟨f, hf, hown⟩
      rcases Option.some.inj hf with rfl
      cases hown
    · intro hsame
      have hname := congrArg Coroutine.typeName (hsame child hon)
      dsimp only at hname
      rw [AsyncLayouts.isCoroutine, hname, hself.1] at hleaf
      cases hleaf
  | @step depth _ layout variant child frames leaf hself hsuspend hchild hcoroutine hrest =>
    have hon := (hself.suspendedOn_iff child).mpr ⟨hsuspend, hchild⟩
    have honly : ∀ other, SuspendedOn view layouts c other → other = child := fun other hother =>
      Option.some.inj (((hself.suspendedOn_iff other).mp hother).2.symm.trans hchild)
    have hgoes : GoesOn view layouts c ⟨c.base + child.offset, child.typeName⟩ := by
      rcases hself with ⟨hlayout, discr, hactive⟩
      exact ⟨⟨layout, discr, variant, hlayout, hactive, hsuspend⟩, layout, discr, variant, child,
        hlayout, hactive, hchild, hcoroutine, rfl⟩
    constructor
    · intro hfirst other hother
      rw [honly other hother]
      -- the second frame awaits the first, so the two coroutines await each other
      have hback : GoesOn view layouts ⟨c.base + child.offset, child.typeName⟩ c := by
        rcases hrest.first (by decide) with ⟨g, rest, rfl, hg⟩
        exact (hfirst.awaited 0 _ g rfl rfl).goesOn hg (hself.coroutine_frame _)
      rcases @Follows.alternate _ _ _ _ hgoes hback 31 _ _ hwalk with ⟨rfl, f, hf, hd⟩
      rcases hfirst.own with ⟨f', hf', hc⟩
      rw [withLeaf, Option.toList_none, List.map_nil, List.append_nil, hf] at hf'
      rcases Option.some.inj hf' with rfl
      exact Option.some.inj (hd.symm.trans hc)
    · intro hsame
      rcases hwalk.of_self hon (hsame child hon) with ⟨rfl, hlength, hall⟩
      rw [withLeaf, Option.toList_none, List.map_nil, List.append_nil]
      exact innermostFirst_self hon (hsame child hon) hlength hall

/-- **When a logical stack is innermost first.** The stack of a task that is found has its
innermost frame first exactly when the task's own coroutine is not suspended on another
future. -/
theorem stack_innermost_first_iff {decoder : TokioDecoder} {task : TaskId}
    {frames : List LogicalFrame} (h : decoder.logicalStack view task = .ok frames) :
    ∃ nodes n stack, decoder.enumerate view = .ok nodes ∧
      TokioDecoder.nodeFor nodes task = .ok n ∧
      stackFrom view decoder.layouts maxAwaitDepth n.base n.typeName = .ok stack ∧
      frames = stack.map StackFrame.logicalFrame ∧
      (InnermostFirst view decoder.layouts n.coroutine stack ↔
        ∀ child, SuspendedOn view decoder.layouts n.coroutine child →
          (⟨n.base + child.offset, child.typeName⟩ : Coroutine) = n.coroutine) := by
  rcases Effect.except_bind_ok h with ⟨nodes, hnodes, h⟩
  rcases Effect.except_bind_ok h with ⟨n, hn, h⟩
  rcases Effect.except_bind_ok h with ⟨stack, hstack, h⟩
  refine ⟨nodes, n, stack, hnodes, hn, hstack, (Except.ok.inj h).symm, ?_⟩
  exact @innermostFirst_iff view decoder.layouts n.coroutine stack hstack

/-- A decoder for one `sleeper` that has not started, or sleeps. -/
def napper : TokioDecoder where
  layouts := AsyncLayouts.new.insert
    { typeName := sleeper
      discrOffset := 120
      discrSize := 1
      variants := ((∅ : KeyMap UInt64 VariantInfo).insert 0
          { kind := .unresumed, awaitLocation := none, awaitee := none, children := [] }).insert 3
        { kind := .suspend 0, awaitLocation := none
          awaitee := some ⟨8, "tokio::time::sleep::Sleep"⟩, children := [] } }
  roots := [⟨1, 0x1000, sleeper, none⟩]
  plan := none

/-- A memory in which every byte is the given one. -/
def allBytes (b : UInt8) : ProcessView := { allSuspended with
  readMemory := fun _ len => .ok (List.replicate len b) }

/-- A task that has not started has one frame, its own. -/
theorem stack_of_unresumed :
    ∃ frames n stack, napper.logicalStack (allBytes 0) ⟨1⟩ = .ok frames ∧
      frames = stack.map StackFrame.logicalFrame ∧ stack.length = 1 ∧
      InnermostFirst (allBytes 0) napper.layouts n stack := by
  have hstack : ∃ frames, napper.logicalStack (allBytes 0) ⟨1⟩ = .ok frames ∧
      frames.length = 1 := ⟨_, rfl, rfl⟩
  rcases hstack with ⟨frames, hframes, hlength⟩
  rcases stack_innermost_first_iff hframes with ⟨nodes, n, stack, hnodes, hn, hstack, rfl, hiff⟩
  rcases Except.ok.inj hnodes with rfl
  rcases Except.ok.inj hn with rfl
  refine ⟨_, _, stack, hframes, rfl, ?_, hiff.mpr ?_⟩
  · rw [List.length_map] at hlength
    exact hlength
  · rintro child ⟨layout, discr, variant, hlayout, hactive, hsuspend, -⟩
    rcases Option.some.inj hlayout with rfl
    rcases Prod.mk.inj (Except.ok.inj hactive) with ⟨-, rfl⟩
    cases hsuspend

/-- The stack of a sleeping task begins with the task's own frame, and ends with the timer. -/
theorem sleeper_outermost_first :
    ∃ frames stack, napper.logicalStack (allBytes 3) ⟨1⟩ = .ok frames ∧
      stackFrom (allBytes 3) napper.layouts maxAwaitDepth 0x1000 sleeper = .ok stack ∧
      frames = stack.map StackFrame.logicalFrame ∧
      frames.map LogicalFrame.displayName = ["sleeper", "Sleep"] ∧
      ¬ InnermostFirst (allBytes 3) napper.layouts ⟨0x1000, sleeper⟩ stack := by
  refine ⟨_, _, rfl, rfl, rfl, by decide, ?_⟩
  intro hfirst
  rcases hfirst.own with ⟨f, hf, hown⟩
  rcases Option.some.inj hf with rfl
  cases hown

end Mirrorscope.Decoder.AsyncRust
