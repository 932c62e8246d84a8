import Mirrorscope.Decoder.AwaitChain
import Mirrorscope.Decoder.TaskWalk

/-! # Finished tasks

Once a task is done, Tokio keeps its output where the coroutine was. The header of the task says
that it is done, but the walk looks at the coroutine's storage all the same: for its variant, for
the future it awaits and for the coroutines it holds. Here is what the walk needs of that storage.

* `Legible`: the storage reads well enough for one node. `Unfolds`: for a whole walk, and how
  many nodes it makes.
* `enumerate_ok_iff`: the walk succeeds where it unfolds within its bound.
* `finished_decoded_iff`: when finished tasks spoil nothing.
-/

namespace Mirrorscope.Decoder.AsyncRust

/-- The header of the task says that it is done. -/
def finished (view : ProcessView) (root : TaskRoot) : Bool :=
  match root.headerAddr with
  | none => false
  | some addr =>
    match view.readMemory addr 8 with
    | .error _ => false
    | .ok bytes =>
      let state := orBytes (bytes.take 8)
      state &&& complete ≠ 0 ∨ state &&& cancelled ≠ 0

section

variable (view : ProcessView) (layouts : AsyncLayouts)

/-- The storage reads as a coroutine of this type: its discriminant names a variant, and so on
along the futures it awaits. The variant holds `children`. -/
def Legible (c : Coroutine) (children : List (UInt64 × String)) : Prop :=
  ∃ layout discr variant leaf, layouts.get c.typeName = some layout ∧
    activeVariant view c.base layout = .ok (discr, variant) ∧
    leafType view layouts c.base layout = .ok leaf ∧
    children = variant.children.map fun child => (c.base + child.offset, child.typeName)

/-- The header can be read, where there is one. -/
def HeaderReads (headerAddr : Option UInt64) : Prop :=
  ∀ addr ∈ headerAddr, ∃ bytes, view.readMemory addr 8 = .ok bytes

/-- A coroutine to look at, with the task header where there is one. -/
abbrev Item : Type := Coroutine × Option UInt64

def childItem (child : UInt64 × String) : Item := (⟨child.1, child.2⟩, none)

def TaskRoot.item (root : TaskRoot) : Item := (root.coroutine, root.headerAddr)

/-- All coroutines from these on can be read, and there are so many. -/
inductive Unfolds : List Item → Nat → Prop where
  | nil : Unfolds [] 0
  | cons {c : Coroutine} {headerAddr : Option UInt64} {children : List (UInt64 × String)}
      {rest : List Item} {n m : Nat} (legible : Legible view layouts c children)
      (header : HeaderReads view headerAddr) (inner : Unfolds (children.map childItem) n)
      (others : Unfolds rest m) : Unfolds ((c, headerAddr) :: rest) (n + 1 + m)

end

variable {view : ProcessView} {layouts : AsyncLayouts} {decoder : TokioDecoder}

/-! ## One coroutine -/

theorem legible_unique {c : Coroutine} {children children' : List (UInt64 × String)}
    (h : Legible view layouts c children) (h' : Legible view layouts c children') :
    children = children' := by
  rcases h with ⟨layout, discr, variant, leaf, hlayout, hactive, -, rfl⟩
  rcases h' with ⟨layout', discr', variant', leaf', hlayout', hactive', -, rfl⟩
  rcases Option.some.inj (hlayout.symm.trans hlayout') with rfl
  rcases Prod.mk.inj (Except.ok.inj (hactive.symm.trans hactive')) with ⟨-, rfl⟩
  rfl

/-- A header that says that the task is done settles the state, once the variant is read. -/
theorem taskState_finished {root : TaskRoot} (hfinished : finished view root = true)
    {layout : AsyncFnLayout} {active : UInt64 × VariantInfo}
    (hactive : activeVariant view root.base layout = .ok active) :
    taskState view layouts root.base layout root.headerAddr = .ok .completed := by
  unfold finished at hfinished
  cases hheader : root.headerAddr with
  | none =>
    rw [hheader] at hfinished
    cases hfinished
  -- A header that reads as complete decides the state alone.
  | some addr =>
    rw [hheader] at hfinished
    cases hread : view.readMemory addr 8 with
    | error e =>
      simp only [hread] at hfinished
      cases hfinished
    | ok bytes =>
      simp only [hread] at hfinished
      have hbits := of_decide_eq_true hfinished
      have hstate : classifyHeaderState (orBytes (bytes.take 8)) = .completed := by
        rw [classifyHeaderState, if_pos hbits]
      rw [taskState, hactive, Effect.except_ok_bind]
      dsimp only [baseState]
      rw [hread]
      simp only [Effect.except_ok_bind, hstate]
      rfl

/-- The state of a task is known exactly if its variant and its header are read, and the futures
it awaits can be read if it is blocked. -/
theorem taskState_ok {base : UInt64} {layout : AsyncFnLayout} {headerAddr : Option UInt64}
    {active : UInt64 × VariantInfo} {leaf : Option String}
    (hactive : activeVariant view base layout = .ok active)
    (hheader : HeaderReads view headerAddr)
    (hleaf : leafType view layouts base layout = .ok leaf) :
    ∃ state, taskState view layouts base layout headerAddr = .ok state := by
  have hbase : ∃ state, baseState view active.2 headerAddr = .ok state := by
    cases headerAddr with
    | none => exact ⟨_, rfl⟩
    | some addr =>
      rcases hheader addr rfl with ⟨bytes, hread⟩
      dsimp only [baseState]
      rw [hread]
      exact ⟨_, rfl⟩
  rcases hbase with ⟨state, hstate⟩
  rw [taskState, hactive, Effect.except_ok_bind]
  dsimp only
  rw [hstate, Effect.except_ok_bind, hleaf]
  cases state with
  | blocked on => cases leaf <;> exact ⟨_, rfl⟩
  | runnable => exact ⟨_, rfl⟩
  | running => exact ⟨_, rfl⟩
  | completed => exact ⟨_, rfl⟩

theorem headerReads_of_taskState {base : UInt64} {layout : AsyncFnLayout}
    {headerAddr : Option UInt64} {state : TaskState}
    (h : taskState view layouts base layout headerAddr = .ok state) :
    HeaderReads view headerAddr := by
  rcases Effect.except_bind_ok h with ⟨active, -, h⟩
  rcases Effect.except_bind_ok h with ⟨first, hfirst, -⟩
  intro addr haddr
  rw [Option.mem_def.mp haddr] at hfirst
  rcases Effect.except_bind_ok hfirst with ⟨bytes, hread, -⟩
  exact ⟨bytes, hread⟩

/-- A coroutine can be decoded exactly if its storage reads as one, and its header reads. -/
theorem decodeNode_ok_iff {base : UInt64} {typeName : String} {headerAddr : Option UInt64}
    {id : TaskId} {parent : Option TaskId} {children : List (UInt64 × String)} :
    (∃ n, decoder.decodeNode view base typeName headerAddr id parent = .ok (n, children)) ↔
      Legible view decoder.layouts ⟨base, typeName⟩ children ∧ HeaderReads view headerAddr := by
  unfold TokioDecoder.decodeNode
  constructor
  · rintro ⟨n, h⟩
    cases hlayout : decoder.layouts.get typeName with
    | none =>
      rw [hlayout] at h
      cases h
    | some layout =>
      rw [hlayout] at h
      rcases Effect.except_bind_ok h with ⟨state, hstate, h⟩
      rcases Effect.except_bind_ok h with ⟨wake, hwake, h⟩
      rcases Effect.except_bind_ok h with ⟨found, hfound, h⟩
      rcases Prod.mk.inj (Except.ok.inj h) with ⟨-, rfl⟩
      rcases Effect.except_bind_ok hwake with ⟨leaf, hleaf, -⟩
      rcases Effect.except_bind_ok hfound with ⟨⟨discr, variant⟩, hactive, hchildren⟩
      refine ⟨?_, headerReads_of_taskState hstate⟩
      exact ⟨layout, discr, variant, leaf, hlayout, hactive, hleaf,
        (Except.ok.inj hchildren).symm⟩
  · rintro ⟨⟨layout, discr, variant, leaf, hlayout, hactive, hleaf, rfl⟩, hheader⟩
    rcases taskState_ok hactive hheader hleaf with ⟨state, hstate⟩
    -- The wake cause needs no read beyond the leaf.
    have hwake : ∃ wake, wakeCause view decoder.layouts base layout = .ok wake := by
      rw [wakeCause, hleaf, Effect.except_ok_bind]
      cases leaf <;> exact ⟨_, rfl⟩
    rcases hwake with ⟨wake, hwake⟩
    dsimp only at hlayout
    rw [hlayout]
    dsimp only
    rw [hstate, Effect.except_ok_bind, hwake, Effect.except_ok_bind, fanOutChildren, hactive]
    exact ⟨_, rfl⟩

/-! ## All coroutines -/

theorem unfolds_cons_iff {c : Coroutine} {headerAddr : Option UInt64} {rest : List Item}
    {total : Nat} :
    Unfolds view layouts ((c, headerAddr) :: rest) total ↔
      ∃ children n m, Legible view layouts c children ∧ HeaderReads view headerAddr ∧
        Unfolds view layouts (children.map childItem) n ∧ Unfolds view layouts rest m ∧
        total = n + 1 + m := by
  constructor
  · intro h
    cases h with
    | @cons _ _ children _ n m legible header inner others =>
      exact ⟨children, n, m, legible, header, inner, others, rfl⟩
  · rintro ⟨children, n, m, legible, header, inner, others, rfl⟩
    exact .cons legible header inner others

/-- So many, and no other number. -/
theorem Unfolds.unique {items : List Item} {n n' : Nat} (h : Unfolds view layouts items n)
    (h' : Unfolds view layouts items n') : n = n' := by
  induction h generalizing n' with
  | nil =>
    cases h'
    rfl
  | cons legible _ _ _ ihInner ihOthers =>
    rcases unfolds_cons_iff.mp h' with ⟨children', k, l, legible', -, inner', others', rfl⟩
    rcases legible_unique legible legible' with rfl
    rw [ihInner inner', ihOthers others']

/-- One item, and then the others. -/
theorem Unfolds.cons_append {item : Item} {rest : List Item} {n m : Nat}
    (h : Unfolds view layouts [item] n) (h' : Unfolds view layouts rest m) :
    Unfolds view layouts (item :: rest) (n + m) := by
  rcases item with ⟨c, headerAddr⟩
  rcases unfolds_cons_iff.mp h with ⟨children, k, l, legible, header, inner, others, rfl⟩
  cases others
  exact .cons legible header inner h'

/-- The items of one kind and those of the other, together. -/
theorem unfolds_filter_iff {α : Type} {item : α → Item} {p : α → Bool} {as : List α}
    {total : Nat} :
    Unfolds view layouts (as.map item) total ↔
      ∃ n m, Unfolds view layouts ((as.filter (!p ·)).map item) n ∧
        Unfolds view layouts ((as.filter p).map item) m ∧ total = n + m := by
  -- Item by item: each counts on the side its predicate puts it.
  induction as generalizing total with
  | nil =>
    constructor
    · intro h
      cases h
      exact ⟨0, 0, .nil, .nil, rfl⟩
    · rintro ⟨n, m, h, h', rfl⟩
      cases h
      cases h'
      exact .nil
  | cons a as ih =>
    have hitem : item a = ((item a).1, (item a).2) := rfl
    by_cases hp : p a = true
    · rw [List.filter_cons_of_pos hp, List.filter_cons_of_neg (by simp [hp]), List.map_cons,
        List.map_cons, hitem]
      simp only [unfolds_cons_iff]
      constructor
      · rintro ⟨children, k, rest, legible, header, inner, hrest, rfl⟩
        rcases ih.mp hrest with ⟨n, m, hn, hm, rfl⟩
        exact ⟨n, _, hn, ⟨children, k, m, legible, header, inner, hm, rfl⟩, by omega⟩
      · rintro ⟨n, _, hn, ⟨children, k, m, legible, header, inner, hm, rfl⟩, rfl⟩
        exact ⟨children, k, n + m, legible, header, inner, ih.mpr ⟨n, m, hn, hm, rfl⟩, by omega⟩
    · rw [List.filter_cons_of_neg hp, List.filter_cons_of_pos (by simp [hp]), List.map_cons,
        List.map_cons, hitem]
      simp only [unfolds_cons_iff]
      constructor
      · rintro ⟨children, k, rest, legible, header, inner, hrest, rfl⟩
        rcases ih.mp hrest with ⟨n, m, hn, hm, rfl⟩
        exact ⟨_, m, ⟨children, k, n, legible, header, inner, hn, rfl⟩, hm, by omega⟩
      · rintro ⟨_, m, ⟨children, k, n, legible, header, inner, hn, rfl⟩, hm, rfl⟩
        exact ⟨children, k, n + m, legible, header, inner, ih.mpr ⟨n, m, hn, hm, rfl⟩, by omega⟩

/-! ## The walk -/

theorem foldlM_unfolds {α : Type} {item : α → Item}
    {step : Expansion → α → Except DecoderError Expansion}
    (hstep : ∀ s a s', step s a = .ok s' →
      ∃ n, Unfolds view layouts [item a] n ∧ s'.out.length = s.out.length + n)
    {as : List α} {s s' : Expansion} (h : as.foldlM step s = .ok s') :
    ∃ n, Unfolds view layouts (as.map item) n ∧ s'.out.length = s.out.length + n := by
  induction as generalizing s with
  | nil =>
    rcases Except.ok.inj h with rfl
    exact ⟨0, .nil, rfl⟩
  | cons a as ih =>
    rw [List.foldlM_cons] at h
    rcases Effect.except_bind_ok h with ⟨s₁, hfirst, hrest⟩
    rcases hstep s a s₁ hfirst with ⟨n, hn, hlength⟩
    rcases ih hrest with ⟨m, hm, hlength'⟩
    exact ⟨n + m, hn.cons_append hm, by omega⟩

/-- What has been expanded could be read. -/
theorem expand_unfolds {depth : Nat} {base : UInt64} {typeName : String}
    {headerAddr : Option UInt64} {id : TaskId} {parent : Option TaskId} {acc acc' : Expansion}
    (h : decoder.expand view depth base typeName headerAddr id parent acc = .ok acc') :
    ∃ n, Unfolds view decoder.layouts [(⟨base, typeName⟩, headerAddr)] n ∧
      acc'.out.length = acc.out.length + n := by
  induction depth generalizing base typeName headerAddr id parent acc acc' with
  | zero => cases h
  | succ depth ih =>
    rw [TokioDecoder.expand] at h
    split at h
    · cases h
    · rcases Effect.except_bind_ok h with ⟨⟨node, children⟩, hdecode, h⟩
      rcases decodeNode_ok_iff.mp ⟨node, hdecode⟩ with ⟨legible, header⟩
      have hstep : ∀ (s : Expansion) (child : UInt64 × String) (s' : Expansion),
          decoder.expand view depth child.1 child.2 none ⟨s.nextId⟩ (some id)
            { s with nextId := s.nextId + 1 } = .ok s' →
          ∃ n, Unfolds view decoder.layouts [childItem child] n ∧
            s'.out.length = s.out.length + n := by
        intro s child s' hchild
        have hgrown := ih hchild
        exact hgrown
      rcases foldlM_unfolds hstep h with ⟨n, inner, hlength⟩
      refine ⟨n + 1 + 0, .cons legible header inner .nil, ?_⟩
      rw [hlength, List.length_append, List.length_singleton]
      omega

/-- What can be read is expanded, where there is room for it. Every step may hand on the number
it likes. -/
theorem foldlM_of_unfolds {items : List Item} {n : Nat}
    (h : Unfolds view decoder.layouts items n) {α : Type} {item : α → Item}
    {step : Expansion → α → Except DecoderError Expansion} {depth : Nat}
    (hstep : ∀ s a, ∃ id parent nextId, step s a =
      decoder.expand view depth (item a).1.base (item a).1.typeName (item a).2 id parent
        { s with nextId := nextId })
    {as : List α} (has : as.map item = items) {s : Expansion}
    (hroom : s.out.length + n ≤ maxTasks) (hdepth : maxTasks < depth + s.out.length) :
    ∃ s', as.foldlM step s = .ok s' ∧ s'.out.length = s.out.length + n := by
  -- Along the unfolding: the children of an item are expanded before the items after it,
  -- and the depth left is more than the tasks there is still room for.
  induction h generalizing α depth s with
  | nil =>
    rcases List.map_eq_nil_iff.mp has with rfl
    exact ⟨s, rfl, rfl⟩
  | @cons c headerAddr children rest n m legible header _ _ ihInner ihOthers =>
    rcases List.map_eq_cons_iff.mp has with ⟨a, as, rfl, ha, has⟩
    rcases hstep s a with ⟨id, parent, nextId, hfirst⟩
    cases depth with
    | zero => omega
    | succ depth =>
      rcases decodeNode_ok_iff.mpr ⟨legible, header⟩ with ⟨node, hnode⟩
      have hinner := @ihInner (UInt64 × String) childItem
        (fun acc child => decoder.expand view depth child.1 child.2 none ⟨acc.nextId⟩ (some id)
          { acc with nextId := acc.nextId + 1 }) depth
        (fun acc child => ⟨_, _, _, rfl⟩) children rfl ⟨nextId, s.out ++ [node]⟩
        (by rw [List.length_append, List.length_singleton]; omega)
        (by rw [List.length_append, List.length_singleton]; omega)
      rcases hinner with ⟨s₁, hs₁, hlength₁⟩
      rw [List.length_append, List.length_singleton] at hlength₁
      have hone : step s a = .ok s₁ := by
        have hfull : ¬ s.out.length ≥ maxTasks := by omega
        rw [hfirst, ha, TokioDecoder.expand, if_neg hfull, hnode, Effect.except_ok_bind]
        exact hs₁
      rcases @ihOthers α item step (depth + 1) hstep as has s₁ (by omega) (by omega) with
        ⟨s₂, hs₂, hlength₂⟩
      refine ⟨s₂, ?_, by omega⟩
      rw [List.foldlM_cons, hone]
      exact hs₂

/-- The walk over the roots succeeds exactly if all can be read, and there are not too many. -/
theorem enumerate_ok_iff {roots : List TaskRoot}
    (hroots : decoder.effectiveRoots view = .ok roots) {n : Nat} :
    (∃ nodes, decoder.enumerate view = .ok nodes ∧ nodes.length = n) ↔
      Unfolds view decoder.layouts (roots.map TaskRoot.item) n ∧ n ≤ maxTasks := by
  constructor
  · rintro ⟨nodes, hnodes, rfl⟩
    rcases enumerate_walked hroots hnodes with ⟨-, hbounded⟩
    rw [TokioDecoder.enumerate, hroots, Effect.except_ok_bind] at hnodes
    rcases Effect.except_bind_ok hnodes with ⟨acc, hfold, hnodes⟩
    rcases Except.ok.inj hnodes with rfl
    have hunfolds := @foldlM_unfolds view decoder.layouts TaskRoot TaskRoot.item _
      (fun s root s' hroot => expand_unfolds hroot) _ _ _ hfold
    rcases hunfolds with ⟨n, hn, hlength⟩
    have hn' : acc.out.length = n := by
      rw [hlength]
      exact Nat.zero_add n
    rw [hn'] at hbounded ⊢
    exact ⟨hn, hbounded⟩
  · rintro ⟨hn, hbounded⟩
    -- A walk of so many nodes is never deeper than the bound on tasks.
    have hfold := @foldlM_of_unfolds view decoder _ n hn TaskRoot TaskRoot.item
      (fun acc root => decoder.expand view (maxTasks + 1) root.base root.typeName
        root.headerAddr ⟨root.id⟩ none acc) (maxTasks + 1)
      (fun acc root => ⟨_, _, acc.nextId, rfl⟩) roots rfl
      ⟨TokioDecoder.firstFreeId roots, []⟩ (by rw [List.length_nil]; omega)
      (by rw [List.length_nil]; omega)
    rcases hfold with ⟨acc, hacc, hlength⟩
    refine ⟨acc.out, ?_, by rw [hlength]; exact Nat.zero_add n⟩
    rw [TokioDecoder.enumerate, hroots, Effect.except_ok_bind, hacc]
    rfl

/-! ## The numbers of the tasks -/

/-- The numbers of `n` tasks: those of the roots, and as many as are left from the first free
number on. -/
def taskNumbers (roots : List TaskRoot) (n : Nat) : List UInt64 :=
  roots.map TaskRoot.id ++
    (List.range (n - roots.length)).map fun i => TokioDecoder.firstFreeId roots + UInt64.ofNat i

theorem Numbered.map_eq {start : UInt64} {nodes : List DecodedNode} (h : Numbered start nodes) :
    nodes.map (fun n => n.id.raw) =
      (List.range nodes.length).map fun i => start + UInt64.ofNat i := by
  induction nodes generalizing start with
  | nil => rfl
  | cons n nodes ih =>
    rcases h with ⟨hfirst, hrest⟩
    rw [List.map_cons, List.length_cons, List.range_succ_eq_map, List.map_cons, List.map_map,
      ih hrest, hfirst]
    refine congrArg₂ List.cons (UInt64.add_zero start).symm ?_
    refine List.map_congr_left ?_
    intro i _
    exact succ_add_ofNat start i

theorem Walked.numbers {nodes : List DecodedNode} {roots : List TaskRoot}
    (h : Walked roots (TokioDecoder.firstFreeId roots) nodes) :
    (nodes.map fun n => n.id.raw).Perm (taskNumbers roots nodes.length) := by
  have hperm : (topTasks nodes ++ branchTasks nodes).Perm nodes :=
    List.filter_append_perm (fun n : DecodedNode => n.parent.isNone) nodes
  have htops : (topTasks nodes).length = roots.length := by
    have hlength := congrArg List.length h.topIds
    rw [List.length_map, List.length_map] at hlength
    exact hlength
  have hcount : (branchTasks nodes).length = nodes.length - roots.length := by
    have hlength := hperm.length_eq
    rw [List.length_append] at hlength
    omega
  have hids := hperm.map fun n => n.id.raw
  rw [List.map_append, h.topIds, h.branches.map_eq, hcount] at hids
  exact hids.symm

/-- The tasks can be decoded exactly if all coroutines can be read, there are not too many, and
their numbers are different. -/
theorem decodeTasks_ok_iff {roots : List TaskRoot}
    (hroots : decoder.effectiveRoots view = .ok roots) :
    (∃ tree, decoder.decodeTasks view = .ok tree) ↔
      ∃ n, Unfolds view decoder.layouts (roots.map TaskRoot.item) n ∧ n ≤ maxTasks ∧
        (taskNumbers roots n).Nodup := by
  have hdistinct : ∀ nodes : List DecodedNode, decoder.enumerate view = .ok nodes →
      ((∃ tree, TaskTree.tryFromNodes (nodes.map TokioDecoder.taskNode) = .ok tree) ↔
        (taskNumbers roots nodes.length).Nodup) := by
    intro nodes hnodes
    have hwalked := (enumerate_walked hroots hnodes).1
    rw [hwalked.tree_iff, ← hwalked.numbers.nodup_iff, List.Nodup, List.pairwise_map]
    simp only [ne_eq, TaskId.raw_inj]
  constructor
  · rintro ⟨tree, htree⟩
    rcases Effect.except_bind_ok htree with ⟨nodes, hnodes, htree⟩
    rcases (enumerate_ok_iff hroots).mp ⟨nodes, hnodes, rfl⟩ with ⟨hunfolds, hbounded⟩
    exact ⟨nodes.length, hunfolds, hbounded, (hdistinct nodes hnodes).mp ⟨tree, htree⟩⟩
  · rintro ⟨n, hunfolds, hbounded, hnodup⟩
    rcases (enumerate_ok_iff hroots).mpr ⟨hunfolds, hbounded⟩ with ⟨nodes, hnodes, rfl⟩
    rw [TokioDecoder.decodeTasks, hnodes, Effect.except_ok_bind]
    exact (hdistinct nodes hnodes).mpr hnodup

/-! ## The node of a root -/

theorem expand_root {depth : Nat} {base : UInt64} {typeName : String}
    {headerAddr : Option UInt64} {id : TaskId} {parent : Option TaskId} {acc acc' : Expansion}
    (h : decoder.expand view depth base typeName headerAddr id parent acc = .ok acc') :
    acc.out ⊆ acc'.out ∧ ∃ n ∈ acc'.out, n.id = id ∧
      ∃ layout, decoder.layouts.get typeName = some layout ∧
        taskState view decoder.layouts base layout headerAddr = .ok n.state := by
  cases depth with
  | zero => cases h
  | succ depth =>
    rw [TokioDecoder.expand] at h
    split at h
    · cases h
    · rcases Effect.except_bind_ok h with ⟨⟨node, children⟩, hdecode, h⟩
      -- The children only add to the output.
      have hgrown : (acc.out ++ [node]) ⊆ acc'.out := by
        refine Effect.foldlM_ok (I := fun s => (acc.out ++ [node]) ⊆ s.out) ?_ ?_ h
        · intro s child s' hs hchild
          rcases expand_branch hchild with ⟨n, below, hbranch⟩
          rw [hbranch.out]
          exact List.subset_append_of_subset_left _ hs
        · exact List.Subset.refl _
      refine ⟨List.Subset.trans (List.subset_append_left _ _) hgrown, node, ?_,
        (decodeNode_self hdecode).1, ?_⟩
      · exact hgrown (List.mem_append_right _ List.mem_cons_self)
      · unfold TokioDecoder.decodeNode at hdecode
        cases hlayout : decoder.layouts.get typeName with
        | none =>
          rw [hlayout] at hdecode
          cases hdecode
        | some layout =>
          rw [hlayout] at hdecode
          rcases Effect.except_bind_ok hdecode with ⟨state, hstate, hdecode⟩
          rcases Effect.except_bind_ok hdecode with ⟨wake, -, hdecode⟩
          rcases Effect.except_bind_ok hdecode with ⟨found, -, hdecode⟩
          rcases Prod.mk.inj (Except.ok.inj hdecode) with ⟨rfl, -⟩
          exact ⟨layout, rfl, hstate⟩

/-- Every root has a node with its number and its state. -/
theorem foldlM_root {depth : Nat} {roots : List TaskRoot} {acc acc' : Expansion}
    (h : roots.foldlM (fun acc root => decoder.expand view depth root.base root.typeName
      root.headerAddr ⟨root.id⟩ none acc) acc = .ok acc') :
    acc.out ⊆ acc'.out ∧ ∀ root ∈ roots, ∃ n ∈ acc'.out, n.id = ⟨root.id⟩ ∧
      ∃ layout, decoder.layouts.get root.typeName = some layout ∧
        taskState view decoder.layouts root.base layout root.headerAddr = .ok n.state := by
  induction roots generalizing acc with
  | nil =>
    rcases Except.ok.inj h with rfl
    exact ⟨List.Subset.refl _, fun root hroot => absurd hroot List.not_mem_nil⟩
  | cons first roots ih =>
    rw [List.foldlM_cons] at h
    rcases Effect.except_bind_ok h with ⟨s, hfirst, hrest⟩
    rcases expand_root hfirst with ⟨hgrown, n, hn, hnode⟩
    rcases ih hrest with ⟨hgrown', hothers⟩
    refine ⟨List.Subset.trans hgrown hgrown', ?_⟩
    intro root hroot
    rcases List.mem_cons.mp hroot with rfl | hroot
    · exact ⟨n, hgrown' hn, hnode⟩
    · exact hothers root hroot

/-- A finished task that is decoded is shown as completed. -/
theorem node_of_finished {roots : List TaskRoot} {tree : TaskTree}
    (hroots : decoder.effectiveRoots view = .ok roots)
    (htree : decoder.decodeTasks view = .ok tree) {root : TaskRoot} (hroot : root ∈ roots)
    (hfinished : finished view root = true) :
    ∃ node, tree.node ⟨root.id⟩ = some node ∧ node.state = .completed := by
  rcases Effect.except_bind_ok htree with ⟨nodes, hnodes, htree⟩
  rw [TokioDecoder.enumerate, hroots, Effect.except_ok_bind] at hnodes
  rcases Effect.except_bind_ok hnodes with ⟨acc, hfold, hnodes⟩
  rcases Except.ok.inj hnodes with rfl
  rcases (foldlM_root hfold).2 root hroot with ⟨n, hn, hid, layout, -, hstate⟩
  rcases Effect.except_bind_ok hstate with ⟨active, hactive, -⟩
  have hcompleted : Except.ok n.state = Except.ok .completed :=
    hstate.symm.trans (taskState_finished hfinished hactive)
  refine ⟨TokioDecoder.taskNode n, ?_, Except.ok.inj hcompleted⟩
  rw [TaskTree.node_tryFromNodes htree]
  exact (TaskTree.find_eq_some_iff (TaskTree.pairwise_tryFromNodes htree)).mpr
    ⟨List.mem_map_of_mem hn, hid⟩

/-! ## Finished tasks and the others -/

/-- The tasks that are not done. -/
def liveRoots (view : ProcessView) (roots : List TaskRoot) : List TaskRoot :=
  roots.filter (!finished view ·)

/-- The tasks that are done. -/
def finishedRoots (view : ProcessView) (roots : List TaskRoot) : List TaskRoot :=
  roots.filter (finished view)

/-- The decoder for the tasks that are not done. -/
def TokioDecoder.withoutFinished (decoder : TokioDecoder) (view : ProcessView)
    (roots : List TaskRoot) : TokioDecoder :=
  { decoder with roots := liveRoots view roots, plan := none }

theorem decodeTasks_withoutFinished {roots : List TaskRoot} :
    (∃ tree, (decoder.withoutFinished view roots).decodeTasks view = .ok tree) ↔
      liveRoots view roots ≠ [] ∧ ∃ n,
        Unfolds view decoder.layouts ((liveRoots view roots).map TaskRoot.item) n ∧
        n ≤ maxTasks ∧ (taskNumbers (liveRoots view roots) n).Nodup := by
  by_cases hlive : liveRoots view roots = []
  · constructor
    · rintro ⟨tree, htree⟩
      rcases Effect.except_bind_ok htree with ⟨nodes, hnodes, -⟩
      rcases Effect.except_bind_ok hnodes with ⟨found, hfound, -⟩
      have hnone : (decoder.withoutFinished view roots).roots = [] := hlive
      rw [TokioDecoder.effectiveRoots, if_neg (not_not.mpr hnone)] at hfound
      cases hfound
    · rintro ⟨hne, -⟩
      exact absurd hlive hne
  · have hroots : (decoder.withoutFinished view roots).effectiveRoots view =
        .ok (liveRoots view roots) := by
      rw [TokioDecoder.effectiveRoots]
      exact if_pos hlive
    rw [decodeTasks_ok_iff hroots]
    exact (and_iff_right hlive).symm

/-- **Finished tasks.** The state of a finished task is known, and the tasks that are not done are
still decoded with it, exactly if what is left in its storage reads as a coroutine: the
discriminant names a variant, so along the futures that variant awaits and the coroutines it
holds, and all tasks together are not too many and have different numbers. -/
theorem finished_decoded_iff {roots : List TaskRoot}
    (hroots : decoder.effectiveRoots view = .ok roots) :
    ((∀ root ∈ roots, finished view root = true → ∀ layout,
        decoder.layouts.get root.typeName = some layout →
          taskState view decoder.layouts root.base layout root.headerAddr = .ok .completed) ∧
      ((∃ tree, (decoder.withoutFinished view roots).decodeTasks view = .ok tree) →
        ∃ tree, decoder.decodeTasks view = .ok tree ∧
          ∀ root ∈ roots, finished view root = true →
            ∃ node, tree.node ⟨root.id⟩ = some node ∧ node.state = .completed)) ↔
    ((∀ root ∈ roots, finished view root = true → ∀ layout,
        decoder.layouts.get root.typeName = some layout →
          ∃ active, activeVariant view root.base layout = .ok active) ∧
      (liveRoots view roots ≠ [] → ∀ n,
        Unfolds view decoder.layouts ((liveRoots view roots).map TaskRoot.item) n →
        n ≤ maxTasks → (taskNumbers (liveRoots view roots) n).Nodup →
        ∃ m, Unfolds view decoder.layouts ((finishedRoots view roots).map TaskRoot.item) m ∧
          n + m ≤ maxTasks ∧ (taskNumbers roots (n + m)).Nodup)) := by
  -- A finished root has its state as soon as its active variant reads.
  have hstates : ∀ root ∈ roots, finished view root = true → ∀ layout,
      (taskState view decoder.layouts root.base layout root.headerAddr = .ok .completed ↔
        ∃ active, activeVariant view root.base layout = .ok active) := by
    intro root _ hfinished layout
    constructor
    · intro hstate
      rcases Effect.except_bind_ok hstate with ⟨active, hactive, -⟩
      exact ⟨active, hactive⟩
    · rintro ⟨active, hactive⟩
      exact taskState_finished hfinished hactive
  constructor
  · rintro ⟨hstate, hdecode⟩
    constructor
    · intro root hroot hfinished layout hlayout
      exact (hstates root hroot hfinished layout).mp (hstate root hroot hfinished layout hlayout)
    · intro hlive n hn hbounded hnodup
      rcases hdecode (decodeTasks_withoutFinished.mpr ⟨hlive, n, hn, hbounded, hnodup⟩) with
        ⟨tree, htree, -⟩
      rcases (decodeTasks_ok_iff hroots).mp ⟨tree, htree⟩ with ⟨total, htotal, hle, hall⟩
      rcases (@unfolds_filter_iff _ _ _ TaskRoot.item (finished view) _ _).mp htotal with
        ⟨n', m, hn', hm, rfl⟩
      rcases hn.unique hn' with rfl
      exact ⟨m, hm, hle, hall⟩
  · rintro ⟨hactive, hrest⟩
    constructor
    · intro root hroot hfinished layout hlayout
      exact (hstates root hroot hfinished layout).mpr (hactive root hroot hfinished layout hlayout)
    · intro hdecode
      rcases decodeTasks_withoutFinished.mp hdecode with ⟨hlive, n, hn, hbounded, hnodup⟩
      rcases hrest hlive n hn hbounded hnodup with ⟨m, hm, hle, hall⟩
      have htotal : Unfolds view decoder.layouts (roots.map TaskRoot.item) (n + m) :=
        (@unfolds_filter_iff _ _ _ TaskRoot.item (finished view) _ _).mpr ⟨n, m, hn, hm, rfl⟩
      rcases (decodeTasks_ok_iff hroots).mpr ⟨n + m, htotal, hle, hall⟩ with ⟨tree, htree⟩
      exact ⟨tree, htree, fun root hroot => node_of_finished hroots htree hroot⟩

/-- Two tasks, the second with its header at `0x9000`. -/
def oneDone : TokioDecoder :=
  { napper with roots := [⟨1, 0x1000, sleeper, none⟩, ⟨2, 0x2000, sleeper, some 0x9000⟩] }

/-- The first task has not started; the second is done, and its storage is full of `b`. -/
def leftover (b : UInt8) : ProcessView := { allSuspended with
  readMemory := fun addr len => .ok (
    if addr = 0x9000 then [2, 0, 0, 0, 0, 0, 0, 0]
    else if addr < 0x2000 then List.replicate len 0
    else List.replicate len b) }

theorem unfolds_unstarted {base : UInt64} {headerAddr : Option UInt64}
    (hbase : (leftover 0).readMemory (base + 120) 1 = .ok [0])
    (hheader : HeaderReads (leftover 0) headerAddr) :
    Unfolds (leftover 0) oneDone.layouts [(⟨base, sleeper⟩, headerAddr)] 1 := by
  have hdiscr : ∀ layout, oneDone.layouts.get sleeper = some layout →
      activeVariant (leftover 0) base layout =
        .ok (0, { kind := .unresumed, awaitLocation := none, awaitee := none, children := [] }) := by
    intro layout hlayout
    rcases Option.some.inj hlayout with rfl
    rw [activeVariant, readDiscriminant]
    show ((leftover 0).readMemory (base + 120) 1 >>= _) >>= _ = _
    rw [hbase]
    rfl
  have hlayout : ∃ layout, oneDone.layouts.get sleeper = some layout := ⟨_, rfl⟩
  rcases hlayout with ⟨layout, hlayout⟩
  have hlegible : Legible (leftover 0) oneDone.layouts ⟨base, sleeper⟩ [] := by
    refine ⟨layout, _, _, none, hlayout, hdiscr layout hlayout, ?_, rfl⟩
    rw [leafType, maxAwaitDepth, leafTypeFrom, hdiscr layout hlayout]
    rfl
  exact .cons hlegible hheader .nil .nil

theorem finished_decoded_unstarted :
    ∃ tree, oneDone.decodeTasks (leftover 0) = .ok tree ∧
      ∃ node, tree.node ⟨2⟩ = some node ∧ node.state = .completed := by
  have hroots : oneDone.effectiveRoots (leftover 0) = .ok oneDone.roots := rfl
  have hlive : liveRoots (leftover 0) oneDone.roots = [⟨1, 0x1000, sleeper, none⟩] := rfl
  have hdone : finishedRoots (leftover 0) oneDone.roots = [⟨2, 0x2000, sleeper, some 0x9000⟩] := rfl
  have hproperty := (finished_decoded_iff hroots).mpr (by
    constructor
    · intro root hroot hfinished layout hlayout
      rcases List.mem_pair.mp hroot with rfl | rfl
      · cases hfinished
      · rcases Option.some.inj hlayout with rfl
        exact ⟨_, rfl⟩
    · intro _ n hn _ _
      have hone : Unfolds (leftover 0) oneDone.layouts
          ((liveRoots (leftover 0) oneDone.roots).map TaskRoot.item) 1 :=
        unfolds_unstarted rfl fun addr haddr => by cases haddr
      rcases hone.unique hn with rfl
      refine ⟨1, unfolds_unstarted rfl fun addr haddr => ?_, by decide, by decide⟩
      rcases Option.mem_some_iff.mp haddr with rfl
      exact ⟨_, rfl⟩)
  rcases hproperty.2 ⟨_, rfl⟩ with ⟨tree, htree, hnodes⟩
  exact ⟨tree, htree, hnodes ⟨2, 0x2000, sleeper, some 0x9000⟩ (by decide) rfl⟩

/-- The output of a finished task stands where its discriminant was: the task has no state, and
the other task is not decoded either. -/
theorem output_breaks_decoding :
    finished (leftover 7) ⟨2, 0x2000, sleeper, some 0x9000⟩ = true ∧
    (∃ layout e, oneDone.layouts.get sleeper = some layout ∧
      taskState (leftover 7) oneDone.layouts 0x2000 layout (some 0x9000) = .error e) ∧
    (∃ tree, (oneDone.withoutFinished (leftover 7) oneDone.roots).decodeTasks (leftover 7) =
      .ok tree) ∧
    ∃ e, oneDone.decodeTasks (leftover 7) = .error e :=
  ⟨rfl, ⟨_, _, rfl, rfl⟩, ⟨_, rfl⟩, _, rfl⟩

end Mirrorscope.Decoder.AsyncRust
