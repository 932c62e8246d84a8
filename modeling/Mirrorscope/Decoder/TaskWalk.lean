import Mirrorscope.Decoder.AsyncView
import Mirrorscope.Decoder.Flatten

/-! # The numbers of the task walk

The walk over the tasks recurses over the target's memory, bounded only by the number of tasks
it has listed. It numbers a branch before it goes into it, so the branches are numbered in the
order in which they are listed: the list is the preorder of the tree that is made of it.
-/

namespace Mirrorscope.Decoder.AsyncRust

variable {view : ProcessView} {decoder : TokioDecoder}

/-! ## Depth -/

namespace TokioDecoder

variable (decoder : TokioDecoder) (view : ProcessView)

/-- `expand` as it is, but for what it answers when it would recurse deeper than `depth`. -/
def expandOr (cut : DecoderError) : Nat → UInt64 → String → Option UInt64 → TaskId →
    Option TaskId → Expansion → Except DecoderError Expansion
  | 0, _, _, _, _, _, _ => throw cut
  | depth + 1, base, typeName, headerAddr, id, parent, acc => do
    if acc.out.length ≥ maxTasks then throw fanOutExceeded
    else do
      let (node, children) ← decoder.decodeNode view base typeName headerAddr id parent
      children.foldlM
        (fun acc (childBase, childType) =>
          expandOr cut depth childBase childType none ⟨acc.nextId⟩ (some id)
            { acc with nextId := acc.nextId + 1 })
        { acc with out := acc.out ++ [node] }

/-- Expand the roots one after the other. -/
def walkOr (cut : DecoderError) (depth : Nat) (roots : List TaskRoot) :
    Except DecoderError (List DecodedNode) := do
  let acc ← roots.foldlM
    (fun acc root =>
      decoder.expandOr view cut depth root.base root.typeName root.headerAddr ⟨root.id⟩ none acc)
    { nextId := firstFreeId roots, out := [] }
  pure acc.out

end TokioDecoder

theorem expandOr_length {cut : DecoderError} {depth : Nat} {base : UInt64} {typeName : String}
    {headerAddr : Option UInt64} {id : TaskId} {parent : Option TaskId} {acc acc' : Expansion}
    (h : decoder.expandOr view cut depth base typeName headerAddr id parent acc = .ok acc') :
    acc.out.length < acc'.out.length := by
  induction depth generalizing base typeName headerAddr id parent acc acc' with
  | zero => cases h
  | succ depth ih =>
    rw [TokioDecoder.expandOr] at h
    split at h
    · cases h
    · rcases Effect.except_bind_ok h with ⟨⟨node, children⟩, -, h⟩
      refine Effect.foldlM_ok (I := fun s => acc.out.length < s.out.length) ?_ ?_ h
      · intro s child s' hs hstep
        have hgrown := ih hstep
        exact Nat.lt_trans hs hgrown
      · simp

/-- A recursion that may go deeper than the bound on tasks is never cut off. -/
theorem expandOr_eq {cut cut' : DecoderError} {depth depth' : Nat} {base : UInt64}
    {typeName : String} {headerAddr : Option UInt64} {id : TaskId} {parent : Option TaskId}
    {acc : Expansion} (hpos : 0 < depth) (hpos' : 0 < depth')
    (hdepth : maxTasks < depth + acc.out.length) (hdepth' : maxTasks < depth' + acc.out.length) :
    decoder.expandOr view cut depth base typeName headerAddr id parent acc =
      decoder.expandOr view cut' depth' base typeName headerAddr id parent acc := by
  induction depth generalizing depth' base typeName headerAddr id parent acc with
  | zero => omega
  | succ depth ih =>
    cases depth' with
    | zero => omega
    | succ depth' =>
      rw [TokioDecoder.expandOr, TokioDecoder.expandOr]
      by_cases hfull : acc.out.length ≥ maxTasks
      · rw [if_pos hfull, if_pos hfull]
      · rw [if_neg hfull, if_neg hfull]
        cases decoder.decodeNode view base typeName headerAddr id parent with
        | error e => rfl
        | ok decoded =>
          -- one more task is listed now, and the list only grows
          refine Effect.foldlM_congr (I := fun s => acc.out.length < s.out.length) ?_ ?_ ?_
          · intro s child hs
            refine ih ?_ ?_ ?_ ?_
            · omega
            · omega
            · show maxTasks < depth + s.out.length
              omega
            · show maxTasks < depth' + s.out.length
              omega
          · intro s child s' hs hstep
            have hgrown := expandOr_length hstep
            exact Nat.lt_trans hs hgrown
          · simp

theorem expand_eq_expandOr {depth : Nat} {base : UInt64} {typeName : String}
    {headerAddr : Option UInt64} {id : TaskId} {parent : Option TaskId} {acc : Expansion} :
    decoder.expand view depth base typeName headerAddr id parent acc =
      decoder.expandOr view TokioDecoder.fanOutExceeded depth base typeName headerAddr id parent
        acc := by
  induction depth generalizing base typeName headerAddr id parent acc with
  | zero => rfl
  | succ depth ih =>
    rw [TokioDecoder.expand, TokioDecoder.expandOr]
    simp only [ih]

/-- The walk ends within as many levels as there may be tasks, whatever a deeper recursion
would answer. -/
theorem walkOr_eq_enumerate {roots : List TaskRoot}
    (hroots : decoder.effectiveRoots view = .ok roots) (cut : DecoderError) {depth : Nat}
    (hdepth : maxTasks < depth) :
    decoder.walkOr view cut depth roots = decoder.enumerate view := by
  have hfold : ∀ acc : Expansion, roots.foldlM
      (fun acc root => decoder.expandOr view cut depth root.base root.typeName root.headerAddr
        ⟨root.id⟩ none acc) acc =
      roots.foldlM (fun acc root => decoder.expand view (maxTasks + 1) root.base root.typeName
        root.headerAddr ⟨root.id⟩ none acc) acc := by
    intro acc
    refine Effect.foldlM_congr (I := fun _ => True) ?_ (fun _ _ _ _ _ => trivial) trivial
    intro s root _
    rw [expand_eq_expandOr]
    exact expandOr_eq (by omega) (by omega) (by omega) (by omega)
  rw [TokioDecoder.walkOr, TokioDecoder.enumerate, hroots, Effect.except_ok_bind, hfold]

/-! ## Numbers -/

/-- The tasks are numbered one after the other, from `start` on. -/
def Numbered : UInt64 → List DecodedNode → Prop
  | _, [] => True
  | start, n :: nodes => n.id.raw = start ∧ Numbered (start + 1) nodes

theorem succ_add_ofNat (start : UInt64) (count : Nat) :
    start + 1 + UInt64.ofNat count = start + UInt64.ofNat (count + 1) := by
  rw [UInt64.ofNat_add, UInt64.add_assoc, UInt64.add_comm 1]
  rfl

theorem Numbered.append {start : UInt64} {nodes nodes' : List DecodedNode}
    (h : Numbered start nodes) (h' : Numbered (start + UInt64.ofNat nodes.length) nodes') :
    Numbered start (nodes ++ nodes') := by
  induction nodes generalizing start with
  | nil => simpa using h'
  | cons n nodes ih =>
    refine ⟨h.1, ih h.2 ?_⟩
    rw [succ_add_ofNat]
    exact h'

/-- Numbers that do not wrap around ascend. -/
theorem Numbered.ascending {start : UInt64} {nodes : List DecodedNode}
    (h : Numbered start nodes) (hwrap : start.toNat + nodes.length < 2 ^ 64) :
    (nodes.Pairwise fun a b => a.id.raw < b.id.raw) ∧ ∀ n ∈ nodes, start ≤ n.id.raw := by
  induction nodes generalizing start with
  | nil => exact ⟨.nil, fun n hn => absurd hn List.not_mem_nil⟩
  | cons first nodes ih =>
    rcases h with ⟨hfirst, hrest⟩
    rw [List.length_cons] at hwrap
    have hnext : (start + 1).toNat = start.toNat + 1 := by
      rw [UInt64.toNat_add]
      exact Nat.mod_eq_of_lt (by
        show start.toNat + 1 < 2 ^ 64
        omega)
    rcases ih hrest (by omega) with ⟨hpairwise, hge⟩
    constructor
    · refine List.pairwise_cons.mpr ⟨?_, hpairwise⟩
      intro n hn
      have hle := UInt64.le_iff_toNat_le.mp (hge n hn)
      rw [hfirst, UInt64.lt_iff_toNat_lt]
      omega
    · intro n hn
      rcases List.mem_cons.mp hn with rfl | hn
      · rw [hfirst]
        exact UInt64.le_refl start
      · have hle := UInt64.le_iff_toNat_le.mp (hge n hn)
        rw [UInt64.le_iff_toNat_le]
        omega

/-- The tasks in preorder, by their own numbers and parents. -/
abbrev InPreorder : Option TaskId → List DecodedNode → Prop :=
  Forest.Preorder DecodedNode.id DecodedNode.parent

/-- What expanding one coroutine adds: its node, and the nodes below it. -/
structure Branch (id : TaskId) (parent : Option TaskId) (coroutine : Coroutine)
    (acc acc' : Expansion) (n : DecodedNode) (below : List DecodedNode) : Prop where
  out : acc'.out = acc.out ++ n :: below
  self : n.id = id ∧ n.parent = parent ∧ n.coroutine = coroutine
  preorder : InPreorder (some id) below
  numbered : Numbered acc.nextId below
  nextId : acc'.nextId = acc.nextId + UInt64.ofNat below.length
  bounded : acc'.out.length ≤ maxTasks

theorem decodeNode_self {base : UInt64} {typeName : String} {headerAddr : Option UInt64}
    {id : TaskId} {parent : Option TaskId} {n : DecodedNode} {children : List (UInt64 × String)}
    (h : decoder.decodeNode view base typeName headerAddr id parent = .ok (n, children)) :
    n.id = id ∧ n.parent = parent := by
  unfold TokioDecoder.decodeNode at h
  split at h
  · cases h
  · rcases Effect.except_bind_ok h with ⟨state, -, h⟩
    rcases Effect.except_bind_ok h with ⟨wake, -, h⟩
    rcases Effect.except_bind_ok h with ⟨found, -, h⟩
    rcases Prod.mk.inj (Except.ok.inj h) with ⟨rfl, -⟩
    exact ⟨rfl, rfl⟩

/-- Branches that are expanded one after the other stand beside each other. -/
theorem foldlM_branches {id : TaskId}
    {step : Expansion → UInt64 × String → Except DecoderError Expansion}
    (hstep : ∀ s child s', step s child = .ok s' → ∃ n below,
      Branch ⟨s.nextId⟩ (some id) ⟨child.1, child.2⟩ { s with nextId := s.nextId + 1 } s' n below)
    {children : List (UInt64 × String)} {acc acc' : Expansion}
    (hacc : acc.out.length ≤ maxTasks) (h : children.foldlM step acc = .ok acc') :
    ∃ below, acc'.out = acc.out ++ below ∧ InPreorder (some id) below ∧
      Numbered acc.nextId below ∧ acc'.nextId = acc.nextId + UInt64.ofNat below.length ∧
      acc'.out.length ≤ maxTasks := by
  induction children generalizing acc with
  | nil =>
    rcases Except.ok.inj h with rfl
    exact ⟨[], (List.append_nil _).symm, .nil, trivial, (UInt64.add_zero _).symm, hacc⟩
  | cons child children ih =>
    rw [List.foldlM_cons] at h
    rcases Effect.except_bind_ok h with ⟨s, hfirst, hrest⟩
    rcases hstep acc child s hfirst with ⟨n, below, hbranch⟩
    rcases ih hbranch.bounded hrest with ⟨rest, hout, hpreorder, hnumbered, hnext, hbounded⟩
    rcases hbranch.self with ⟨hid, hparent, -⟩
    have hcount : s.nextId = acc.nextId + UInt64.ofNat (n :: below).length := by
      rw [hbranch.nextId, List.length_cons, ← succ_add_ofNat]
    refine ⟨n :: (below ++ rest), ?_, ?_, ?_, ?_, hbounded⟩
    · rw [hout, hbranch.out]
      simp
    · refine .cons hparent ?_ hpreorder
      rw [hid]
      exact hbranch.preorder
    · have hself : Numbered acc.nextId (n :: below) :=
        ⟨congrArg TaskId.raw hid, hbranch.numbered⟩
      rw [hcount] at hnumbered
      exact hself.append hnumbered
    · rw [hnext, hcount, UInt64.add_assoc, ← UInt64.ofNat_add, ← List.length_append]
      rfl

/-- Expanding a coroutine adds a branch. -/
theorem expand_branch {depth : Nat} {base : UInt64} {typeName : String}
    {headerAddr : Option UInt64} {id : TaskId} {parent : Option TaskId} {acc acc' : Expansion}
    (h : decoder.expand view depth base typeName headerAddr id parent acc = .ok acc') :
    ∃ n below, Branch id parent ⟨base, typeName⟩ acc acc' n below := by
  induction depth generalizing base typeName headerAddr id parent acc acc' with
  | zero => cases h
  | succ depth ih =>
    rw [TokioDecoder.expand] at h
    split at h
    · cases h
    · rename_i hfull
      rcases Effect.except_bind_ok h with ⟨⟨n, children⟩, hdecode, h⟩
      have hroom : (acc.out ++ [n]).length ≤ maxTasks := by
        rw [List.length_append, List.length_singleton]
        omega
      rcases foldlM_branches (fun s child s' hstep => ih hstep) hroom h with
        ⟨below, hout, hpreorder, hnumbered, hnext, hbounded⟩
      rcases decodeNode_self hdecode with ⟨hid, hparent⟩
      refine ⟨n, below, ?_, ⟨hid, hparent, (decodeNode_ok hdecode).1⟩, hpreorder, hnumbered,
        hnext, hbounded⟩
      rw [hout]
      simp

/-- The tasks that are no one's branch. -/
def topTasks (nodes : List DecodedNode) : List DecodedNode := nodes.filter (·.parent.isNone)

/-- The tasks that are branches of others. -/
def branchTasks (nodes : List DecodedNode) : List DecodedNode := nodes.filter (!·.parent.isNone)

theorem topTasks_append (nodes nodes' : List DecodedNode) :
    topTasks (nodes ++ nodes') = topTasks nodes ++ topTasks nodes' := List.filter_append ..

theorem branchTasks_append (nodes nodes' : List DecodedNode) :
    branchTasks (nodes ++ nodes') = branchTasks nodes ++ branchTasks nodes' :=
  List.filter_append ..

/-- Below a task all are branches. -/
theorem parent_isSome_of_preorder {id : TaskId} {below : List DecodedNode}
    (h : InPreorder (some id) below) {n : DecodedNode} (hn : n ∈ below) :
    n.parent.isNone = false := by
  rcases h.parent_mem hn with hup | ⟨m, -, hup⟩
  · rw [hup]
    rfl
  · rw [hup]
    rfl

theorem topTasks_branch {n : DecodedNode} {below : List DecodedNode} (hn : n.parent = none)
    (h : InPreorder (some n.id) below) : topTasks (n :: below) = [n] := by
  rw [topTasks, List.filter_cons_of_pos (by rw [hn]; rfl)]
  have hnone : below.filter (·.parent.isNone) = [] := by
    rw [List.filter_eq_nil_iff]
    intro m hm
    rw [parent_isSome_of_preorder h hm]
    exact Bool.false_ne_true
  rw [hnone]

theorem branchTasks_branch {n : DecodedNode} {below : List DecodedNode} (hn : n.parent = none)
    (h : InPreorder (some n.id) below) : branchTasks (n :: below) = below := by
  rw [branchTasks, List.filter_cons_of_neg (by rw [hn]; exact Bool.false_ne_true)]
  rw [List.filter_eq_self]
  intro m hm
  rw [parent_isSome_of_preorder h hm]
  rfl

/-- What the walk over the roots adds. -/
structure Walked (roots : List TaskRoot) (start : UInt64) (new : List DecodedNode) : Prop where
  preorder : InPreorder none new
  tops : (topTasks new).map (fun n => (n.id.raw, n.coroutine)) =
    roots.map fun root => (root.id, root.coroutine)
  branches : Numbered start (branchTasks new)

/-- The walk lists each root with the branches below it. -/
theorem foldlM_walked {depth : Nat} {roots : List TaskRoot} {acc acc' : Expansion}
    (hacc : acc.out.length ≤ maxTasks)
    (h : roots.foldlM (fun acc root => decoder.expand view depth root.base root.typeName
      root.headerAddr ⟨root.id⟩ none acc) acc = .ok acc') :
    ∃ new, acc'.out = acc.out ++ new ∧ Walked roots acc.nextId new ∧
      acc'.out.length ≤ maxTasks := by
  induction roots generalizing acc with
  | nil =>
    rcases Except.ok.inj h with rfl
    exact ⟨[], (List.append_nil _).symm, ⟨.nil, rfl, trivial⟩, hacc⟩
  | cons root roots ih =>
    rw [List.foldlM_cons] at h
    rcases Effect.except_bind_ok h with ⟨s, hfirst, hrest⟩
    rcases expand_branch hfirst with ⟨n, below, hbranch⟩
    rcases ih hbranch.bounded hrest with ⟨new, hout, hwalked, hbounded⟩
    rcases hbranch.self with ⟨hid, hparent, hcoroutine⟩
    have hbelow : InPreorder (some n.id) below := hid.symm ▸ hbranch.preorder
    refine ⟨n :: below ++ new, ?_, ⟨?_, ?_, ?_⟩, hbounded⟩
    · rw [hout, hbranch.out]
      simp
    · exact .cons hparent hbelow hwalked.preorder
    · rw [topTasks_append, topTasks_branch hparent hbelow, List.map_append, hwalked.tops]
      simp [hid, hcoroutine, TaskRoot.coroutine]
    · rw [branchTasks_append, branchTasks_branch hparent hbelow]
      refine hbranch.numbered.append ?_
      rw [← hbranch.nextId]
      exact hwalked.branches

theorem enumerate_walked {nodes : List DecodedNode} {roots : List TaskRoot}
    (hroots : decoder.effectiveRoots view = .ok roots) (h : decoder.enumerate view = .ok nodes) :
    Walked roots (TokioDecoder.firstFreeId roots) nodes ∧ nodes.length ≤ maxTasks := by
  rw [TokioDecoder.enumerate, hroots, Effect.except_ok_bind] at h
  rcases Effect.except_bind_ok h with ⟨acc, hfold, h⟩
  rcases Except.ok.inj h with rfl
  rcases foldlM_walked (Nat.zero_le _) hfold with ⟨new, hout, hwalked, hbounded⟩
  have hnodes : acc.out = new := hout
  rw [hnodes] at hbounded ⊢
  exact ⟨hwalked, hbounded⟩

/-! ## The tree -/

theorem toNat_max (a b : UInt64) : (max a b).toNat = max a.toNat b.toNat := by
  have hmax : max a b = if a ≤ b then b else a := rfl
  rw [hmax]
  split
  · rename_i hle
    rw [UInt64.le_iff_toNat_le] at hle
    omega
  · rename_i hle
    rw [UInt64.le_iff_toNat_le] at hle
    omega

/-- The greatest number of a list is one that was given, or a bound on all of them. -/
theorem toNat_foldl_max (ids : List UInt64) (acc : UInt64) {bound : Nat}
    (hacc : acc.toNat ≤ bound) (hids : ∀ id ∈ ids, id.toNat ≤ bound) :
    (ids.foldl max acc).toNat ≤ bound ∧ acc.toNat ≤ (ids.foldl max acc).toNat ∧
      ∀ id ∈ ids, id.toNat ≤ (ids.foldl max acc).toNat := by
  induction ids generalizing acc with
  | nil => exact ⟨hacc, Nat.le_refl _, fun id hid => absurd hid List.not_mem_nil⟩
  | cons id ids ih =>
    have hid := hids id List.mem_cons_self
    have hmax := toNat_max acc id
    rcases ih (max acc id) (by omega) fun other hother =>
      hids other (List.mem_cons_of_mem id hother) with ⟨hle, hge, hrest⟩
    rw [List.foldl_cons]
    refine ⟨hle, by omega, ?_⟩
    intro other hother
    rcases List.mem_cons.mp hother with rfl | hother
    · omega
    · exact hrest other hother

/-- The first free number is above all root numbers, and so far from the greatest number. -/
theorem firstFreeId_spec {roots : List TaskRoot}
    (hbound : ∀ root ∈ roots, root.id.toNat < 2 ^ 64 - 2 ^ 17) :
    (TokioDecoder.firstFreeId roots).toNat ≤ 2 ^ 64 - 2 ^ 17 ∧
      ∀ root ∈ roots, root.id < TokioDecoder.firstFreeId roots := by
  have hids : ∀ id ∈ roots.map TaskRoot.id, id.toNat ≤ 2 ^ 64 - 2 ^ 17 - 1 := by
    intro id hid
    rcases List.mem_map.mp hid with ⟨root, hroot, rfl⟩
    have hlt := hbound root hroot
    omega
  rcases toNat_foldl_max (roots.map TaskRoot.id) 0 (Nat.zero_le _) hids with ⟨hmax, -, hge⟩
  have hfree : (TokioDecoder.firstFreeId roots).toNat =
      ((roots.map TaskRoot.id).foldl max 0).toNat + 1 := by
    rw [TokioDecoder.firstFreeId, UInt64.toNat_add]
    refine Nat.mod_eq_of_lt ?_
    show ((roots.map TaskRoot.id).foldl max 0).toNat + 1 < 2 ^ 64
    omega
  constructor
  · omega
  · intro root hroot
    have hid := hge root.id (List.mem_map_of_mem hroot)
    rw [UInt64.lt_iff_toNat_lt, hfree]
    omega

section Tree

variable {nodes : List DecodedNode} {roots : List TaskRoot}

/-- The roots keep their numbers. -/
theorem Walked.topIds {start : UInt64} (h : Walked roots start nodes) :
    (topTasks nodes).map (fun n => n.id.raw) = roots.map TaskRoot.id := by
  have hfst := congrArg (List.map Prod.fst) h.tops
  rw [List.map_map, List.map_map] at hfst
  exact hfst

/-- The numbers of the branches are above those of the roots, and each list ascends. -/
theorem Walked.ascending (h : Walked roots (TokioDecoder.firstFreeId roots) nodes)
    (hlength : nodes.length ≤ maxTasks) (hroots : roots.Pairwise fun a b => a.id < b.id)
    (hbound : ∀ root ∈ roots, root.id.toNat < 2 ^ 64 - 2 ^ 17) :
    ((topTasks nodes).Pairwise fun a b => a.id.raw < b.id.raw) ∧
    ((branchTasks nodes).Pairwise fun a b => a.id.raw < b.id.raw) ∧
    ∀ top ∈ topTasks nodes, ∀ branch ∈ branchTasks nodes, top.id.raw < branch.id.raw := by
  rcases firstFreeId_spec hbound with ⟨hfree, habove⟩
  have hcount : (branchTasks nodes).length ≤ maxTasks :=
    Nat.le_trans (List.length_filter_le ..) hlength
  have hmax : maxTasks = 2 ^ 16 := rfl
  rcases h.branches.ascending (by omega) with ⟨hbranches, hge⟩
  have hids := h.topIds
  refine ⟨?_, hbranches, ?_⟩
  · have hpairwise : (roots.map TaskRoot.id).Pairwise (· < ·) := List.pairwise_map.mpr hroots
    rw [← hids, List.pairwise_map] at hpairwise
    exact hpairwise
  · intro top htop branch hbranch
    have hmem : top.id.raw ∈ roots.map TaskRoot.id := by
      rw [← hids]
      exact List.mem_map_of_mem htop
    rcases List.mem_map.mp hmem with ⟨root, hroot, hid⟩
    rw [← hid]
    exact UInt64.lt_of_lt_of_le (habove root hroot) (hge branch hbranch)

/-- The numbers are all different. -/
theorem Walked.nodup (h : Walked roots (TokioDecoder.firstFreeId roots) nodes)
    (hlength : nodes.length ≤ maxTasks) (hroots : roots.Pairwise fun a b => a.id < b.id)
    (hbound : ∀ root ∈ roots, root.id.toNat < 2 ^ 64 - 2 ^ 17) :
    (nodes.map DecodedNode.id).Nodup := by
  rcases h.ascending hlength hroots hbound with ⟨htops, hbranches, hapart⟩
  have hperm : (topTasks nodes ++ branchTasks nodes).Perm nodes :=
    List.filter_append_perm (fun n : DecodedNode => n.parent.isNone) nodes
  refine (hperm.map DecodedNode.id).nodup_iff.mp ?_
  have hne : ∀ a b : DecodedNode, a.id.raw < b.id.raw → a.id ≠ b.id := by
    intro a b hlt heq
    rw [heq] at hlt
    exact UInt64.lt_irrefl _ hlt
  rw [List.Nodup, List.pairwise_map, List.pairwise_append]
  refine ⟨htops.imp (hne _ _), hbranches.imp (hne _ _), ?_⟩
  intro top htop branch hbranch
  exact hne top branch (hapart top htop branch hbranch)

/-- Tasks with one parent are listed in the order of their numbers. -/
theorem Walked.siblings (h : Walked roots (TokioDecoder.firstFreeId roots) nodes)
    (hlength : nodes.length ≤ maxTasks) (hroots : roots.Pairwise fun a b => a.id < b.id)
    (hbound : ∀ root ∈ roots, root.id.toNat < 2 ^ 64 - 2 ^ 17) (parent : Option TaskId) :
    (nodes.filter fun n => n.parent = parent).Pairwise fun a b => a.id.raw < b.id.raw := by
  rcases h.ascending hlength hroots hbound with ⟨htops, hbranches, -⟩
  cases parent with
  | none =>
    have heq : (nodes.filter fun n => n.parent = none) = topTasks nodes := by
      refine List.filter_congr ?_
      intro n _
      cases n.parent <;> simp
    rw [heq]
    exact htops
  | some id =>
    have heq : (nodes.filter fun n => n.parent = some id) =
        (branchTasks nodes).filter fun n => n.parent = some id := by
      rw [branchTasks, List.filter_filter]
      refine List.filter_congr ?_
      intro n _
      cases n.parent <;> simp
    rw [heq]
    exact hbranches.filter _

theorem filter_taskNode (parent : Option TaskId) :
    ((nodes.map TokioDecoder.taskNode).filter fun node => node.parent = parent) =
      (nodes.filter fun n => n.parent = parent).map TokioDecoder.taskNode := by
  rw [List.filter_map]
  rfl

/-- Parents come first. -/
theorem Walked.parents {start : UInt64} (h : Walked roots start nodes) :
    nodes.Each fun before n => ∀ p, n.parent = some p → ∃ m ∈ before, m.id = p := by
  refine h.preorder.parentsFirst.imp ?_
  rintro before n (hnone | ⟨m, hm, hup⟩) p hp
  · rw [hnone] at hp
    cases hp
  · exact ⟨m, hm, Option.some.inj (hup.symm.trans hp)⟩

/-- The tasks of a walk form a tree exactly if their numbers are different. -/
theorem Walked.tree_iff {start : UInt64} (h : Walked roots start nodes) :
    (∃ tree, TaskTree.tryFromNodes (nodes.map TokioDecoder.taskNode) = .ok tree) ↔
      nodes.Pairwise fun a b => a.id ≠ b.id := by
  rw [TaskTree.tryFromNodes_ok_iff, List.pairwise_map]
  refine and_iff_left ?_
  intro node hnode p hp
  rcases List.mem_map.mp hnode with ⟨n, hn, rfl⟩
  rcases List.mem_iff_append.mp hn with ⟨before, after, hsplit⟩
  rcases h.parents before n after hsplit p hp with ⟨m, hm, hid⟩
  refine ⟨TokioDecoder.taskNode m, List.mem_map_of_mem ?_, hid⟩
  rw [hsplit]
  exact List.mem_append_left _ hm

/-- **The task walk.** From roots with ascending numbers, the walk over any layouts and any
memory ends, within as many levels as there may be tasks. Where it succeeds, its tasks have
different numbers, the roots keep theirs, parents come first, and the tree that is made of the
tasks is listed in the order of the walk. -/
theorem walk_wellFormed (hroots : decoder.effectiveRoots view = .ok roots)
    (hascending : roots.Pairwise fun a b => a.id < b.id)
    (hbound : ∀ root ∈ roots, root.id.toNat < 2 ^ 64 - 2 ^ 17) :
    (∀ cut depth, maxTasks < depth →
      decoder.walkOr view cut depth roots = decoder.enumerate view) ∧
    ∀ nodes, decoder.enumerate view = .ok nodes →
      (nodes.Pairwise fun a b => a.id ≠ b.id) ∧
      (topTasks nodes).map (fun n => (n.id.raw, n.coroutine)) =
        roots.map (fun root => (root.id, root.coroutine)) ∧
      (nodes.Each fun before n => ∀ p, n.parent = some p → ∃ m ∈ before, m.id = p) ∧
      ∃ tree, decoder.decodeTasks view = .ok tree ∧ ∀ depth, tree.len ≤ depth →
        tree.flattenPreorder depth = some (nodes.map DecodedNode.id) := by
  refine ⟨fun cut depth hdepth => walkOr_eq_enumerate hroots cut hdepth, ?_⟩
  intro nodes hnodes
  rcases enumerate_walked hroots hnodes with ⟨hwalked, hlength⟩
  have hnodup := hwalked.nodup hlength hascending hbound
  have hdiffer : nodes.Pairwise fun a b => a.id ≠ b.id := List.pairwise_map.mp hnodup
  rcases hwalked.tree_iff.mpr hdiffer with ⟨tree, htree⟩
  refine ⟨hdiffer, hwalked.tops, hwalked.parents, tree, ?_, ?_⟩
  · rw [TokioDecoder.decodeTasks, hnodes, Effect.except_ok_bind, htree]
  · -- siblings come in the order of the walk, so the tree is gone through as the walk went
    have horder := TaskTree.order_of_siblings htree fun parent => by
      rw [filter_taskNode, List.pairwise_map]
      exact hwalked.siblings hlength hascending hbound parent
    intro depth hdepth
    have hlen : tree.len = nodes.length := by
      rw [TaskTree.len_tryFromNodes htree, List.length_map]
    rw [TaskTree.flattenPreorder_eq, horder.1, filter_taskNode, List.map_map]
    refine hwalked.preorder.visitAll_eq hnodup (fun _ _ => nofun) (by omega) ?_
    intro n _
    rw [horder.2, filter_taskNode, List.map_map]
    rfl

end Tree

/-- Two tasks: `joiner`, which joins one `sleeper`, and a `sleeper` by itself. -/
def twoTasks : TokioDecoder :=
  { joinInside with roots := [⟨1, 0x1000, joiner, none⟩, ⟨4, 0x2000, sleeper, none⟩] }

theorem walk_wellFormed_twoTasks :
    ∃ nodes tree, twoTasks.enumerate allSuspended = .ok nodes ∧
      nodes.map DecodedNode.id = [⟨1⟩, ⟨5⟩, ⟨4⟩] ∧
      twoTasks.decodeTasks allSuspended = .ok tree ∧
      ∀ depth, tree.len ≤ depth → tree.flattenPreorder depth = some [⟨1⟩, ⟨5⟩, ⟨4⟩] := by
  have hnodes : ∃ nodes, twoTasks.enumerate allSuspended = .ok nodes ∧
      nodes.map DecodedNode.id = [⟨1⟩, ⟨5⟩, ⟨4⟩] := ⟨_, rfl, rfl⟩
  rcases hnodes with ⟨nodes, hnodes, hids⟩
  have hwalk := @walk_wellFormed allSuspended twoTasks twoTasks.roots rfl (by decide) (by decide)
  rcases hwalk.2 nodes hnodes with ⟨-, -, -, tree, htree, hflat⟩
  rw [hids] at hflat
  exact ⟨nodes, tree, hnodes, hids, htree, hflat⟩

end Mirrorscope.Decoder.AsyncRust
