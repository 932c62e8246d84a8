import Mirrorscope.Decoder.Enumeration
import Mirrorscope.Lib.Chain

/-! # What the async view shows

Awaited futures are followed by the logical stack of a task, fan-out by the task walk. The task
walk goes first and only ever fans out from a task; the stack then only ever awaits. So a
coroutine is shown exactly when it is reached by fan-out steps followed by await steps, and the
branches that an awaited coroutine fans out to are lost unless they are reached in that way too.
-/

namespace Mirrorscope.Decoder.AsyncRust

open Relation (ReflTransGen TransGen)

section

variable (view : ProcessView) (layouts : AsyncLayouts)

/-- The active variant of `c` awaits the coroutine `d`. -/
def Awaits (c d : Coroutine) : Prop :=
  ∃ layout discr variant child, layouts.get c.typeName = some layout ∧
    activeVariant view c.base layout = .ok (discr, variant) ∧ variant.awaitee = some child ∧
    layouts.isCoroutine child.typeName = true ∧ d = ⟨c.base + child.offset, child.typeName⟩

/-- The active variant of `c` is a suspend point. -/
def IsSuspended (c : Coroutine) : Prop :=
  ∃ layout discr variant, layouts.get c.typeName = some layout ∧
    activeVariant view c.base layout = .ok (discr, variant) ∧ variant.kind.isSuspend = true

/-- The logical stack goes on from `c` to `d`. -/
def GoesOn (c d : Coroutine) : Prop := IsSuspended view layouts c ∧ Awaits view layouts c d

/-- The coroutine is live: a root reaches it by await and fan-out steps in any order. -/
def Live (roots : List TaskRoot) (c : Coroutine) : Prop :=
  ∃ root ∈ roots, ReflTransGen (fun a b => Awaits view layouts a b ∨ FansOut view layouts a b)
    root.coroutine c

/-- The coroutine is a root or a fan-out branch of one, or of such a branch, and so on. -/
def IsTask (roots : List TaskRoot) (c : Coroutine) : Prop :=
  ∃ root ∈ roots, ReflTransGen (FansOut view layouts) root.coroutine c

/-- The coroutine is a task, or is awaited by one through suspended coroutines. -/
def OnStack (roots : List TaskRoot) (c : Coroutine) : Prop :=
  ∃ t, IsTask view layouts roots t ∧ ReflTransGen (GoesOn view layouts) t c

end

/-- The coroutine of a frame. -/
def StackFrame.coroutine? : StackFrame → Option Coroutine
  | .coroutine base layout _ _ => some ⟨base, layout.typeName⟩
  | .leaf _ => none

/-- The coroutines of the frames. -/
def coroutines (frames : List StackFrame) : List Coroutine :=
  frames.filterMap StackFrame.coroutine?

/-- The coroutine is a node of the tree, or has a frame in the logical stack of one. -/
def Shown (decoder : TokioDecoder) (view : ProcessView) (tree : TaskTree) (c : Coroutine) : Prop :=
  ∃ nodes, decoder.enumerate view = .ok nodes ∧ ∃ n ∈ nodes,
    tree.node n.id = some (TokioDecoder.taskNode n) ∧
    (n.coroutine = c ∨ ∃ frames,
      stackFrom view decoder.layouts maxAwaitDepth n.base n.typeName = .ok frames ∧
      decoder.logicalStack view n.id = .ok (frames.map StackFrame.logicalFrame) ∧
      c ∈ coroutines frames)

variable {view : ProcessView} {layouts : AsyncLayouts} {decoder : TokioDecoder}

/-! ## Stacks -/

/-- A coroutine awaits at most one other. -/
theorem Awaits.unique {c d d' : Coroutine} (h : Awaits view layouts c d)
    (h' : Awaits view layouts c d') : d = d' := by
  obtain ⟨layout, discr, variant, child, hlayout, hactive, hchild, -, rfl⟩ := h
  obtain ⟨layout', discr', variant', child', hlayout', hactive', hchild', -, rfl⟩ := h'
  rcases Option.some.inj (hlayout.symm.trans hlayout') with rfl
  obtain ⟨-, rfl⟩ := Prod.mk.inj (Except.ok.inj (hactive.symm.trans hactive'))
  rcases Option.some.inj (hchild.symm.trans hchild') with rfl
  rfl

/-- Two readings of one coroutine's active variant are the same. -/
theorem activeVariant_unique {c : Coroutine} {layout layout' : AsyncFnLayout}
    {discr discr' : UInt64} {variant variant' : VariantInfo}
    (hlayout : layouts.get c.typeName = some layout)
    (hactive : activeVariant view c.base layout = .ok (discr, variant))
    (hlayout' : layouts.get c.typeName = some layout')
    (hactive' : activeVariant view c.base layout' = .ok (discr', variant')) :
    variant = variant' := by
  rcases Option.some.inj (hlayout.symm.trans hlayout') with rfl
  exact (Prod.mk.inj (Except.ok.inj (hactive.symm.trans hactive'))).2

/-- What one coroutine adds to a stack: its own frame, and then the stack of the coroutine it
goes on to, or at most a leaf frame where it goes on to none. -/
theorem stackFrom_succ {depth : Nat} {c : Coroutine} {frames : List StackFrame}
    (h : stackFrom view layouts (depth + 1) c.base c.typeName = .ok frames) :
    ∃ first rest, frames = first :: rest ∧ first.coroutine? = some c ∧
      ((coroutines rest = [] ∧ ∀ d, ¬ GoesOn view layouts c d) ∨
        ∃ d, GoesOn view layouts c d ∧
          stackFrom view layouts depth d.base d.typeName = .ok rest) := by
  rw [stackFrom] at h
  split at h
  · cases h
  · rename_i layout hlayout
    obtain ⟨⟨discr, variant⟩, hactive, h⟩ := Effect.except_bind_ok h
    have hname : layout.typeName = c.typeName := layouts.keyed c.typeName layout hlayout
    -- Whatever it is suspended on, the first frame is of the coroutine itself.
    have hself : ∀ suspend, (StackFrame.coroutine c.base layout variant suspend).coroutine? =
        some c := by
      intro suspend
      simp only [StackFrame.coroutine?, hname]
    simp only [Bool.not_eq_true] at h
    split at h
    · rename_i hkind
      rcases Except.ok.inj h with rfl
      refine ⟨_, [], rfl, hself none, .inl ⟨rfl, ?_⟩⟩
      rintro d ⟨⟨layout', discr', variant', hlayout', hactive', hsuspend⟩, -⟩
      rcases activeVariant_unique hlayout hactive hlayout' hactive' with rfl
      simp [hkind] at hsuspend
    · rename_i hkind
      have hsuspended : IsSuspended view layouts c :=
        ⟨layout, discr, variant, hlayout, hactive, by simpa using hkind⟩
      split at h
      · rename_i hawaitee
        rcases Except.ok.inj h with rfl
        refine ⟨_, [], rfl, hself none, .inl ⟨rfl, ?_⟩⟩
        rintro d ⟨-, layout', discr', variant', child, hlayout', hactive', hchild, -⟩
        rcases activeVariant_unique hlayout hactive hlayout' hactive' with rfl
        cases hawaitee.symm.trans hchild
      · rename_i child hawaitee
        split at h
        · rename_i hcoroutine
          obtain ⟨rest, hrest, h⟩ := Effect.except_bind_ok h
          rcases Except.ok.inj h with rfl
          refine ⟨_, rest, rfl, hself _, .inr ⟨⟨c.base + child.offset, child.typeName⟩, ?_, hrest⟩⟩
          exact ⟨hsuspended, layout, discr, variant, child, hlayout, hactive, hawaitee,
            hcoroutine, rfl⟩
        · rename_i hcoroutine
          rcases Except.ok.inj h with rfl
          refine ⟨_, [.leaf child], rfl, hself _, .inl ⟨rfl, ?_⟩⟩
          rintro d ⟨-, layout', discr', variant', child', hlayout', hactive', hchild, hyes, -⟩
          rcases activeVariant_unique hlayout hactive hlayout' hactive' with rfl
          rcases Option.some.inj (hawaitee.symm.trans hchild) with rfl
          exact hcoroutine hyes

/-- The frames of a stack are the coroutines the walk goes on to, up to its depth. -/
theorem mem_stackFrom {depth : Nat} {c d : Coroutine} {frames : List StackFrame}
    (h : stackFrom view layouts depth c.base c.typeName = .ok frames) :
    d ∈ coroutines frames ↔ ∃ k < depth, Chain (GoesOn view layouts) k c d := by
  induction depth generalizing c frames with
  | zero =>
    rcases Except.ok.inj h with rfl
    simp [coroutines]
  | succ depth ih =>
    obtain ⟨first, rest, rfl, hfirst, hrest⟩ := stackFrom_succ h
    have hcons : coroutines (first :: rest) = c :: coroutines rest :=
      List.filterMap_cons_some hfirst
    rw [hcons, List.mem_cons]
    constructor
    · rintro (rfl | hd)
      · exact ⟨0, Nat.succ_pos depth, .refl d⟩
      · rcases hrest with ⟨hnil, -⟩ | ⟨next, hstep, hstack⟩
        · rw [hnil] at hd
          cases hd
        · obtain ⟨k, hk, hchain⟩ := (ih hstack).mp hd
          exact ⟨k + 1, by omega, .head hstep hchain⟩
    · rintro ⟨k, hk, hchain⟩
      cases hchain with
      | refl => exact .inl rfl
      | head hstep hchain =>
        rcases hrest with ⟨-, hnone⟩ | ⟨next, hnext, hstack⟩
        · exact absurd hstep (hnone _)
        · rcases hstep.2.unique hnext.2 with rfl
          exact .inr ((ih hstack).mpr ⟨_, by omega, hchain⟩)

/-- Wherever the leaf future can be found, the stack can be built. -/
theorem stackFrom_ok {depth : Nat} {c : Coroutine} {layout : AsyncFnLayout} {leaf : Option String}
    (hlayout : layouts.get c.typeName = some layout)
    (h : leafTypeFrom view layouts depth c.base layout = .ok leaf) :
    ∃ frames, stackFrom view layouts depth c.base c.typeName = .ok frames := by
  induction depth generalizing c layout with
  | zero => exact ⟨[], rfl⟩
  | succ depth ih =>
    rw [leafTypeFrom] at h
    obtain ⟨⟨discr, variant⟩, hactive, h⟩ := Effect.except_bind_ok h
    simp only [stackFrom, hlayout, hactive, Effect.except_ok_bind]
    split
    · exact ⟨_, rfl⟩
    · cases hawaitee : variant.awaitee with
      | none => exact ⟨_, rfl⟩
      | some child =>
        simp only [hawaitee] at h
        cases hnext : layouts.get child.typeName with
        | none =>
          have hleaf : layouts.isCoroutine child.typeName = false := by
            simp [AsyncLayouts.isCoroutine, hnext]
          exact ⟨_, by simp only [hleaf]; rfl⟩
        | some next =>
          have hcoroutine : layouts.isCoroutine child.typeName = true := by
            simp [AsyncLayouts.isCoroutine, hnext]
          simp only [hnext] at h
          obtain ⟨rest, hrest⟩ := @ih ⟨c.base + child.offset, child.typeName⟩ next hnext h
          exact ⟨_, by simp only [hcoroutine, if_true, hrest]; rfl⟩

/-- The logical stack of a decoded node exists. -/
theorem Decoded.stack {n : DecodedNode} (h : Decoded view layouts n) :
    ∃ frames, stackFrom view layouts maxAwaitDepth n.base n.typeName = .ok frames := by
  obtain ⟨layout, headerAddr, hlayout, -, hwake⟩ := h
  obtain ⟨leaf, hleaf, -⟩ := Effect.except_bind_ok hwake
  exact @stackFrom_ok view layouts maxAwaitDepth n.coroutine layout leaf hlayout hleaf

/-! ## Trees -/

variable {tree : TaskTree} {roots : List TaskRoot}

/-- Every task of the walk is in the tree, and its number leads to its stack. -/
theorem node_of_enumerate {nodes : List DecodedNode} (hnodes : decoder.enumerate view = .ok nodes)
    (htree : TaskTree.tryFromNodes (nodes.map TokioDecoder.taskNode) = .ok tree)
    {n : DecodedNode} (hn : n ∈ nodes) :
    tree.node n.id = some (TokioDecoder.taskNode n) ∧
      decoder.logicalStack view n.id =
        logicalStack view decoder.layouts n.base n.typeName := by
  have hpairwise := List.pairwise_map.mp (TaskTree.pairwise_tryFromNodes htree)
  have hfind : (nodes.find? fun other => other.id = n.id) = some n :=
    (KeyMap.find_key_iff hpairwise).mpr ⟨hn, rfl⟩
  constructor
  · rw [TaskTree.node_tryFromNodes htree, List.find?_map]
    exact congrArg (Option.map TokioDecoder.taskNode) hfind
  · have hnode : TokioDecoder.nodeFor nodes n.id = .ok n := by
      rw [TokioDecoder.nodeFor, hfind]
      rfl
    simp only [TokioDecoder.logicalStack, hnodes, Effect.except_ok_bind, hnode]

theorem OnStack.live {c : Coroutine} (h : OnStack view layouts roots c) :
    Live view layouts roots c := by
  obtain ⟨t, ⟨root, hroot, hfan⟩, hawait⟩ := h
  refine ⟨root, hroot, .trans (hfan.lift id ?_) (hawait.lift id ?_)⟩
  · exact fun _ _ hstep => .inr hstep
  · exact fun _ _ hstep => .inl hstep.2

/-- Where no await chain is too long, a coroutine is shown exactly when it is on a stack. -/
theorem shown_iff (hdecode : decoder.decodeTasks view = .ok tree)
    (hroots : decoder.effectiveRoots view = .ok roots)
    (hdepth : ∀ c, Live view decoder.layouts roots c →
      ¬ ∃ d, Chain (Awaits view decoder.layouts) maxAwaitDepth c d) (c : Coroutine) :
    Shown decoder view tree c ↔ OnStack view decoder.layouts roots c := by
  obtain ⟨nodes, hnodes, htree⟩ := Effect.except_bind_ok hdecode
  obtain ⟨roots', hroots', hcovered⟩ := enumerate_covered hnodes
  rcases Except.ok.inj (hroots.symm.trans hroots') with rfl
  have htask : ∀ d, (∃ n ∈ nodes, n.coroutine = d) ↔ IsTask view decoder.layouts roots d := by
    intro d
    rw [hcovered.mem_iff d]
    simp [IsTask, List.mem_map]
  constructor
  · rintro ⟨nodes', hnodes', n, hn, -, hshown⟩
    rcases Except.ok.inj (hnodes.symm.trans hnodes') with rfl
    have hn' : IsTask view decoder.layouts roots n.coroutine := (htask _).mp ⟨n, hn, rfl⟩
    rcases hshown with rfl | ⟨frames, hframes, -, hc⟩
    · exact ⟨n.coroutine, hn', .refl⟩
    · obtain ⟨k, -, hchain⟩ := (mem_stackFrom (c := n.coroutine) hframes).mp hc
      exact ⟨n.coroutine, hn', hchain.reflTransGen⟩
  · rintro ⟨t, ht, hreach⟩
    obtain ⟨n, hn, rfl⟩ := (htask t).mpr ht
    obtain ⟨hnode, hstack⟩ := node_of_enumerate hnodes htree hn
    obtain ⟨frames, hframes⟩ := (hcovered.decoded n hn).stack
    -- a chain as long as the walk is deep would be a chain of awaits from a live coroutine
    have hshort : ¬ ∃ d, Chain (GoesOn view decoder.layouts) maxAwaitDepth n.coroutine d := by
      rintro ⟨d, hd⟩
      have hlive : Live view decoder.layouts roots n.coroutine :=
        OnStack.live ⟨n.coroutine, ht, .refl⟩
      exact hdepth n.coroutine hlive ⟨d, hd.mono fun _ _ hstep => hstep.2⟩
    refine ⟨nodes, hnodes, n, hn, hnode, .inr ⟨frames, hframes, ?_, ?_⟩⟩
    · rw [hstack, logicalStack, hframes]
      rfl
    · exact (mem_stackFrom (c := n.coroutine) hframes).mpr (Chain.lt_of_not_chain hshort hreach)

/-- **When no live coroutine is lost.** Where decoding succeeds and no await chain is too long,
every live coroutine is shown exactly when the branches of an awaited coroutine are on a stack
by themselves, and so is what a coroutine awaits outside of a suspend point. -/
theorem live_shown_iff (hdecode : decoder.decodeTasks view = .ok tree)
    (hroots : decoder.effectiveRoots view = .ok roots)
    (hdepth : ∀ c, Live view decoder.layouts roots c →
      ¬ ∃ d, Chain (Awaits view decoder.layouts) maxAwaitDepth c d) :
    (∀ c, Live view decoder.layouts roots c → Shown decoder view tree c) ↔
      (∀ t c d, IsTask view decoder.layouts roots t → TransGen (GoesOn view decoder.layouts) t c →
        FansOut view decoder.layouts c d → OnStack view decoder.layouts roots d) ∧
      (∀ c d, OnStack view decoder.layouts roots c → ¬ IsSuspended view decoder.layouts c →
        Awaits view decoder.layouts c d → OnStack view decoder.layouts roots d) := by
  have hshown := shown_iff hdecode hroots hdepth
  constructor
  · intro hall
    constructor
    · intro t c d ht hawait hfan
      obtain ⟨root, hroot, hreach⟩ := OnStack.live ⟨t, ht, hawait.to_reflTransGen⟩
      exact (hshown d).mp (hall d ⟨root, hroot, hreach.tail (.inr hfan)⟩)
    · intro c d hc _ hawait
      obtain ⟨root, hroot, hreach⟩ := hc.live
      exact (hshown d).mp (hall d ⟨root, hroot, hreach.tail (.inl hawait)⟩)
  · rintro ⟨hbranches, hother⟩ c ⟨root, hroot, hreach⟩
    rw [hshown c]
    -- every step from a coroutine on a stack leads to one on a stack
    induction hreach with
    | refl => exact ⟨root.coroutine, ⟨root, hroot, .refl⟩, .refl⟩
    | @tail b d _ hstep ih =>
      obtain ⟨t, ht, hstack⟩ := ih
      rcases hstep with hawait | hfan
      · by_cases hsuspended : IsSuspended view decoder.layouts b
        · exact ⟨t, ht, hstack.tail ⟨hsuspended, hawait⟩⟩
        · exact hother b d ⟨t, ht, hstack⟩ hsuspended hawait
      · rcases Relation.reflTransGen_iff_eq_or_transGen.mp hstack with rfl | hawaited
        · obtain ⟨root', hroot', hreach'⟩ := ht
          exact ⟨d, ⟨root', hroot', hreach'.tail hfan⟩, .refl⟩
        · exact hbranches t b d ht hawaited hfan

/-! ### A join inside an awaited function -/

/-- A coroutine that is only ever suspended, at one point. -/
def suspendedIn (typeName : String) (awaitee : ChildRef) (children : List ChildRef) :
    AsyncFnLayout where
  typeName := typeName
  discrOffset := 120
  discrSize := 1
  variants := (∅ : KeyMap UInt64 VariantInfo).insert 3
    { kind := .suspend 0, awaitLocation := none, awaitee := some awaitee, children := children }

def outer : String := "probe::outer::\x7basync_fn_env#0\x7d"
def joiner : String := "probe::joiner::\x7basync_fn_env#0\x7d"
def sleeper : String := "probe::sleeper::\x7basync_fn_env#0\x7d"

/-- One task: `outer` awaits `joiner`, which joins one `sleeper`. -/
def joinInside : TokioDecoder where
  layouts := ((AsyncLayouts.new.insert (suspendedIn outer ⟨8, joiner⟩ [])).insert
    (suspendedIn joiner ⟨272, "core::future::poll_fn::PollFn"⟩ [⟨16, sleeper⟩])).insert
    (suspendedIn sleeper ⟨8, "tokio::time::sleep::Sleep"⟩ [])
  roots := [⟨1, 0x1000, outer, none⟩]
  plan := none

/-- A memory in which every byte is 3, so that every coroutine is suspended. -/
def allSuspended : ProcessView where
  threadIds := []
  registers thread := .error (.unknownThread thread)
  readMemory _ len := .ok (List.replicate len 3)
  physicalFrames thread := .error (.unknownThread thread)
  threadPointer _ := .ok none
  executableBase := none

theorem get_joinInside (name : String) :
    joinInside.layouts.get name =
      if sleeper = name then some (suspendedIn sleeper ⟨8, "tokio::time::sleep::Sleep"⟩ [])
      else if joiner = name then
        some (suspendedIn joiner ⟨272, "core::future::poll_fn::PollFn"⟩ [⟨16, sleeper⟩])
      else if outer = name then some (suspendedIn outer ⟨8, joiner⟩ []) else none := by
  simp only [AsyncLayouts.get, joinInside, AsyncLayouts.insert, AsyncLayouts.new,
    KeyMap.get_insert, suspendedIn, KeyMap.get_empty]

/-- Only `outer` awaits a coroutine. -/
theorem awaits_joinInside {c d : Coroutine}
    (h : Awaits allSuspended joinInside.layouts c d) :
    c.typeName = outer ∧ d.typeName = joiner := by
  obtain ⟨layout, discr, variant, child, hlayout, hactive, hchild, hcoroutine, rfl⟩ := h
  rw [get_joinInside] at hlayout
  split at hlayout
  · rcases Option.some.inj hlayout with rfl
    obtain ⟨-, rfl⟩ := Prod.mk.inj (Except.ok.inj hactive)
    rcases Option.some.inj hchild with rfl
    cases hcoroutine
  · split at hlayout
    · rcases Option.some.inj hlayout with rfl
      obtain ⟨-, rfl⟩ := Prod.mk.inj (Except.ok.inj hactive)
      rcases Option.some.inj hchild with rfl
      cases hcoroutine
    · split at hlayout
      · rename_i houter
        rcases Option.some.inj hlayout with rfl
        obtain ⟨-, rfl⟩ := Prod.mk.inj (Except.ok.inj hactive)
        rcases Option.some.inj hchild with rfl
        exact ⟨houter.symm, rfl⟩
      · cases hlayout

theorem joinInside_short (c : Coroutine) :
    ¬ ∃ d, Chain (Awaits allSuspended joinInside.layouts) maxAwaitDepth c d := by
  rintro ⟨d, hchain⟩
  cases hchain with
  | head hfirst hrest =>
    cases hrest with
    | head hsecond _ =>
      have hjoiner := (awaits_joinInside hfirst).2
      rw [(awaits_joinInside hsecond).1] at hjoiner
      exact absurd hjoiner (by decide)

theorem live_shown_joinInside :
    ∃ tree, joinInside.decodeTasks allSuspended = .ok tree ∧
      joinInside.effectiveRoots allSuspended = .ok joinInside.roots ∧
      ((∀ c, Live allSuspended joinInside.layouts joinInside.roots c →
          Shown joinInside allSuspended tree c) ↔
        (∀ t c d, IsTask allSuspended joinInside.layouts joinInside.roots t →
          TransGen (GoesOn allSuspended joinInside.layouts) t c →
          FansOut allSuspended joinInside.layouts c d →
          OnStack allSuspended joinInside.layouts joinInside.roots d) ∧
        (∀ c d, OnStack allSuspended joinInside.layouts joinInside.roots c →
          ¬ IsSuspended allSuspended joinInside.layouts c →
          Awaits allSuspended joinInside.layouts c d →
          OnStack allSuspended joinInside.layouts joinInside.roots d)) :=
  ⟨_, rfl, rfl, live_shown_iff rfl rfl fun c _ => joinInside_short c⟩

/-- The branch that `joiner` joins is live, but neither a node nor a frame. -/
theorem joined_branch_lost :
    ¬ ∀ (decoder : TokioDecoder) (view : ProcessView) (roots : List TaskRoot) (tree : TaskTree),
      decoder.decodeTasks view = .ok tree → decoder.effectiveRoots view = .ok roots →
      (∀ c, Live view decoder.layouts roots c →
        ¬ ∃ d, Chain (Awaits view decoder.layouts) maxAwaitDepth c d) →
      ∀ c, Live view decoder.layouts roots c → Shown decoder view tree c := by
  intro h
  have hawait : Awaits allSuspended joinInside.layouts ⟨0x1000, outer⟩ ⟨0x1008, joiner⟩ :=
    ⟨_, _, _, _, rfl, rfl, rfl, rfl, rfl⟩
  have hfan : FansOut allSuspended joinInside.layouts ⟨0x1008, joiner⟩ ⟨0x1018, sleeper⟩ :=
    ⟨_, _, rfl, rfl, List.mem_singleton_self _⟩
  have hlive : Live allSuspended joinInside.layouts joinInside.roots ⟨0x1018, sleeper⟩ :=
    ⟨_, List.mem_singleton_self _, .head (.inl hawait) (.single (.inr hfan))⟩
  obtain ⟨nodes, hnodes, n, hn, -, hshown⟩ := h joinInside allSuspended joinInside.roots _ rfl rfl
    (fun c _ => joinInside_short c) _ hlive
  rcases Except.ok.inj hnodes with rfl
  rcases List.mem_singleton.mp hn with rfl
  rcases hshown with hself | ⟨frames, hframes, -, hmem⟩
  · exact absurd hself (by decide)
  · rcases Except.ok.inj hframes with rfl
    revert hmem
    decide

end Mirrorscope.Decoder.AsyncRust
