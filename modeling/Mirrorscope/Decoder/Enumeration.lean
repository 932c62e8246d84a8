import Mathlib.Logic.Relation
import Mirrorscope.Decoder.AsyncRust

/-! # What the task walk produces

The task walk visits every root and, depth first, every coroutine a visited one fans out to.
Its nodes are exactly the coroutines that can be reached from a root in this way, and each is
decoded from its own address and type.
-/

namespace Mirrorscope.Decoder.AsyncRust

open Relation (ReflTransGen)

/-- A coroutine in memory. -/
structure Coroutine where
  base : UInt64
  typeName : String
deriving DecidableEq, Repr

def TaskRoot.coroutine (root : TaskRoot) : Coroutine := ⟨root.base, root.typeName⟩

def DecodedNode.coroutine (n : DecodedNode) : Coroutine := ⟨n.base, n.typeName⟩

section

variable (view : ProcessView) (layouts : AsyncLayouts)

/-- The active variant of `c` holds `d` as a fan-out child. -/
def FansOut (c d : Coroutine) : Prop :=
  ∃ layout children, layouts.get c.typeName = some layout ∧
    fanOutChildren view c.base layout = .ok children ∧ (d.base, d.typeName) ∈ children

/-- The node says what its own coroutine says. -/
def Decoded (n : DecodedNode) : Prop :=
  ∃ layout headerAddr, layouts.get n.typeName = some layout ∧
    taskState view layouts n.base layout headerAddr = .ok n.state ∧
    wakeCause view layouts n.base layout = .ok n.wake

/-- The nodes are the given coroutines with all they fan out to. -/
structure Covered (starts : List Coroutine) (nodes : List DecodedNode) : Prop where
  all : ∀ c ∈ starts, ∃ n ∈ nodes, n.coroutine = c
  only : ∀ n ∈ nodes, ∃ c ∈ starts, ReflTransGen (FansOut view layouts) c n.coroutine
  closed : ∀ n ∈ nodes, ∀ d, FansOut view layouts n.coroutine d → ∃ m ∈ nodes, m.coroutine = d
  decoded : ∀ n ∈ nodes, Decoded view layouts n

end

variable {view : ProcessView} {layouts : AsyncLayouts} {decoder : TokioDecoder}

theorem Covered.nil : Covered view layouts [] [] := by
  constructor <;> intro _ h <;> cases h

theorem Covered.append {starts starts' : List Coroutine} {nodes nodes' : List DecodedNode}
    (h : Covered view layouts starts nodes) (h' : Covered view layouts starts' nodes') :
    Covered view layouts (starts ++ starts') (nodes ++ nodes') := by
  constructor
  · intro c hc
    rcases List.mem_append.mp hc with hc | hc
    · obtain ⟨n, hn, hnc⟩ := h.all c hc
      exact ⟨n, List.mem_append_left _ hn, hnc⟩
    · obtain ⟨n, hn, hnc⟩ := h'.all c hc
      exact ⟨n, List.mem_append_right _ hn, hnc⟩
  · intro n hn
    rcases List.mem_append.mp hn with hn | hn
    · obtain ⟨c, hc, hreach⟩ := h.only n hn
      exact ⟨c, List.mem_append_left _ hc, hreach⟩
    · obtain ⟨c, hc, hreach⟩ := h'.only n hn
      exact ⟨c, List.mem_append_right _ hc, hreach⟩
  · intro n hn d hd
    rcases List.mem_append.mp hn with hn | hn
    · obtain ⟨m, hm, hmd⟩ := h.closed n hn d hd
      exact ⟨m, List.mem_append_left _ hm, hmd⟩
    · obtain ⟨m, hm, hmd⟩ := h'.closed n hn d hd
      exact ⟨m, List.mem_append_right _ hm, hmd⟩
  · intro n hn
    rcases List.mem_append.mp hn with hn | hn
    · exact h.decoded n hn
    · exact h'.decoded n hn

/-- A node in front of all its children. -/
theorem Covered.cons {n : DecodedNode} {layout : AsyncFnLayout}
    {children : List (UInt64 × String)} {nodes : List DecodedNode}
    (hlayout : layouts.get n.typeName = some layout)
    (hchildren : fanOutChildren view n.base layout = .ok children)
    (hdecoded : Decoded view layouts n)
    (h : Covered view layouts (children.map fun c => ⟨c.1, c.2⟩) nodes) :
    Covered view layouts [n.coroutine] (n :: nodes) := by
  constructor
  · intro c hc
    rw [List.mem_singleton] at hc
    exact ⟨n, List.mem_cons_self, hc.symm⟩
  · intro m hm
    refine ⟨n.coroutine, List.mem_singleton_self _, ?_⟩
    rcases List.mem_cons.mp hm with rfl | hm
    · exact .refl
    · obtain ⟨c, hc, hreach⟩ := h.only m hm
      obtain ⟨child, hchild, rfl⟩ := List.mem_map.mp hc
      exact .head ⟨layout, children, hlayout, hchildren, hchild⟩ hreach
  · intro m hm d hd
    rcases List.mem_cons.mp hm with rfl | hm
    · obtain ⟨layout', children', hlayout', hchildren', hd⟩ := hd
      have hsame : some layout = some layout' := hlayout.symm.trans hlayout'
      rcases Option.some.inj hsame with rfl
      have hsame' : Except.ok children = Except.ok children' := hchildren.symm.trans hchildren'
      rcases Except.ok.inj hsame' with rfl
      obtain ⟨m, hm, hmd⟩ := h.all d (List.mem_map.mpr ⟨_, hd, rfl⟩)
      exact ⟨m, List.mem_cons_of_mem _ hm, hmd⟩
    · obtain ⟨m', hm', hmd⟩ := h.closed m hm d hd
      exact ⟨m', List.mem_cons_of_mem _ hm', hmd⟩
  · intro m hm
    rcases List.mem_cons.mp hm with rfl | hm
    · exact hdecoded
    · exact h.decoded m hm

/-- Steps that each cover their coroutine cover them all. -/
theorem foldlM_covered {α : Type} {coroutine : α → Coroutine}
    {step : Expansion → α → Except DecoderError Expansion}
    (hstep : ∀ acc a acc', step acc a = .ok acc' →
      ∃ new, acc'.out = acc.out ++ new ∧ Covered view layouts [coroutine a] new)
    {items : List α} {acc acc' : Expansion} (h : items.foldlM step acc = .ok acc') :
    ∃ new, acc'.out = acc.out ++ new ∧ Covered view layouts (items.map coroutine) new := by
  induction items generalizing acc with
  | nil =>
    rcases Except.ok.inj h with rfl
    exact ⟨[], (List.append_nil _).symm, .nil⟩
  | cons a items ih =>
    rw [List.foldlM_cons] at h
    obtain ⟨acc₁, hfirst, hrest⟩ := Effect.except_bind_ok h
    obtain ⟨new, hout, hcovered⟩ := hstep acc a acc₁ hfirst
    obtain ⟨new', hout', hcovered'⟩ := ih hrest
    exact ⟨new ++ new', by rw [hout', hout, List.append_assoc], hcovered.append hcovered'⟩

/-- A decoded node and its children. -/
theorem decodeNode_ok {base : UInt64} {typeName : String} {headerAddr : Option UInt64}
    {id : TaskId} {parent : Option TaskId} {n : DecodedNode} {children : List (UInt64 × String)}
    (h : decoder.decodeNode view base typeName headerAddr id parent = .ok (n, children)) :
    n.coroutine = ⟨base, typeName⟩ ∧ Decoded view decoder.layouts n ∧
      ∃ layout, decoder.layouts.get n.typeName = some layout ∧
        fanOutChildren view n.base layout = .ok children := by
  unfold TokioDecoder.decodeNode at h
  split at h
  · cases h
  · rename_i layout hlayout
    obtain ⟨state, hstate, h⟩ := Effect.except_bind_ok h
    obtain ⟨wake, hwake, h⟩ := Effect.except_bind_ok h
    obtain ⟨found, hfound, h⟩ := Effect.except_bind_ok h
    obtain ⟨rfl, rfl⟩ := Prod.mk.inj (Except.ok.inj h)
    exact ⟨rfl, ⟨layout, headerAddr, hlayout, hstate, hwake⟩, layout, hlayout, hfound⟩

/-- Expanding a coroutine adds it with all it fans out to. -/
theorem expand_covered {depth : Nat} {base : UInt64} {typeName : String}
    {headerAddr : Option UInt64} {id : TaskId} {parent : Option TaskId} {acc acc' : Expansion}
    (h : decoder.expand view depth base typeName headerAddr id parent acc = .ok acc') :
    ∃ new, acc'.out = acc.out ++ new ∧
      Covered view decoder.layouts [⟨base, typeName⟩] new := by
  induction depth generalizing base typeName headerAddr id parent acc acc' with
  | zero => cases h
  | succ depth ih =>
    rw [TokioDecoder.expand] at h
    split at h
    · cases h
    · obtain ⟨⟨n, children⟩, hdecode, h⟩ := Effect.except_bind_ok h
      obtain ⟨hcoroutine, hdecoded, layout, hlayout, hchildren⟩ := decodeNode_ok hdecode
      have hstep : ∀ (acc : Expansion) (child : UInt64 × String) (acc' : Expansion),
          decoder.expand view depth child.1 child.2 none ⟨acc.nextId⟩ (some id)
            { acc with nextId := acc.nextId + 1 } = .ok acc' →
          ∃ new, acc'.out = acc.out ++ new ∧
            Covered view decoder.layouts [⟨child.1, child.2⟩] new := by
        intro acc child acc' hchild
        obtain ⟨new, hout, hcovered⟩ := ih hchild
        exact ⟨new, hout, hcovered⟩
      obtain ⟨new, hout, hcovered⟩ := foldlM_covered hstep h
      refine ⟨n :: new, by rw [hout]; simp, ?_⟩
      rw [← hcoroutine]
      exact .cons hlayout hchildren hdecoded hcovered

/-- The walk covers the roots. -/
theorem enumerate_covered {nodes : List DecodedNode} (h : decoder.enumerate view = .ok nodes) :
    ∃ roots, decoder.effectiveRoots view = .ok roots ∧
      Covered view decoder.layouts (roots.map TaskRoot.coroutine) nodes := by
  obtain ⟨roots, hroots, h⟩ := Effect.except_bind_ok h
  obtain ⟨acc, hfold, h⟩ := Effect.except_bind_ok h
  rcases Except.ok.inj h with rfl
  obtain ⟨new, hout, hcovered⟩ := foldlM_covered (fun _ root _ hroot => expand_covered hroot) hfold
  have hnodes : acc.out = new := hout
  exact ⟨roots, hroots, hnodes ▸ hcovered⟩

/-- A coroutine is a node exactly when a root reaches it by fan-out. -/
theorem Covered.mem_iff {starts : List Coroutine} {nodes : List DecodedNode}
    (h : Covered view layouts starts nodes) (d : Coroutine) :
    (∃ n ∈ nodes, n.coroutine = d) ↔
      ∃ c ∈ starts, ReflTransGen (FansOut view layouts) c d := by
  constructor
  · rintro ⟨n, hn, rfl⟩
    exact h.only n hn
  · rintro ⟨c, hc, hreach⟩
    induction hreach with
    | refl => exact h.all c hc
    | tail _ hstep ih =>
      obtain ⟨n, hn, rfl⟩ := ih
      exact h.closed n hn _ hstep

end Mirrorscope.Decoder.AsyncRust
