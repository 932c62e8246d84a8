import Mathlib.Data.List.Nodup
import Mathlib.Data.List.Perm.Subperm
import Mathlib.Logic.Relation
import Mirrorscope.Lib.Each

/-! # Forests

A forest over any type is given by the parent of each node, and indexed by the list of its
nodes, the children of each node and the roots. Nodes whose parents form a cycle hang from no
root. A depth-first visit of the roots lists the nodes that do hang from one, each of them
once and after its parent.
-/

namespace Forest

open Relation (ReflTransGen)

variable {α : Type}

/-! ## Levels -/

/-- The node hangs so many steps below a root. -/
inductive Level (parent : α → Option α) : Nat → α → Prop where
  | root {a : α} : parent a = none → Level parent 0 a
  | child {n : Nat} {a b : α} : parent b = some a → Level parent n a → Level parent (n + 1) b

/-- Following the parents from the node leads to a root. -/
def Rooted (parent : α → Option α) (a : α) : Prop := ∃ n, Level parent n a

/-- The first node is the second or one of its ancestors. -/
def Above (parent : α → Option α) : α → α → Prop := ReflTransGen fun a b => parent b = some a

variable {parent : α → Option α} {a b c : α} {n m : Nat}

theorem Level.unique (h : Level parent n a) (h' : Level parent m a) : n = m := by
  induction h generalizing m with
  | root hnone =>
    cases h' with
    | root => rfl
    | child hsome _ =>
      rw [hnone] at hsome
      cases hsome
  | child hsome _ ih =>
    cases h' with
    | root hnone =>
      rw [hnone] at hsome
      cases hsome
    | child hsome' h' =>
      rw [hsome] at hsome'
      rcases Option.some.inj hsome' with rfl
      rw [ih h']

/-- Below a node the levels are greater. -/
theorem Level.above (h : Level parent n a) (habove : Above parent a b) :
    b = a ∨ ∃ m, n < m ∧ Level parent m b := by
  induction habove with
  | refl => exact .inl rfl
  | tail _ hstep ih =>
    right
    rcases ih with rfl | ⟨m, hlt, hm⟩
    · exact ⟨n + 1, by omega, .child hstep h⟩
    · exact ⟨m + 1, by omega, .child hstep hm⟩

/-- Two ancestors of one node, at one level, are the same. -/
theorem Level.above_unique (h : Level parent n a) (h' : Level parent n b)
    (habove : Above parent a c) (habove' : Above parent b c) : a = b := by
  have hsame : ∀ {a b : α}, Level parent n a → Level parent n b → Above parent a b → a = b := by
    intro a b h h' habove
    rcases h.above habove with heq | ⟨m, hlt, hm⟩
    · exact heq.symm
    · have := h'.unique hm
      omega
  -- the ancestors of a node form a line
  have huniq : Relator.RightUnique (Function.swap fun a b : α => parent b = some a) := by
    intro x y z hy hz
    exact Option.some.inj (hy.symm.trans hz)
  have hline := Relation.ReflTransGen.total_of_right_unique huniq
    (Relation.reflTransGen_swap.mpr habove) (Relation.reflTransGen_swap.mpr habove')
  rcases hline with hab | hba
  · exact (hsame h' h (Relation.reflTransGen_swap.mp hab)).symm
  · exact hsame h h' (Relation.reflTransGen_swap.mp hba)

/-- No node is above its own parent. -/
theorem Level.not_above_parent (h : Level parent n a) (hparent : parent b = some a) :
    ¬ Above parent b a := by
  intro habove
  rcases (Level.child hparent h).above habove with rfl | ⟨m, hlt, hm⟩
  · have := h.unique (.child hparent h)
    omega
  · have := h.unique hm
    omega

/-! ## Indexes -/

/-- The nodes, with the children of each and the roots. -/
structure Index (parent : α → Option α) (nodes : List α) (children : α → List α)
    (roots : List α) : Prop where
  known : ∀ a b, parent b = some a → a ∈ nodes ∧ b ∈ nodes
  mem_children : ∀ a b, b ∈ children a ↔ parent b = some a
  nodup_children : ∀ a, (children a).Nodup
  mem_roots : ∀ a, a ∈ roots ↔ a ∈ nodes ∧ parent a = none
  nodup_roots : roots.Nodup

variable {nodes : List α} {children : α → List α} {roots : List α}

/-- A level is smaller than the number of nodes. -/
theorem Index.level_lt (h : Index parent nodes children roots) (ha : a ∈ nodes)
    (hlevel : Level parent n a) : n < nodes.length := by
  -- the ancestors are all different, since their levels are
  have hline : ∃ line : List α, line.length = n + 1 ∧ line.Nodup ∧ (∀ b ∈ line, b ∈ nodes) ∧
      ∀ b ∈ line, ∃ m, m ≤ n ∧ Level parent m b := by
    induction hlevel with
    | @root a hnone =>
      refine ⟨[a], rfl, List.nodup_singleton a, ?_, ?_⟩
      · intro b hb
        rcases List.mem_singleton.mp hb with rfl
        exact ha
      · intro b hb
        rcases List.mem_singleton.mp hb with rfl
        exact ⟨0, Nat.le_refl 0, .root hnone⟩
    | @child n a b hparent hlevel ih =>
      rcases ih (h.known a b hparent).1 with ⟨line, hlength, hnodup, hnodes, hlevels⟩
      refine ⟨b :: line, by rw [List.length_cons, hlength], ?_, ?_, ?_⟩
      · refine List.nodup_cons.mpr ⟨?_, hnodup⟩
        intro hmem
        rcases hlevels b hmem with ⟨m, hle, hm⟩
        have := hm.unique (.child hparent hlevel)
        omega
      · intro c hc
        rcases List.mem_cons.mp hc with rfl | hc
        · exact ha
        · exact hnodes c hc
      · intro c hc
        rcases List.mem_cons.mp hc with rfl | hc
        · exact ⟨n + 1, Nat.le_refl _, .child hparent hlevel⟩
        · rcases hlevels c hc with ⟨m, hle, hm⟩
          exact ⟨m, by omega, hm⟩
  rcases hline with ⟨line, hlength, hnodup, hnodes, -⟩
  have hle : line.length ≤ nodes.length := (hnodup.subperm hnodes).length_le
  omega

/-! ## Visits -/

/-- Visit the nodes one after the other. -/
def visitAll (visit : α → Option (List α)) : List α → Option (List α)
  | [] => some []
  | a :: as => do
    let first ← visit a
    let rest ← visitAll visit as
    pure (first ++ rest)

/-- A node and all below it, parents first, to a depth of `fuel`. -/
def visit (children : α → List α) : Nat → α → Option (List α)
  | 0, _ => none
  | fuel + 1, a => do
    let below ← visitAll (visit children fuel) (children a)
    pure (a :: below)

theorem visitAll_cons {visit : α → Option (List α)} {first rest : List α} {as : List α}
    (hfirst : visit a = some first) (hrest : visitAll visit as = some rest) :
    visitAll visit (a :: as) = some (first ++ rest) := by
  rw [visitAll, hfirst, hrest]
  rfl

theorem visit_succ {fuel : Nat} {below : List α}
    (h : visitAll (visit children fuel) (children a) = some below) :
    visit children (fuel + 1) a = some (a :: below) := by
  rw [visit, h]
  rfl

theorem visitAll_mono {visit visit' : α → Option (List α)}
    (hvisit : ∀ a out, visit a = some out → visit' a = some out) {as out : List α}
    (h : visitAll visit as = some out) : visitAll visit' as = some out := by
  induction as generalizing out with
  | nil => exact h
  | cons a as ih =>
    rw [visitAll] at h
    rcases Option.bind_eq_some_iff.mp h with ⟨first, hfirst, h⟩
    rcases Option.bind_eq_some_iff.mp h with ⟨rest, hrest, h⟩
    rw [← Option.some.inj h]
    exact visitAll_cons (hvisit a first hfirst) (ih hrest)

/-- A visit that has ended ends alike where it may go deeper. -/
theorem visit_mono {fuel fuel' : Nat} {out : List α} (h : visit children fuel a = some out)
    (hle : fuel ≤ fuel') : visit children fuel' a = some out := by
  induction fuel generalizing fuel' a out with
  | zero => cases h
  | succ fuel ih =>
    cases fuel' with
    | zero => omega
    | succ fuel' =>
      rw [visit] at h
      rcases Option.bind_eq_some_iff.mp h with ⟨below, hbelow, h⟩
      rw [← Option.some.inj h]
      refine visit_succ (visitAll_mono ?_ hbelow)
      intro b out hb
      exact ih hb (by omega)

/-- The list has all that hangs from the given nodes, each once and after its parent. -/
structure Listing (parent : α → Option α) (tops out : List α) : Prop where
  mem : ∀ b, b ∈ out ↔ ∃ a ∈ tops, Above parent a b
  nodup : out.Nodup
  first : out.Each fun before b => b ∈ tops ∨ ∃ p ∈ before, parent b = some p

namespace Listing

variable {tops tops' out out' : List α}

theorem nil : Listing parent [] [] := by
  refine ⟨?_, List.nodup_nil, List.each_nil⟩
  intro b
  simp

theorem append (h : Listing parent tops out) (h' : Listing parent tops' out')
    (hdisjoint : ∀ b ∈ out, b ∉ out') : Listing parent (tops ++ tops') (out ++ out') := by
  refine ⟨?_, ?_, ?_⟩
  · intro b
    rw [List.mem_append, h.mem, h'.mem]
    constructor
    · rintro (⟨a, ha, hab⟩ | ⟨a, ha, hab⟩)
      · exact ⟨a, List.mem_append_left _ ha, hab⟩
      · exact ⟨a, List.mem_append_right _ ha, hab⟩
    · rintro ⟨a, ha, hab⟩
      rcases List.mem_append.mp ha with ha | ha
      · exact .inl ⟨a, ha, hab⟩
      · exact .inr ⟨a, ha, hab⟩
  · refine List.nodup_append.mpr ⟨h.nodup, h'.nodup, ?_⟩
    intro a ha b hb heq
    exact hdisjoint a ha (heq ▸ hb)
  · rw [List.each_append]
    constructor
    · refine h.first.imp ?_
      rintro before b (hb | hp)
      · exact .inl (List.mem_append_left _ hb)
      · exact .inr hp
    · refine h'.first.imp ?_
      rintro before b (hb | ⟨p, hp, hparent⟩)
      · exact .inl (List.mem_append_right _ hb)
      · exact .inr ⟨p, List.mem_append_right _ hp, hparent⟩

/-- A node in front of all that hangs from its children. -/
theorem cons {below : List α} (h : Listing parent below out)
    (hbelow : ∀ b, b ∈ below ↔ parent b = some a) (hnew : a ∉ out) :
    Listing parent [a] (a :: out) := by
  refine ⟨?_, List.nodup_cons.mpr ⟨hnew, h.nodup⟩, ?_⟩
  · intro b
    rw [List.mem_cons, h.mem]
    constructor
    · rintro (rfl | ⟨c, hc, hcb⟩)
      · exact ⟨b, List.mem_singleton_self b, .refl⟩
      · exact ⟨a, List.mem_singleton_self a, .head ((hbelow c).mp hc) hcb⟩
    · rintro ⟨top, htop, hab⟩
      rcases List.mem_singleton.mp htop with rfl
      rcases Relation.ReflTransGen.cases_head hab with rfl | ⟨c, hc, hcb⟩
      · exact .inl rfl
      · exact .inr ⟨c, (hbelow c).mpr hc, hcb⟩
  · rw [List.each_cons]
    constructor
    · exact .inl (List.mem_singleton_self a)
    · refine h.first.imp ?_
      rintro before b (hb | ⟨p, hp, hparent⟩)
      · exact .inr ⟨a, List.mem_cons_self, (hbelow b).mp hb⟩
      · exact .inr ⟨p, List.mem_cons_of_mem a hp, hparent⟩

end Listing

/-- Visits of different nodes at one level list what hangs from them. -/
theorem visitAll_listing {visit : α → Option (List α)} {as : List α} (hnodup : as.Nodup)
    (hlevel : ∀ a ∈ as, Level parent n a)
    (hvisit : ∀ a ∈ as, ∃ out, visit a = some out ∧ Listing parent [a] out) :
    ∃ out, visitAll visit as = some out ∧ Listing parent as out := by
  induction as with
  | nil => exact ⟨[], rfl, .nil⟩
  | cons a as ih =>
    rcases List.nodup_cons.mp hnodup with ⟨hnew, hnodup⟩
    rcases hvisit a List.mem_cons_self with ⟨first, hfirst, hlisting⟩
    rcases ih hnodup (fun b hb => hlevel b (List.mem_cons_of_mem a hb))
      (fun b hb => hvisit b (List.mem_cons_of_mem a hb)) with ⟨rest, hrest, hlisting'⟩
    refine ⟨first ++ rest, visitAll_cons hfirst hrest, hlisting.append hlisting' ?_⟩
    -- what hangs from `a` hangs from no other node of its level
    intro b hb hb'
    rcases (hlisting.mem b).mp hb with ⟨top, htop, hab⟩
    rcases List.mem_singleton.mp htop with rfl
    rcases (hlisting'.mem b).mp hb' with ⟨c, hc, hcb⟩
    have heq := (hlevel top List.mem_cons_self).above_unique
      (hlevel c (List.mem_cons_of_mem top hc)) hab hcb
    exact hnew (heq ▸ hc)

/-- A visit that may go as deep as there are nodes lists what hangs from the node. -/
theorem Index.visit_listing (h : Index parent nodes children roots) {fuel : Nat}
    (hlevel : Level parent n a) (ha : a ∈ nodes) (hfuel : nodes.length ≤ fuel + n) :
    ∃ out, visit children fuel a = some out ∧ Listing parent [a] out := by
  induction fuel generalizing n a with
  | zero =>
    have := h.level_lt ha hlevel
    omega
  | succ fuel ih =>
    have hchild : ∀ b ∈ children a, Level parent (n + 1) b :=
      fun b hb => .child ((h.mem_children a b).mp hb) hlevel
    have hbelow := visitAll_listing (h.nodup_children a) hchild fun b hb =>
      ih (hchild b hb) (h.known a b ((h.mem_children a b).mp hb)).2 (by omega)
    rcases hbelow with ⟨below, hvisit, hlisting⟩
    refine ⟨a :: below, visit_succ hvisit, hlisting.cons (h.mem_children a) ?_⟩
    intro hmem
    rcases (hlisting.mem a).mp hmem with ⟨b, hb, hba⟩
    exact hlevel.not_above_parent ((h.mem_children a b).mp hb) hba

/-- Visiting the roots lists all that hangs from them, and goes no deeper than there are
nodes. -/
theorem Index.visitAll_roots (h : Index parent nodes children roots) :
    ∃ out, (∀ fuel, nodes.length ≤ fuel → visitAll (visit children fuel) roots = some out) ∧
      Listing parent roots out := by
  have hroot : ∀ a ∈ roots, Level parent 0 a := fun a ha => .root ((h.mem_roots a).mp ha).2
  have hvisit : ∀ a ∈ roots, ∃ out, visit children nodes.length a = some out ∧
      Listing parent [a] out :=
    fun a ha => h.visit_listing (hroot a ha) ((h.mem_roots a).mp ha).1 (by omega)
  rcases visitAll_listing h.nodup_roots hroot hvisit with ⟨out, hout, hlisting⟩
  refine ⟨out, ?_, hlisting⟩
  intro fuel hle
  exact visitAll_mono (fun a out ha => visit_mono ha hle) hout

/-- A node hangs from a root exactly when its parents lead to one. -/
theorem Index.above_root_iff (h : Index parent nodes children roots) (hb : b ∈ nodes) :
    (∃ a ∈ roots, Above parent a b) ↔ Rooted parent b := by
  constructor
  · rintro ⟨a, ha, hab⟩
    have hlevel : Level parent 0 a := .root ((h.mem_roots a).mp ha).2
    rcases hlevel.above hab with rfl | ⟨m, -, hm⟩
    · exact ⟨0, hlevel⟩
    · exact ⟨m, hm⟩
  · rintro ⟨n, hlevel⟩
    induction hlevel with
    | root hnone => exact ⟨_, (h.mem_roots _).mpr ⟨hb, hnone⟩, .refl⟩
    | @child n a b hparent _ ih =>
      rcases ih (h.known a b hparent).1 with ⟨top, htop, habove⟩
      exact ⟨top, htop, habove.tail hparent⟩

/-! ## Lists in preorder -/

section Preorder

variable {β : Type} {key : β → α} {up : β → Option α} {p : Option α} {as bs : List β}

/-- The list goes through a forest depth first; `p` is above its first level. -/
inductive Preorder (key : β → α) (up : β → Option α) : Option α → List β → Prop where
  | nil {p : Option α} : Preorder key up p []
  | cons {p : Option α} {b : β} {below rest : List β} : up b = p →
      Preorder key up (some (key b)) below → Preorder key up p rest →
      Preorder key up p (b :: (below ++ rest))

theorem Preorder.append (h : Preorder key up p as) (h' : Preorder key up p bs) :
    Preorder key up p (as ++ bs) := by
  induction h with
  | nil => exact h'
  | cons hup below _ _ ih =>
    rw [List.cons_append, List.append_assoc]
    exact .cons hup below (ih h')

/-- Parents stand before their children, or above all. -/
theorem Preorder.parentsFirst (h : Preorder key up p as) :
    as.Each fun before b => up b = p ∨ ∃ a ∈ before, up b = some (key a) := by
  induction h with
  | nil => exact List.each_nil
  | @cons p b below rest hup _ _ ihbelow ihrest =>
    rw [List.each_cons, List.each_append]
    refine ⟨.inl hup, ihbelow.imp ?_, ihrest.imp ?_⟩
    · rintro before c (hc | ⟨a, ha, hc⟩)
      · exact .inr ⟨b, List.mem_cons_self, hc⟩
      · exact .inr ⟨a, List.mem_cons_of_mem b ha, hc⟩
    · rintro before c (hc | ⟨a, ha, hc⟩)
      · exact .inl hc
      · exact .inr ⟨a, List.mem_cons_of_mem b (List.mem_append_right below ha), hc⟩

/-- Every parent is in the list, or above all. -/
theorem Preorder.parent_mem (h : Preorder key up p as) {b : β} (hb : b ∈ as) :
    up b = p ∨ ∃ a ∈ as, up b = some (key a) := by
  rcases List.mem_iff_append.mp hb with ⟨before, after, rfl⟩
  rcases h.parentsFirst before b after rfl with hup | ⟨a, ha, hup⟩
  · exact .inl hup
  · exact .inr ⟨a, List.mem_append_left _ ha, hup⟩

variable [DecidableEq α]

/-- No node of the list has a parent outside of it, but for the first level. -/
theorem Preorder.filter_eq_nil (h : Preorder key up p as) {q : Option α} (hq : q ≠ p)
    (hmem : ∀ a ∈ as, q ≠ some (key a)) : as.filter (fun b => up b = q) = [] := by
  rw [List.filter_eq_nil_iff]
  intro b hb
  rw [decide_eq_true_eq]
  intro hup
  rcases h.parent_mem hb with hp | ⟨a, ha, hp⟩
  · exact hq (hup.symm.trans hp)
  · exact hmem a ha (hup.symm.trans hp)

/-- A visit of a forest whose children come as they stand in the list goes through the list. -/
theorem Preorder.visitAll_eq (h : Preorder key up p as) (hnodup : (as.map key).Nodup)
    (hp : ∀ a ∈ as, p ≠ some (key a)) {fuel : Nat} (hfuel : as.length ≤ fuel)
    (hchildren : ∀ a ∈ as, children (key a) =
      (as.filter fun b => up b = some (key a)).map key) :
    visitAll (visit children fuel) ((as.filter fun b => up b = p).map key) =
      some (as.map key) := by
  induction h generalizing fuel with
  | nil => rfl
  | @cons p b below rest hup hbelow hrest ihbelow ihrest =>
    rw [List.map_cons, List.map_append, List.nodup_cons, List.nodup_append] at hnodup
    rcases hnodup with ⟨hnew, hnodup, hnodup', hdisjoint⟩
    have hb : p ≠ some (key b) := hp b List.mem_cons_self
    have hpbelow : ∀ a ∈ below, p ≠ some (key a) :=
      fun a ha => hp a (List.mem_cons_of_mem b (List.mem_append_left rest ha))
    have hprest : ∀ a ∈ rest, p ≠ some (key a) :=
      fun a ha => hp a (List.mem_cons_of_mem b (List.mem_append_right below ha))
    have hbbelow : ∀ a ∈ below, some (key b) ≠ some (key a) := by
      intro a ha heq
      refine hnew (List.mem_append_left _ ?_)
      rw [Option.some.inj heq]
      exact List.mem_map_of_mem ha
    have hbrest : ∀ a ∈ rest, some (key b) ≠ some (key a) := by
      intro a ha heq
      refine hnew (List.mem_append_right _ ?_)
      rw [Option.some.inj heq]
      exact List.mem_map_of_mem ha
    have hapart : ∀ a ∈ below, ∀ c ∈ rest, some (key a) ≠ some (key c) := fun a ha c hc heq =>
      hdisjoint (key a) (List.mem_map_of_mem ha) (key c) (List.mem_map_of_mem hc)
        (Option.some.inj heq)
    -- the first level of `below` are the children of `b`, and the rest is beside `b`
    have hfirst : children (key b) = (below.filter fun c => up c = some (key b)).map key := by
      rw [hchildren b List.mem_cons_self, List.filter_cons_of_neg (by simpa [hup] using hb),
        List.filter_append, hrest.filter_eq_nil hb.symm hbrest, List.append_nil]
    have hbelow' : ∀ a ∈ below, children (key a) =
        (below.filter fun c => up c = some (key a)).map key := by
      intro a ha
      rw [hchildren a (List.mem_cons_of_mem b (List.mem_append_left rest ha)),
        List.filter_cons_of_neg (by simpa [hup] using hpbelow a ha), List.filter_append,
        hrest.filter_eq_nil (hpbelow a ha).symm (hapart a ha), List.append_nil]
    have hrest' : ∀ a ∈ rest, children (key a) =
        (rest.filter fun c => up c = some (key a)).map key := by
      intro a ha
      rw [hchildren a (List.mem_cons_of_mem b (List.mem_append_right below ha)),
        List.filter_cons_of_neg (by simpa [hup] using hprest a ha), List.filter_append,
        hbelow.filter_eq_nil (hbrest a ha).symm fun c hc => (hapart c hc a ha).symm,
        List.nil_append]
    rw [List.length_cons, List.length_append] at hfuel
    cases fuel with
    | zero => omega
    | succ fuel =>
      have hvisit : visit children (fuel + 1) (key b) = some (key b :: below.map key) := by
        refine visit_succ ?_
        rw [hfirst]
        exact ihbelow hnodup hbbelow (by omega) hbelow'
      rw [List.filter_cons_of_pos (by simpa using hup), List.filter_append,
        hbelow.filter_eq_nil hb hpbelow, List.nil_append, List.map_cons]
      have hall := visitAll_cons hvisit (ihrest hnodup' hprest (by omega) hrest')
      rw [hall, List.map_cons, List.map_append]
      rfl

end Preorder

end Forest
