import Mirrorscope.Decoder.Branches
import Mirrorscope.Decoder.Extract

/-! # What is extracted from a binary

The walk over a unit gives every struct and enum the scopes it stands in, and finds the
coroutines among them; the table holds the layouts that can be built for these, whatever the
order in which they are looked at.

The steps of `extract` are taken one after the other:
* `Scoped`, `scopedEntries`: the entries of a unit under the scopes they stand in; the walk
  collects them in this order.
* `Indexes`: what the index of a unit says, and `indexes_walkNames`: the walk builds it.
* `Gains`: the table after a set of layouts was put in, by name.
* `collectUnit_eq_ok`, `visitUnit_eq_ok`: one unit. `foldlM_visitUnit`: all of them.
* `extract_eq_ok_iff`: the whole, from the file to the table.
-/

namespace Mirrorscope.Decoder.AsyncRust

/-! ## Scopes -/

/-- The scopes below an entry. -/
def opened (outer : List String) (entry : Entry) : List String :=
  match entry.name with
  | none => outer
  | some name => if entry.tag = .namespaceTag || entry.isType then outer ++ [name] else outer

/-- The entry stands in a tree, in the scopes `inner`; the tree itself stands in `outer`. -/
inductive Scoped : List String → Die → List String → Entry → Prop where
  | here {outer : List String} {entry : Entry} {children : List Die} :
      Scoped outer (.mk entry children) outer entry
  | inside {outer inner : List String} {entry e : Entry} {child : Die} {children : List Die}
      (hchild : child ∈ children) (h : Scoped (opened outer entry) child inner e) :
      Scoped outer (.mk entry children) inner e

mutual

/-- The entries of a tree, each with its scopes, in the order of the walk. -/
def scopedEntries : List String → Die → List (List String × Entry)
  | outer, .mk entry children => (outer, entry) :: scopedAll (opened outer entry) children

def scopedAll : List String → List Die → List (List String × Entry)
  | _, [] => []
  | outer, child :: children => scopedEntries outer child ++ scopedAll outer children

end

mutual

/-- The list of the entries is that of the relation, by induction on the tree. -/
theorem mem_scopedEntries (outer inner : List String) (e : Entry) :
    ∀ die : Die, (inner, e) ∈ scopedEntries outer die ↔ Scoped outer die inner e
  | .mk entry children => by
    rw [scopedEntries, List.mem_cons, mem_scopedAll]
    constructor
    · rintro (heq | ⟨child, hchild, h⟩)
      · obtain ⟨rfl, rfl⟩ := Prod.mk.inj heq
        exact .here
      · exact .inside hchild h
    · intro h
      cases h with
      | here => exact .inl rfl
      | inside hchild h => exact .inr ⟨_, hchild, h⟩

/-- And so it is for the children of an entry. -/
theorem mem_scopedAll (outer inner : List String) (e : Entry) :
    ∀ dies : List Die, (inner, e) ∈ scopedAll outer dies ↔
      ∃ child ∈ dies, Scoped outer child inner e
  | [] => by simp [scopedAll]
  | child :: children => by
    rw [scopedAll, List.mem_append, mem_scopedEntries outer inner e child,
      mem_scopedAll outer inner e children]
    simp

end

/-- What is taken down of an entry: the qualified name of a type. -/
def typeName (at_ : List String × Entry) : Option (Nat × String) :=
  if at_.2.isType then at_.2.name.map fun name => (at_.2.offset, qualify at_.1 name) else none

/-- The offset of a coroutine. -/
def coroutineOffset (at_ : List String × Entry) : Option Nat :=
  if at_.2.isType then
    at_.2.name.bind fun name => if isCoroutineName name then some at_.2.offset else none
  else none

/-- The walk after it has seen entries, in its own scopes. -/
def Walk.taken (walk : Walk) (seen : List (List String × Entry)) : Walk where
  path := walk.path
  names := (seen.filterMap typeName).foldl (fun names p => names.insert p.1 p.2) walk.names
  coroutines :=
    (seen.filterMap coroutineOffset).foldl (fun set offset => set.insert offset ()) walk.coroutines

theorem Walk.taken_append (walk : Walk) (seen more : List (List String × Entry)) :
    walk.taken (seen ++ more) = (walk.taken seen).taken more := by
  simp only [Walk.taken, List.filterMap_append, List.foldl_append]

/-- The scope of an entry is left the way it was entered. -/
theorem dropLast_opened {outer : List String} {entry : Entry} (h : opened outer entry ≠ outer) :
    (opened outer entry).dropLast = outer := by
  unfold opened at h ⊢
  split at h
  · exact absurd rfl h
  · split at h
    · simp [*]
    · exact absurd rfl h

/-- An entry is taken down, and its scope is entered. -/
theorem Walk.enter_eq (walk : Walk) (entry : Entry) :
    (walk.enter entry).1 = { walk.taken [(walk.path, entry)] with path := opened walk.path entry } ∧
      (walk.enter entry).2 = (opened walk.path entry != walk.path) := by
  have hpush (name : String) : (walk.path ++ [name] != walk.path) = true := by
    rw [bne_iff_ne]
    intro h
    have hlen := congrArg List.length h
    simp at hlen
  unfold Walk.enter opened
  cases hname : entry.name with
  | none => simp [Walk.taken, typeName, coroutineOffset, hname]
  | some name =>
    -- A namespace opens a scope and is no type; a type opens one and is noted; anything else does
    -- neither.
    by_cases hnamespace : entry.tag = .namespaceTag
    · have htype : entry.isType = false := by
        simp [Entry.isType, hnamespace, Tag.namespaceTag, Tag.structureType, Tag.enumerationType]
      simp [Walk.taken, typeName, coroutineOffset, hnamespace, htype, Walk.push, hpush]
    · cases htype : entry.isType with
      | true =>
        simp only [hnamespace, if_false, if_true, Walk.push, Walk.note, Walk.taken, typeName,
          coroutineOffset, htype, hname, List.filterMap_cons, List.filterMap_nil, Option.map_some,
          Option.bind_some, List.foldl_cons, List.foldl_nil, decide_false, Bool.false_or, hpush,
          and_true]
        cases isCoroutineName name with
        | true => simp
        | false => simp
      | false => simp [Walk.taken, typeName, coroutineOffset, hnamespace, htype]

mutual

/-- The walk over a tree takes down its entries, and is back in its scopes. -/
theorem walkNames_eq : ∀ (die : Die) (walk : Walk),
    walkNames die walk = walk.taken (scopedEntries walk.path die)
  | .mk entry children, walk => by
    obtain ⟨henter, hpushed⟩ := walk.enter_eq entry
    have hbelow : walkAll children (walk.enter entry).1 =
        { walk.taken (scopedEntries walk.path (.mk entry children)) with
          path := opened walk.path entry } := by
      have htaken := walk.taken_append [(walk.path, entry)]
        (scopedAll (opened walk.path entry) children)
      rw [walkAll_eq children, henter, scopedEntries]
      exact congrArg (fun w : Walk => { w with path := opened walk.path entry }) htaken.symm
    show (if (walk.enter entry).2 then (walkAll children (walk.enter entry).1).pop
      else walkAll children (walk.enter entry).1) = _
    rw [hbelow, hpushed]
    by_cases hopened : opened walk.path entry = walk.path
    · simp only [hopened, bne_self_eq_false, Bool.false_eq_true, if_false]
      rfl
    · rw [if_pos (bne_iff_ne.mpr hopened), Walk.pop]
      simp only [dropLast_opened hopened]
      rfl

/-- The children are walked with the path their parent left. -/
theorem walkAll_eq : ∀ (dies : List Die) (walk : Walk),
    walkAll dies walk = walk.taken (scopedAll walk.path dies)
  | [], walk => rfl
  | child :: children, walk => by
    rw [walkAll, scopedAll, Walk.taken_append, walkNames_eq child walk]
    exact walkAll_eq children _

end

/-! ## The index -/

/-- A struct or an enum stands at the offset; `name` is its own name with its scopes. -/
def TypeAt (root : Die) (offset : Nat) (localName name : String) : Prop :=
  ∃ scopes e, Scoped [] root scopes e ∧ e.isType = true ∧ e.offset = offset ∧
    e.name = some localName ∧ name = qualify scopes localName

/-- The entries of a unit stand at different offsets. -/
def DistinctOffsets (root : Die) : Prop :=
  (scopedEntries [] root).Pairwise fun a b => a.2.offset ≠ b.2.offset

/-- The index has the names of all types, and no others, and knows the coroutines by them. -/
structure Indexes (index : UnitIndex) (root : Die) : Prop where
  names : ∀ offset name, index.names offset = some name ↔
    ∃ localName, TypeAt root offset localName name
  coroutines : ∀ offset, index.coroutines offset = true ↔
    ∃ localName name, TypeAt root offset localName name ∧ isCoroutineName localName = true

/-- An index is determined by what it says. -/
theorem Indexes.unique {index index' : UnitIndex} {root : Die} (h : Indexes index root)
    (h' : Indexes index' root) : index = index' := by
  obtain ⟨names, coroutines⟩ := index
  obtain ⟨names', coroutines'⟩ := index'
  have hnames : names = names' := by
    funext offset
    refine Option.ext fun name => ?_
    exact (h.names offset name).trans (h'.names offset name).symm
  have hcoroutines : coroutines = coroutines' := by
    funext offset
    rw [Bool.eq_iff_iff]
    exact (h.coroutines offset).trans (h'.coroutines offset).symm
  rw [hnames, hcoroutines]

/-- The names in the index are those of the types of the unit. -/
theorem mem_typeNames {root : Die} {offset : Nat} {name : String} :
    (offset, name) ∈ (scopedEntries [] root).filterMap typeName ↔
      ∃ localName, TypeAt root offset localName name := by
  rw [List.mem_filterMap]
  constructor
  · rintro ⟨⟨scopes, e⟩, hmem, hname⟩
    unfold typeName at hname
    split at hname
    · rename_i htype
      obtain ⟨localName, hlocal, heq⟩ := Option.map_eq_some_iff.mp hname
      obtain ⟨hoffset, hqualified⟩ := Prod.mk.inj heq
      exact ⟨localName, scopes, e, (mem_scopedEntries [] scopes e root).mp hmem, htype, hoffset,
        hlocal, hqualified.symm⟩
    · cases hname
  · rintro ⟨localName, scopes, e, hscoped, htype, rfl, hlocal, rfl⟩
    refine ⟨(scopes, e), (mem_scopedEntries [] scopes e root).mpr hscoped, ?_⟩
    simp [typeName, htype, hlocal]

/-- The coroutines in the index are the types of a coroutine's name. -/
theorem mem_coroutineOffsets {root : Die} {offset : Nat} :
    offset ∈ (scopedEntries [] root).filterMap coroutineOffset ↔
      ∃ localName name, TypeAt root offset localName name ∧ isCoroutineName localName = true := by
  rw [List.mem_filterMap]
  constructor
  · rintro ⟨⟨scopes, e⟩, hmem, hoffset⟩
    unfold coroutineOffset at hoffset
    split at hoffset
    · rename_i htype
      obtain ⟨localName, hlocal, hsome⟩ := Option.bind_eq_some_iff.mp hoffset
      split at hsome
      · rename_i hcoroutine
        exact ⟨localName, qualify scopes localName, ⟨scopes, e,
          (mem_scopedEntries [] scopes e root).mp hmem, htype, Option.some.inj hsome, hlocal,
          rfl⟩, hcoroutine⟩
      · cases hsome
    · cases hoffset
  · rintro ⟨localName, name, ⟨scopes, e, hscoped, htype, rfl, hlocal, rfl⟩, hcoroutine⟩
    refine ⟨(scopes, e), (mem_scopedEntries [] scopes e root).mpr hscoped, ?_⟩
    simp [coroutineOffset, htype, hlocal, hcoroutine]

/-- Pairs with different keys, entered into a map. -/
theorem get_foldl_pairs {β : Type} {pairs : List (Nat × β)}
    (hpairs : pairs.Pairwise fun a b => a.1 ≠ b.1) (m : KeyMap Nat β) (k : Nat) (v : β) :
    (pairs.foldl (fun m p => m.insert p.1 p.2) m)[k]? = some v ↔
      (k, v) ∈ pairs ∨ (∀ p ∈ pairs, p.1 ≠ k) ∧ m[k]? = some v := by
  induction hpairs generalizing m with
  | nil => simp
  | @cons first rest hfirst _ ih =>
    rw [List.foldl_cons, ih, KeyMap.get_insert, List.mem_cons, List.forall_mem_cons]
    by_cases hkey : first.1 = k
    · have hnone : (k, v) ∉ rest := fun hmem => hfirst _ hmem hkey
      have hall : ∀ p ∈ rest, p.1 ≠ k := fun p hp heq => hfirst p hp (hkey.trans heq.symm)
      have hhead : first.2 = v ↔ (k, v) = first := by
        rw [← hkey]
        exact ⟨fun h => h ▸ rfl, fun h => h ▸ rfl⟩
      rw [if_pos hkey, Option.some.injEq, hhead]
      constructor
      · rintro (h | ⟨_, h⟩)
        · exact absurd h hnone
        · exact .inl (.inl h)
      · rintro ((h | h) | ⟨⟨hne, _⟩, _⟩)
        · exact .inr ⟨hall, h⟩
        · exact absurd h hnone
        · exact absurd hkey hne
    · have hhead : (k, v) ≠ first := fun h => hkey (h ▸ rfl)
      simp [hkey, hhead]

theorem isSome_foldl_set {offsets : List Nat} (set : KeyMap Nat Unit) (k : Nat) :
    (offsets.foldl (fun set offset => set.insert offset ()) set)[k]?.isSome = true ↔
      k ∈ offsets ∨ set[k]?.isSome = true := by
  induction offsets generalizing set with
  | nil => simp
  | cons offset offsets ih =>
    rw [List.foldl_cons, ih, KeyMap.get_insert, List.mem_cons]
    by_cases hkey : offset = k
    · simp [hkey]
    · simp [hkey, Ne.symm hkey]

/-- The walk over a unit finds its index. -/
theorem indexes_walkNames {root : Die} (h : DistinctOffsets root) :
    Indexes (walkNames root .start).index root := by
  rw [walkNames_eq]
  refine ⟨fun offset name => ?_, fun offset => ?_⟩
  · -- No two entries have one offset, so no name overwrites another.
    have hpairs : ((scopedEntries [] root).filterMap typeName).Pairwise
        fun a b => a.1 ≠ b.1 := by
      rw [List.pairwise_filterMap]
      refine h.imp fun {a b} hne p hp q hq => ?_
      have hoffset : ∀ (x : List String × Entry) (r : Nat × String), typeName x = some r →
          r.1 = x.2.offset := by
        intro x r hx
        unfold typeName at hx
        split at hx
        · obtain ⟨_, _, rfl⟩ := Option.map_eq_some_iff.mp hx
          rfl
        · cases hx
      rw [hoffset a p hp, hoffset b q hq]
      exact hne
    show (((scopedEntries [] root).filterMap typeName).foldl _ _)[offset]? = some name ↔ _
    rw [get_foldl_pairs hpairs, mem_typeNames]
    simp [Walk.start]
  · show (((scopedEntries [] root).filterMap coroutineOffset).foldl _ _)[offset]?.isSome = true ↔ _
    rw [isSome_foldl_set, mem_coroutineOffsets]
    simp [Walk.start]

/-! ## The coroutines of a unit -/

/-- The layout can be built for a coroutine of the unit. -/
def Built (unit : CompileUnit) (layout : AsyncFnLayout) : Prop :=
  ∃ root index localName offset, unit.root = .ok root ∧ Indexes index root ∧
    TypeAt root offset localName layout.typeName ∧ isCoroutineName localName = true ∧
    buildLayout unit.toDwarfUnit index offset = .ok (some layout)

/-- The tree of the unit, and the entries of its coroutines, can be read. -/
def ReadsWhole (unit : CompileUnit) : Prop :=
  ∃ root index, unit.root = .ok root ∧ Indexes index root ∧
    ∀ offset, index.coroutines offset = true →
      ∃ found, buildLayout unit.toDwarfUnit index offset = .ok found

/-- Entries stand at different offsets, and one name in the unit has one layout. -/
structure WellFormed (unit : CompileUnit) : Prop where
  distinct : ∀ root, unit.root = .ok root → DistinctOffsets root
  agree : ∀ layout other, Built unit layout → Built unit other →
    layout.typeName = other.typeName → layout = other

/-- The elements of a set are looked at in some order. -/
def SetOrder.Lawful (order : SetOrder) : Prop := ∀ set, (order set).Perm set.keys

theorem SetOrder.Lawful.mem_iff {order : SetOrder} (h : order.Lawful) {set : KeyMap Nat Unit}
    {offset : Nat} : offset ∈ order set ↔ set[offset]?.isSome = true := by
  rw [(h set).mem_iff, KeyMap.mem_keys_iff]

theorem names_of_buildLayout {unit : DwarfUnit} {index : UnitIndex} {offset : Nat}
    {layout : AsyncFnLayout} (h : buildLayout unit index offset = .ok (some layout)) :
    index.names offset = some layout.typeName := by
  -- The layout is given the name that the index has at its offset.
  unfold buildLayout at h
  cases hname : index.names offset with
  | none => simp [hname, pure, Except.pure] at h
  | some name =>
    simp only [hname, bind, Except.bind] at h
    split at h
    · cases h
    · rename_i root _
      split at h
      · cases h
      · rename_i part _
        unfold buildFromVariantPart at h
        split at h
        · cases h
        · simp only [bind, Except.bind] at h
          split at h
          · cases h
          · split at h
            · cases h
            · rcases Option.some.inj (Except.ok.inj h) with rfl
              rfl

/-- Which coroutines of an index have a layout. -/
theorem built_iff {unit : CompileUnit} {root : Die} {index : UnitIndex}
    (hroot : unit.root = .ok root) (hindex : Indexes index root) {layout : AsyncFnLayout} :
    Built unit layout ↔ ∃ offset, index.coroutines offset = true ∧
      buildLayout unit.toDwarfUnit index offset = .ok (some layout) := by
  constructor
  · rintro ⟨root', index', localName, offset, hroot', hindex', hat, hcoroutine, hbuild⟩
    rcases Except.ok.inj (hroot.symm.trans hroot') with rfl
    rcases hindex.unique hindex' with rfl
    exact ⟨offset, (hindex.coroutines offset).mpr ⟨localName, _, hat, hcoroutine⟩, hbuild⟩
  · rintro ⟨offset, hcoroutine, hbuild⟩
    obtain ⟨localName, name, hat, hlocal⟩ := (hindex.coroutines offset).mp hcoroutine
    have hname := (hindex.names offset name).mpr ⟨localName, hat⟩
    rw [names_of_buildLayout hbuild, Option.some.injEq] at hname
    exact ⟨root, index, localName, offset, hroot, hindex, hname ▸ hat, hlocal, hbuild⟩

theorem get_insert (layouts : AsyncLayouts) (layout : AsyncFnLayout) (name : String) :
    (layouts.insert layout).get name =
      if layout.typeName = name then some layout else layouts.get name :=
  KeyMap.get_insert layouts.byName layout.typeName layout name

/-- A table is what it answers. -/
theorem AsyncLayouts.ext_get {layouts layouts' : AsyncLayouts}
    (h : ∀ name, layouts.get name = layouts'.get name) : layouts = layouts' := by
  obtain ⟨byName, keyed⟩ := layouts
  obtain ⟨byName', keyed'⟩ := layouts'
  have hmap : byName = byName' := Std.ExtTreeMap.ext_getElem? fun {name} => h name
  subst hmap
  rfl

/-- The table holds what was found, and under other names what it held before. -/
def Gains (found : AsyncFnLayout → Prop) (layouts layouts' : AsyncLayouts) : Prop :=
  ∀ name layout, layouts'.get name = some layout ↔ (layout.typeName = name ∧ found layout) ∨
    (∀ other, found other → other.typeName ≠ name) ∧ layouts.get name = some layout

/-- No two layouts of one name are found. -/
def OnePerName (found : AsyncFnLayout → Prop) : Prop :=
  ∀ layout other, found layout → found other → layout.typeName = other.typeName → layout = other

/-- Nothing is put in, and the table stays. -/
theorem gains_nothing {layouts layouts' : AsyncLayouts} :
    Gains (fun _ => False) layouts layouts' ↔ layouts' = layouts := by
  constructor
  · intro h
    refine AsyncLayouts.ext_get fun name => Option.ext fun layout => ?_
    rw [h name layout]
    simp
  · rintro rfl name layout
    simp

/-- One layout is put into the table before the rest. -/
theorem gains_insert {found : AsyncFnLayout → Prop} {first : AsyncFnLayout}
    (hone : ∀ layout, found layout → layout.typeName = first.typeName → layout = first)
    {layouts layouts' : AsyncLayouts} :
    Gains found (layouts.insert first) layouts' ↔
      Gains (fun layout => layout = first ∨ found layout) layouts layouts' := by
  refine forall_congr' fun name => forall_congr' fun layout => ?_
  have hsame : (layout.typeName = name ∧ found layout ∨
        (∀ other, found other → other.typeName ≠ name) ∧
          (layouts.insert first).get name = some layout) ↔
      (layout.typeName = name ∧ (layout = first ∨ found layout) ∨
        (∀ other, other = first ∨ found other → other.typeName ≠ name) ∧
          layouts.get name = some layout) := by
    rw [get_insert]
    by_cases hname : first.typeName = name
    · -- the rest finds nothing else under this name
      rw [if_pos hname, Option.some.injEq]
      constructor
      · rintro (⟨hlayout, hfound⟩ | ⟨-, rfl⟩)
        · exact .inl ⟨hlayout, .inr hfound⟩
        · exact .inl ⟨hname, .inl rfl⟩
      · rintro (⟨hlayout, rfl | hfound⟩ | ⟨hnone, -⟩)
        · by_cases hagain : found layout
          · exact .inl ⟨hlayout, hagain⟩
          · refine .inr ⟨fun other hother heq => ?_, rfl⟩
            rcases hone other hother (heq.trans hname.symm) with rfl
            exact hagain hother
        · exact .inl ⟨hlayout, hfound⟩
        · exact absurd hname (hnone first (.inl rfl))
    · rw [if_neg hname]
      constructor
      · rintro (⟨hlayout, hfound⟩ | ⟨hnone, hget⟩)
        · exact .inl ⟨hlayout, .inr hfound⟩
        · refine .inr ⟨?_, hget⟩
          rintro other (rfl | hother)
          · exact hname
          · exact hnone other hother
      · rintro (⟨hlayout, rfl | hfound⟩ | ⟨hnone, hget⟩)
        · exact absurd hlayout hname
        · exact .inl ⟨hlayout, hfound⟩
        · exact .inr ⟨fun other hother => hnone other (.inr hother), hget⟩
  rw [hsame]

theorem gains_congr {found found' : AsyncFnLayout → Prop}
    (h : ∀ layout, found layout ↔ found' layout)
    {layouts layouts' : AsyncLayouts} :
    Gains found layouts layouts' ↔ Gains found' layouts layouts' := by
  rw [funext fun layout => propext (h layout)]

/-- What is built at an offset is put in the table. -/
theorem collectOne_eq {unit : CompileUnit} {index : UnitIndex} {layouts : AsyncLayouts}
    {offset : Nat} {found : Option AsyncFnLayout}
    (h : buildLayout unit.toDwarfUnit index offset = .ok found) :
    collectOne unit index layouts offset = .ok (found.elim layouts layouts.insert) := by
  unfold collectOne
  rw [h]
  cases found with
  | none => rfl
  | some layout => rfl

/-- The coroutines at these offsets that have a layout. -/
def BuiltFrom (unit : CompileUnit) (index : UnitIndex) (offsets : List Nat)
    (layout : AsyncFnLayout) : Prop :=
  ∃ offset ∈ offsets, buildLayout unit.toDwarfUnit index offset = .ok (some layout)

/-- All of the offsets can be read, and what they hold is put into the table. -/
theorem foldlM_collectOne {unit : CompileUnit} {index : UnitIndex} {offsets : List Nat}
    (hone : OnePerName (BuiltFrom unit index offsets)) (layouts layouts' : AsyncLayouts) :
    offsets.foldlM (collectOne unit index) layouts = .ok layouts' ↔
      (∀ offset ∈ offsets, ∃ found, buildLayout unit.toDwarfUnit index offset = .ok found) ∧
        Gains (BuiltFrom unit index offsets) layouts layouts' := by
  induction offsets generalizing layouts with
  | nil =>
    have hnone : ∀ layout, BuiltFrom unit index [] layout ↔ False := by simp [BuiltFrom]
    rw [List.foldlM_nil, gains_congr hnone, gains_nothing]
    simp [pure, Except.pure, eq_comm]
  | cons offset offsets ih =>
    have hrest : OnePerName (BuiltFrom unit index offsets) :=
      fun layout other ⟨o, ho, hlayout⟩ ⟨p, hp, hother⟩ =>
        hone layout other ⟨o, List.mem_cons_of_mem offset ho, hlayout⟩
          ⟨p, List.mem_cons_of_mem offset hp, hother⟩
    rw [List.foldlM_cons, List.forall_mem_cons]
    cases hbuild : buildLayout unit.toDwarfUnit index offset with
    | error e => simp [collectOne, hbuild, bind, Except.bind]
    | ok found =>
      rw [collectOne_eq hbuild]
      show offsets.foldlM (collectOne unit index) (found.elim layouts layouts.insert) =
        .ok layouts' ↔ _
      have hread : ∃ other, Except.ok (ε := AsyncDecodeError) found = .ok other := ⟨found, rfl⟩
      rw [ih hrest, and_assoc, and_iff_right hread]
      refine and_congr_right fun _ => ?_
      cases found with
      | none =>
        refine gains_congr fun layout => ?_
        simp [BuiltFrom, hbuild]
      | some first =>
        have hfirst : ∀ layout, BuiltFrom unit index offsets layout →
            layout.typeName = first.typeName → layout = first :=
          fun layout ⟨o, ho, hlayout⟩ =>
            hone layout first ⟨o, List.mem_cons_of_mem offset ho, hlayout⟩
              ⟨offset, List.mem_cons_self, hbuild⟩
        rw [Option.elim_some, gains_insert hfirst]
        refine gains_congr fun layout => ?_
        simp [BuiltFrom, hbuild, eq_comm]

theorem buildIndex_eq_ok {unit : CompileUnit} {walk : Walk} :
    buildIndex unit = .ok walk ↔ ∃ root, unit.root = .ok root ∧ walk = walkNames root .start := by
  unfold buildIndex
  rw [Effect.except_bind_eq_ok]
  simp [pure, Except.pure, eq_comm]

/-- The table of a unit, whatever the order in which its coroutines are looked at. -/
theorem collectUnit_eq_ok {order : SetOrder} (horder : order.Lawful) {unit : CompileUnit}
    (hunit : WellFormed unit) (layouts layouts' : AsyncLayouts) :
    collectUnit order unit layouts = .ok layouts' ↔
      ReadsWhole unit ∧ Gains (Built unit) layouts layouts' := by
  unfold collectUnit
  rw [Effect.except_bind_eq_ok]
  simp only [buildIndex_eq_ok]
  -- The order decides which offset comes first, and not which there are.
  have hoffsets (walk : Walk) (offset : Nat) :
      offset ∈ order walk.coroutines ↔ walk.index.coroutines offset = true := horder.mem_iff
  have hbuilt {root : Die} (hroot : unit.root = .ok root) (layout : AsyncFnLayout) :
      BuiltFrom unit (walkNames root .start).index (order (walkNames root .start).coroutines)
        layout ↔ Built unit layout := by
    have hindex := indexes_walkNames (hunit.distinct root hroot)
    rw [built_iff hroot hindex]
    simp only [BuiltFrom, hoffsets]
  have hone {root : Die} (hroot : unit.root = .ok root) :
      OnePerName (BuiltFrom unit (walkNames root .start).index
        (order (walkNames root .start).coroutines)) :=
    fun layout other hlayout hother => hunit.agree layout other ((hbuilt hroot layout).mp hlayout)
      ((hbuilt hroot other).mp hother)
  constructor
  · rintro ⟨_, ⟨root, hroot, rfl⟩, hfold⟩
    rw [foldlM_collectOne (hone hroot)] at hfold
    refine ⟨⟨root, _, hroot, indexes_walkNames (hunit.distinct root hroot), fun offset ho => ?_⟩,
      (gains_congr (hbuilt hroot)).mp hfold.2⟩
    exact hfold.1 offset ((hoffsets _ offset).mpr ho)
  · rintro ⟨⟨root, index, hroot, hindex, hread⟩, hgains⟩
    rcases hindex.unique (indexes_walkNames (hunit.distinct root hroot)) with rfl
    refine ⟨_, ⟨root, hroot, rfl⟩, ?_⟩
    rw [foldlM_collectOne (hone hroot)]
    exact ⟨fun offset ho => hread offset ((hoffsets _ offset).mp ho),
      (gains_congr (hbuilt hroot)).mpr hgains⟩

/-! ## All units -/

/-- The layout is the one of the last unit that has a coroutine of its name. -/
def Latest (units : List CompileUnit) (layout : AsyncFnLayout) : Prop :=
  ∃ before unit after, units = before ++ unit :: after ∧ Built unit layout ∧
    ∀ later ∈ after, ∀ other, Built later other → other.typeName ≠ layout.typeName

/-- The first version that the units name; the producers after it are not asked for. -/
def FirstVersion (units : List CompileUnit) (version : RustcVersion) : Prop :=
  ∃ before unit after, units = before ++ unit :: after ∧
    (∀ earlier ∈ before, producerVersion earlier = .ok none) ∧
    producerVersion unit = .ok (some version)

/-- The first unit decides, or the ones after it. -/
theorem firstVersion_cons {unit : CompileUnit} {units : List CompileUnit} {version : RustcVersion} :
    FirstVersion (unit :: units) version ↔ producerVersion unit = .ok (some version) ∨
      producerVersion unit = .ok none ∧ FirstVersion units version := by
  constructor
  · rintro ⟨before, found, after, heq, hbefore, hfound⟩
    cases before with
    | nil =>
      obtain ⟨rfl, -⟩ := List.cons.inj heq
      exact .inl hfound
    | cons first before =>
      obtain ⟨rfl, hunits⟩ := List.cons.inj heq
      rw [List.forall_mem_cons] at hbefore
      exact .inr ⟨hbefore.1, before, found, after, hunits, hbefore.2, hfound⟩
  · rintro (hfirst | ⟨hnone, before, found, after, rfl, hbefore, hfound⟩)
    · exact ⟨[], unit, units, rfl, by simp, hfirst⟩
    · exact ⟨unit :: before, found, after, rfl, List.forall_mem_cons.mpr ⟨hnone, hbefore⟩, hfound⟩

/-- There is one first version. -/
theorem FirstVersion.unique {units : List CompileUnit} {version other : RustcVersion}
    (h : FirstVersion units version) (hother : FirstVersion units other) : version = other := by
  induction units with
  | nil =>
    obtain ⟨before, unit, after, heq, -⟩ := h
    simp at heq
  | cons unit units ih =>
    rw [firstVersion_cons] at h hother
    rcases h with h | ⟨hnone, h⟩
    · rcases hother with hother | ⟨hnone, -⟩
      · exact Option.some.inj (Except.ok.inj (h.symm.trans hother))
      · rw [h] at hnone
        cases hnone
    · rcases hother with hother | ⟨-, hother⟩
      · rw [hnone] at hother
        cases hother
      · exact ih h hother

/-- A layout of the first unit is replaced by a later one of its name. -/
theorem latest_cons {unit : CompileUnit} {units : List CompileUnit} {layout : AsyncFnLayout} :
    Latest (unit :: units) layout ↔ Latest units layout ∨ Built unit layout ∧
      ∀ later ∈ units, ∀ other, Built later other → other.typeName ≠ layout.typeName := by
  constructor
  · rintro ⟨before, found, after, heq, hbuilt, hafter⟩
    cases before with
    | nil =>
      obtain ⟨rfl, rfl⟩ := List.cons.inj heq
      exact .inr ⟨hbuilt, hafter⟩
    | cons first before =>
      obtain ⟨rfl, hunits⟩ := List.cons.inj heq
      exact .inl ⟨before, found, after, hunits, hbuilt, hafter⟩
  · rintro (⟨before, found, after, rfl, hbuilt, hafter⟩ | ⟨hbuilt, hafter⟩)
    · exact ⟨unit :: before, found, after, rfl, hbuilt, hafter⟩
    · exact ⟨[], unit, units, rfl, hbuilt, hafter⟩

/-- A name that some unit has is one that a last unit has. -/
theorem exists_latest {units : List CompileUnit} {unit : CompileUnit} {layout : AsyncFnLayout}
    (hunit : unit ∈ units) (hbuilt : Built unit layout) :
    ∃ last, Latest units last ∧ last.typeName = layout.typeName := by
  induction units generalizing unit layout with
  | nil => cases hunit
  | cons first units ih =>
    by_cases hrest : ∃ later ∈ units, ∃ other, Built later other ∧
        other.typeName = layout.typeName
    · obtain ⟨later, hlater, other, hother, hname⟩ := hrest
      obtain ⟨last, hlast, heq⟩ := ih hlater hother
      exact ⟨last, latest_cons.mpr (.inl hlast), heq.trans hname⟩
    · push Not at hrest
      rcases List.mem_cons.mp hunit with rfl | hlater
      · exact ⟨layout, latest_cons.mpr (.inr ⟨hbuilt, hrest⟩), rfl⟩
      · exact absurd rfl (hrest unit hlater layout hbuilt)

theorem Latest.built {units : List CompileUnit} {layout : AsyncFnLayout}
    (h : Latest units layout) : ∃ unit ∈ units, Built unit layout := by
  obtain ⟨before, unit, after, rfl, hbuilt, -⟩ := h
  exact ⟨unit, by simp, hbuilt⟩

/-- What one unit finds, unless a later one finds another of that name. -/
theorem latest_cons_iff {unit : CompileUnit} {units : List CompileUnit} {layout : AsyncFnLayout} :
    Latest (unit :: units) layout ↔ Latest units layout ∨ Built unit layout ∧
      ∀ other, Latest units other → other.typeName ≠ layout.typeName := by
  rw [latest_cons]
  refine or_congr_right (and_congr_right fun _ => ?_)
  constructor
  · intro h other hother
    obtain ⟨later, hlater, hbuilt⟩ := hother.built
    exact h later hlater other hbuilt
  · intro h later hlater other hbuilt hname
    obtain ⟨last, hlast, heq⟩ := exists_latest hlater hbuilt
    exact h last hlast (heq.trans hname)

/-- What is found later stands before what was found first. -/
theorem Gains.trans {found later : AsyncFnLayout → Prop} {layouts mid layouts' : AsyncLayouts}
    (hfirst : Gains found layouts mid) (hrest : Gains later mid layouts') :
    Gains (fun layout => later layout ∨ found layout ∧
      ∀ other, later other → other.typeName ≠ layout.typeName) layouts layouts' := by
  intro name layout
  rw [hrest name layout, hfirst name layout]
  constructor
  · rintro (⟨hname, hlater⟩ | ⟨hnone, ⟨rfl, hfound⟩ | ⟨hno, hget⟩⟩)
    · exact .inl ⟨hname, .inl hlater⟩
    · exact .inl ⟨rfl, .inr ⟨hfound, hnone⟩⟩
    · refine .inr ⟨?_, hget⟩
      rintro other (hother | ⟨hother, -⟩)
      · exact hnone other hother
      · exact hno other hother
  · rintro (⟨hname, hlater | ⟨hfound, hnone⟩⟩ | ⟨hno, hget⟩)
    · exact .inl ⟨hname, hlater⟩
    · exact .inr ⟨hname ▸ hnone, .inl ⟨hname, hfound⟩⟩
    · have hnone : ∀ other, later other → other.typeName ≠ name :=
        fun other hother => hno other (.inl hother)
      refine .inr ⟨hnone, .inr ⟨fun other hother hname => ?_, hget⟩⟩
      exact hno other (.inr ⟨hother, fun y hy => hname ▸ hnone y hy⟩) hname

theorem Gains.unique {found : AsyncFnLayout → Prop} {layouts layouts' other : AsyncLayouts}
    (h : Gains found layouts layouts') (hother : Gains found layouts other) : layouts' = other :=
  AsyncLayouts.ext_get fun name => Option.ext fun layout =>
    (h name layout).trans (hother name layout).symm

/-- The entries of coroutines are read in any order. -/
theorem exists_foldlM_collectOne {unit : CompileUnit} {index : UnitIndex} {offsets : List Nat}
    (h : ∀ offset ∈ offsets, ∃ found, buildLayout unit.toDwarfUnit index offset = .ok found)
    (layouts : AsyncLayouts) :
    ∃ layouts', offsets.foldlM (collectOne unit index) layouts = .ok layouts' := by
  induction offsets generalizing layouts with
  | nil => exact ⟨layouts, rfl⟩
  | cons offset offsets ih =>
    rw [List.forall_mem_cons] at h
    obtain ⟨found, hbuild⟩ := h.1
    rw [List.foldlM_cons, collectOne_eq hbuild]
    exact ih h.2 _

/-- A unit that can be read whole is collected. -/
theorem exists_collectUnit {order : SetOrder} (horder : order.Lawful) {unit : CompileUnit}
    (hunit : WellFormed unit) (h : ReadsWhole unit) (layouts : AsyncLayouts) :
    ∃ layouts', collectUnit order unit layouts = .ok layouts' := by
  obtain ⟨root, index, hroot, hindex, hread⟩ := h
  rcases hindex.unique (indexes_walkNames (hunit.distinct root hroot)) with rfl
  unfold collectUnit
  rw [buildIndex_eq_ok.mpr ⟨root, hroot, rfl⟩]
  exact exists_foldlM_collectOne (fun offset ho => hread offset (horder.mem_iff.mp ho)) layouts

/-- The version after some units, from the one before them. -/
def VersionAfter (units : List CompileUnit) : Option RustcVersion → Option RustcVersion → Prop
  | some version, after => after = some version
  | none, some version => FirstVersion units version
  | none, none => ∀ unit ∈ units, producerVersion unit = .ok none

/-- What is known of the version after some units is determined. -/
theorem VersionAfter.unique {units : List CompileUnit} {before after other : Option RustcVersion}
    (h : VersionAfter units before after) (hother : VersionAfter units before other) :
    after = other := by
  have hexcl (version : RustcVersion) (hfirst : FirstVersion units version)
      (hnone : ∀ unit ∈ units, producerVersion unit = .ok none) : False := by
    obtain ⟨_, unit, _, rfl, _, hfound⟩ := hfirst
    rw [hnone unit (by simp)] at hfound
    cases hfound
  cases before with
  | some version => exact Eq.trans h (Eq.symm hother)
  | none =>
    cases after with
    | some version =>
      cases other with
      | some version' => exact congrArg some (FirstVersion.unique h hother)
      | none => exact (hexcl version h hother).elim
    | none =>
      cases other with
      | some version' => exact (hexcl version' hother h).elim
      | none => rfl

/-- One unit, and then the others. -/
theorem versionAfter_cons {unit : CompileUnit} {units : List CompileUnit}
    {before after : Option RustcVersion} :
    VersionAfter (unit :: units) before after ↔
      ∃ mid, VersionAfter [unit] before mid ∧ VersionAfter units mid after := by
  have hone (version : RustcVersion) :
      FirstVersion [unit] version ↔ producerVersion unit = .ok (some version) := by
    rw [firstVersion_cons, or_iff_left]
    rintro ⟨-, _, _, _, heq, -⟩
    simp at heq
  cases before with
  | some version =>
    constructor
    · intro h
      exact ⟨some version, rfl, h⟩
    · rintro ⟨mid, rfl, h⟩
      exact h
  | none =>
    constructor
    · intro h
      cases after with
      | some version =>
        rcases firstVersion_cons.mp h with hfirst | ⟨hnone, hrest⟩
        · exact ⟨some version, (hone version).mpr hfirst, rfl⟩
        · exact ⟨none, List.forall_mem_singleton.mpr hnone, hrest⟩
      | none => exact ⟨none, List.forall_mem_singleton.mpr (List.forall_mem_cons.mp h).1,
          (List.forall_mem_cons.mp h).2⟩
    · rintro ⟨mid, hmid, hrest⟩
      cases mid with
      | some version =>
        rcases (hrest : after = some version) with rfl
        exact firstVersion_cons.mpr (.inl ((hone version).mp hmid))
      | none =>
        have hnone : producerVersion unit = .ok none := hmid unit List.mem_cons_self
        cases after with
        | some version => exact firstVersion_cons.mpr (.inr ⟨hnone, hrest⟩)
        | none => exact List.forall_mem_cons.mpr ⟨hnone, hrest⟩

/-- One unit is visited: its producer is asked for while no version is known. -/
theorem visitUnit_eq_ok {order : SetOrder} {unit : CompileUnit} {before after : Extraction} :
    visitUnit order before (.ok unit) = .ok after ↔
      VersionAfter [unit] before.version after.version ∧
        collectUnit order unit before.layouts = .ok after.layouts := by
  obtain ⟨version, layouts⟩ := before
  obtain ⟨version', layouts'⟩ := after
  have hcollect (v : Option RustcVersion) : (do
      let layouts ← collectUnit order unit layouts
      pure { version := v, layouts } : Except AsyncDecodeError Extraction) =
      .ok { version := version', layouts := layouts' } ↔
        version' = v ∧ collectUnit order unit layouts = .ok layouts' := by
    rw [Effect.except_bind_eq_ok]
    constructor
    · rintro ⟨table, hok, heq⟩
      obtain ⟨hversion, rfl⟩ := Extraction.mk.inj (Except.ok.inj heq)
      exact ⟨hversion.symm, hok⟩
    · rintro ⟨rfl, hok⟩
      exact ⟨layouts', hok, rfl⟩
  -- The producer is looked at only while no version is known.
  cases version with
  | some known => exact hcollect (some known)
  | none =>
    show (producerVersion unit >>= fun v => collectUnit order unit layouts >>= fun table =>
      pure (Extraction.mk v table)) = _ ↔ _
    rw [Effect.except_bind_eq_ok]
    simp only [hcollect]
    constructor
    · rintro ⟨v, hproducer, rfl, hok⟩
      refine ⟨?_, hok⟩
      cases version' with
      | some version => exact firstVersion_cons.mpr (.inl hproducer)
      | none => exact List.forall_mem_singleton.mpr hproducer
    · rintro ⟨hversion, hok⟩
      refine ⟨version', ?_, rfl, hok⟩
      cases version' with
      | some version =>
        rcases firstVersion_cons.mp hversion with hfirst | ⟨-, _, _, _, heq, -⟩
        · exact hfirst
        · simp at heq
      | none => exact hversion unit List.mem_cons_self

/-- What is found in some units: all can be read, and the version and the table are theirs. -/
structure Found (units : List CompileUnit) (before after : Extraction) : Prop where
  whole : ∀ unit ∈ units, ReadsWhole unit
  version : VersionAfter units before.version after.version
  layouts : Gains (Latest units) before.layouts after.layouts

theorem Found.unique {units : List CompileUnit} {before after other : Extraction}
    (h : Found units before after) (hother : Found units before other) : after = other := by
  obtain ⟨version, layouts⟩ := after
  obtain ⟨version', layouts'⟩ := other
  rcases h.version.unique hother.version with rfl
  rcases h.layouts.unique hother.layouts with rfl
  rfl

section Units

variable {orders : Nat → SetOrder} (horders : ∀ k, (orders k).Lawful)
include horders

theorem found_of_foldlM {entries : List (Except AsyncDecodeError CompileUnit)}
    (hunits : ∀ unit, .ok unit ∈ entries → WellFormed unit) {before after : Extraction} {k : Nat}
    (h : (entries.zipIdx k).foldlM (visitNumbered orders) before = .ok after) :
    ∃ units, entries = units.map .ok ∧ Found units before after := by
  induction entries generalizing before k with
  | nil =>
    rcases Except.ok.inj h with rfl
    refine ⟨[], rfl, ⟨by simp, ?_, ?_⟩⟩
    · cases hversion : before.version with
      | some version => exact rfl
      | none => simp [VersionAfter]
    · have hnone : ∀ layout, Latest [] layout ↔ False := by simp [Latest]
      rw [gains_congr hnone, gains_nothing]
  | cons entry entries ih =>
    rw [List.zipIdx_cons, List.foldlM_cons] at h
    obtain ⟨mid, hfirst, hrest⟩ := Effect.except_bind_eq_ok.mp h
    -- A unit header that cannot be read ends the extraction.
    cases entry with
    | error e => cases hfirst
    | ok unit =>
      obtain ⟨units, rfl, hfound⟩ :=
        ih (fun u hu => hunits u (List.mem_cons_of_mem _ hu)) hrest
      rw [visitNumbered, visitUnit_eq_ok,
        collectUnit_eq_ok (horders k) (hunits unit List.mem_cons_self)] at hfirst
      obtain ⟨hversion, hwhole, hgains⟩ := hfirst
      refine ⟨unit :: units, rfl, ⟨?_, ?_, ?_⟩⟩
      · exact List.forall_mem_cons.mpr ⟨hwhole, hfound.whole⟩
      · exact versionAfter_cons.mpr ⟨mid.version, hversion, hfound.version⟩
      · exact (gains_congr fun _ => latest_cons_iff).mpr (hgains.trans hfound.layouts)

/-- The units can be visited one after the other if each can. -/
theorem exists_foldlM_visitUnit {units : List CompileUnit}
    (hunits : ∀ unit ∈ units, WellFormed unit) (hwhole : ∀ unit ∈ units, ReadsWhole unit)
    {before : Extraction} {version : Option RustcVersion}
    (hversion : VersionAfter units before.version version) {k : Nat} :
    ∃ after, ((units.map .ok).zipIdx k).foldlM (visitNumbered orders) before = .ok after := by
  induction units generalizing before k with
  | nil => exact ⟨before, rfl⟩
  | cons unit units ih =>
    rw [List.forall_mem_cons] at hunits hwhole
    obtain ⟨mid, hfirst, hrest⟩ := versionAfter_cons.mp hversion
    obtain ⟨layouts, hcollect⟩ := exists_collectUnit (horders k) hunits.1 hwhole.1 before.layouts
    obtain ⟨after, hafter⟩ : ∃ after,
        ((units.map .ok).zipIdx (k + 1)).foldlM (visitNumbered orders) ⟨mid, layouts⟩ = .ok after :=
      ih hunits.2 hwhole.2 hrest
    have hunit : visitNumbered orders before (.ok unit, k) = .ok ⟨mid, layouts⟩ :=
      visitUnit_eq_ok.mpr ⟨hfirst, hcollect⟩
    refine ⟨after, ?_⟩
    rw [List.map_cons, List.zipIdx_cons, List.foldlM_cons, hunit]
    exact hafter

/-- Visiting the units finds what is in them. -/
theorem foldlM_visitUnit {entries : List (Except AsyncDecodeError CompileUnit)}
    (hunits : ∀ unit, .ok unit ∈ entries → WellFormed unit) {before after : Extraction} :
    entries.zipIdx.foldlM (visitNumbered orders) before = .ok after ↔
      ∃ units, entries = units.map .ok ∧ Found units before after := by
  constructor
  · exact found_of_foldlM horders hunits
  · rintro ⟨units, rfl, hfound⟩
    have hwell : ∀ unit ∈ units, WellFormed unit := fun unit hunit =>
      hunits unit (List.mem_map_of_mem hunit)
    obtain ⟨other, hother⟩ := @exists_foldlM_visitUnit orders horders _ hwell hfound.whole _ _
      hfound.version 0
    obtain ⟨units', heq, hfound'⟩ := found_of_foldlM horders hunits hother
    rcases List.map_injective_iff.mpr (fun a b h => Except.ok.inj h) heq with rfl
    rw [hother, hfound'.unique hfound]

/-! ## The whole file -/

end Units

/-- What a file has to be to be read, and what is read from it. -/
def Extracts (file : Except String ObjectFile) (out : DwarfExtract) : Prop :=
  ∃ object units, file = .ok object ∧ isTokioObject object = true ∧
    object.hasDebugInfo = true ∧ object.units = units.map .ok ∧
    (∀ unit ∈ units, ReadsWhole unit) ∧
    FirstVersion units out.version ∧ out.version.isSupported = true ∧
    (∃ layout, Latest units layout) ∧
    ∀ name layout, out.layouts.get name = some layout ↔
      layout.typeName = name ∧ Latest units layout

theorem gains_new {found : AsyncFnLayout → Prop} {layouts : AsyncLayouts} :
    Gains found .new layouts ↔
      ∀ name layout, layouts.get name = some layout ↔ layout.typeName = name ∧ found layout := by
  simp [Gains, AsyncLayouts.get, AsyncLayouts.new]

/-- The table is empty if nothing was found. -/
theorem isEmpty_byName {found : AsyncFnLayout → Prop} {layouts : AsyncLayouts}
    (h : Gains found .new layouts) :
    layouts.byName.isEmpty = true ↔ ¬ ∃ layout, found layout := by
  rw [KeyMap.isEmpty_iff]
  rw [gains_new] at h
  constructor
  · rintro hnone ⟨layout, hfound⟩
    have hget : layouts.byName[layout.typeName]? = some layout :=
      (h layout.typeName layout).mpr ⟨rfl, hfound⟩
    rw [hnone] at hget
    cases hget
  · intro hno name
    cases hget : layouts.byName[name]? with
    | none => rfl
    | some layout => exact absurd ⟨layout, ((h name layout).mp hget).2⟩ hno

/-- What is extracted from a file, whatever the order in which coroutines are looked at. -/
theorem extract_eq_ok_iff {orders : Nat → SetOrder} (horders : ∀ k, (orders k).Lawful)
    {file : Except String ObjectFile}
    (hunits : ∀ object, file = .ok object → ∀ unit, .ok unit ∈ object.units → WellFormed unit)
    (out : DwarfExtract) : extract orders file = .ok out ↔ Extracts file out := by
  cases file with
  | error reason =>
    constructor
    · intro h
      cases h
    · rintro ⟨_, _, h, -⟩
      cases h
  | ok object =>
    have hfold {after : Extraction} :
        object.units.zipIdx.foldlM (visitNumbered orders) { version := none, layouts := .new } =
          .ok after ↔ ∃ units, object.units = units.map .ok ∧
            Found units { version := none, layouts := .new } after :=
      foldlM_visitUnit horders (hunits object rfl)
    -- The guards, in the order of the source: tokio, debug info, the units, a version, a
    -- supported one, a layout.
    unfold extract
    constructor
    · intro h
      simp only [Except.mapError, bind, Except.bind] at h
      split at h
      · cases h
      · rename_i htokio
        split at h
        · cases h
        · rename_i hdebug
          split at h
          · cases h
          · rename_i after hvisit
            obtain ⟨units, heq, hfound⟩ := hfold.mp hvisit
            split at h
            · cases h
            · rename_i version hversion
              split at h
              · cases h
              · rename_i hsupported
                split at h
                · cases h
                · rename_i hempty
                  rcases Except.ok.inj h with rfl
                  have hfirst := hfound.version
                  rw [hversion] at hfirst
                  refine ⟨object, units, rfl, not_not.mp htokio, not_not.mp hdebug, heq,
                    hfound.whole, hfirst, not_not.mp hsupported, ?_,
                    gains_new.mp hfound.layouts⟩
                  exact not_not.mp (mt (isEmpty_byName hfound.layouts).mpr hempty)
    · rintro ⟨object', units, heq, htokio, hdebug, hmap, hwhole, hfirst, hsupported, hsome,
        hget⟩
      rcases Except.ok.inj heq with rfl
      have hgains : Gains (Latest units) .new out.layouts := gains_new.mpr hget
      have hvisit : object.units.zipIdx.foldlM (visitNumbered orders)
          { version := none, layouts := .new } = .ok ⟨some out.version, out.layouts⟩ :=
        hfold.mpr ⟨units, hmap, hwhole, hfirst, hgains⟩
      have hempty : ¬ out.layouts.byName.isEmpty = true :=
        fun h => (isEmpty_byName hgains).mp h hsome
      simp only [Except.mapError, bind, Except.bind]
      simp [htokio, hdebug, hvisit, hsupported, hempty, pure, Except.pure]

/-! ### A file with two units -/

def returnedDie : Die := .mk { plainEntry 90 .structureType with name := some "Returned" } []

/-- A coroutine that is never suspended; its one variant has this value. -/
def demoCoroutine (offset : Nat) (value : UInt64) : Die :=
  .mk { plainEntry offset .structureType with name := some "\x7basync_fn_env#0\x7d" }
    [variantPartDie (offset + 1) (offset + 2)
      [variantDie (offset + 3) value [memberDie (offset + 4) 90 0]]]

def demoRoot (value : UInt64) : Die :=
  .mk (plainEntry 0 (.other 0x11))
    [.mk { plainEntry 1 .namespaceTag with name := some "fetch" } [demoCoroutine 10 value],
      .mk { plainEntry 2 .namespaceTag with name := some "store" } [demoCoroutine 20 3],
      returnedDie]

/-- A unit with the coroutines of `fetch` and `store`. -/
def demoUnit (value : UInt64) (producer : String) : CompileUnit where
  entriesTree
    | 10 => .ok (demoCoroutine 10 value)
    | 20 => .ok (demoCoroutine 20 3)
    | 90 => .ok returnedDie
    | 60 => .ok (.mk { plainEntry 60 (.other 0x24) with byteSize := some 1 } [])
    | _ => .error (.dwarf "no entry at this offset")
  fileName _ := none
  root := .ok (demoRoot value)
  producer := .ok (some producer)

/-- Both units have a coroutine of `fetch`, and only the second one names its compiler. -/
def demoFile : ObjectFile where
  symbols := [some "_ZN5tokio7runtime4Core", none]
  hasDebugInfo := true
  units := [.ok (demoUnit 1 "clang LLVM 18.1"),
    .ok (demoUnit 2 "clang LLVM (rustc version 1.80.1 (3f5fd8dd4 2024-08-06))")]

/-- The sets of later units are looked at from behind. -/
def demoOrders (k : Nat) (set : KeyMap Nat Unit) : List Nat :=
  if k = 0 then set.keys else set.keys.reverse

/-- Every order of the example lists the set it is given. -/
theorem lawful_demoOrders (k : Nat) : SetOrder.Lawful (demoOrders k) := by
  intro set
  unfold demoOrders
  split
  · exact .refl _
  · exact List.reverse_perm _

/-- The units of the example have one entry for each offset. -/
theorem wellFormed_demoUnit (value : UInt64) (producer : String) :
    WellFormed (demoUnit value producer) := by
  have hdistinct : DistinctOffsets (demoRoot value) := by
    have hoffsets : (scopedEntries [] (demoRoot value)).map (fun p => p.2.offset) =
        [0, 1, 10, 11, 12, 13, 14, 2, 20, 21, 22, 23, 24, 90] := rfl
    have hpairwise : ((scopedEntries [] (demoRoot value)).map fun p => p.2.offset).Pairwise
        (· ≠ ·) := by
      rw [hoffsets]
      decide
    exact List.pairwise_map.mp hpairwise
  refine ⟨fun root hroot => ?_, ?_⟩
  · rcases Except.ok.inj hroot with rfl
    exact hdistinct
  · intro layout other hlayout hother hname
    have hindex := indexes_walkNames hdistinct
    have hcoroutine {offset : Nat}
        (h : (walkNames (demoRoot value) .start).index.coroutines offset = true) :
        offset = 10 ∨ offset = 20 := by
      have hmem : offset ∈ [10, 20] := mem_coroutineOffsets.mpr ((hindex.coroutines offset).mp h)
      simpa using hmem
    rw [built_iff rfl hindex] at hlayout hother
    obtain ⟨offset, hoffset, hbuild⟩ := hlayout
    obtain ⟨offset', hoffset', hbuild'⟩ := hother
    have hsame : offset = offset' := by
      -- the two have different names
      have hnames := names_of_buildLayout hbuild
      have hnames' := names_of_buildLayout hbuild'
      rw [← hname] at hnames'
      have hfetch : (walkNames (demoRoot value) .start).index.names 10 =
          some "fetch::\x7basync_fn_env#0\x7d" := rfl
      have hstore : (walkNames (demoRoot value) .start).index.names 20 =
          some "store::\x7basync_fn_env#0\x7d" := rfl
      rcases hcoroutine hoffset with rfl | rfl <;> rcases hcoroutine hoffset' with rfl | rfl
      · rfl
      · rw [hfetch] at hnames
        rw [hstore, ← hnames] at hnames'
        exact absurd hnames' (by decide)
      · rw [hstore] at hnames
        rw [hfetch, ← hnames] at hnames'
        exact absurd hnames' (by decide)
      · rfl
    rcases hsame with rfl
    exact Option.some.inj (Except.ok.inj (hbuild.symm.trans hbuild'))

/-- Of the two coroutines of `fetch` the later one counts, and `store` is found too. -/
theorem extract_eq_ok_iff_demo :
    ∃ out fetch store, extract demoOrders (.ok demoFile) = .ok out ∧
      Extracts (.ok demoFile) out ∧
      out.layouts.get "fetch::\x7basync_fn_env#0\x7d" = some fetch ∧
      fetch.variants.keys = [2] ∧
      out.layouts.get "store::\x7basync_fn_env#0\x7d" = some store ∧
      store.variants.keys = [3] := by
  have hunits : ∀ object, Except.ok (ε := String) demoFile = .ok object →
      ∀ unit, .ok unit ∈ object.units → WellFormed unit := by
    rintro object h unit hunit
    rcases Except.ok.inj h with rfl
    rcases List.mem_cons.mp hunit with hfirst | hsecond
    · rcases Except.ok.inj hfirst with rfl
      exact wellFormed_demoUnit _ _
    · rcases Except.ok.inj (List.mem_singleton.mp hsecond) with rfl
      exact wellFormed_demoUnit _ _
  exact ⟨_, _, _, rfl, (extract_eq_ok_iff lawful_demoOrders hunits _).mp rfl, rfl, rfl, rfl, rfl⟩

end Mirrorscope.Decoder.AsyncRust
