import Mirrorscope.Decoder.AsyncView
import Mirrorscope.Decoder.Dwarf

/-! # Branches and the payloads they are in

The branches of a suspended coroutine are found by a search through the types of its members. On
its way the search goes into every payload of every enum; the enum itself, in memory, has one.
Here is which branches the search finds, with the payloads on the way to each, so that they can
be compared with the memory.
-/

namespace Mirrorscope.Decoder.AsyncRust

/-! ## Paths -/

/-- A payload on the way: an enum at an offset in the coroutine, its variant part, and the
variant that has the payload. -/
structure Payload where
  offset : UInt64
  variantPart : Die
  variant : Die

/-- The type has this member; `via` is the variant part and the variant whose payload it is in,
if it is in one. -/
inductive MemberOf (die : Die) : MemberInfo → Option (Die × Die) → Prop where
  | direct {child : Die} {member : MemberInfo} (mem : child ∈ die.children)
      (info : memberInfo 0 child = some member) : MemberOf die member none
  | payload {variantPart variant child : Die} {member : MemberInfo}
      (part : variantPart ∈ die.children) (partTag : variantPart.tag = .variantPart)
      (mem : variant ∈ variantPart.children) (variantTag : variant.tag = .variant)
      (inner : child ∈ variant.children) (info : memberInfo 0 child = some member) :
      MemberOf die member (some (variantPart, variant))

/-- The payload a member of an enum at `base` is in. -/
def payloadAt (base : UInt64) (via : Option (Die × Die)) : List Payload :=
  via.toList.map fun (variantPart, variant) => ⟨base, variantPart, variant⟩

section

variable (unit : DwarfUnit) (index : UnitIndex)

/-- From the type `typeRef` at `base` a path of at most `room` levels leads through these
payloads to the coroutine type `target` at `offset`. -/
inductive Leads : Nat → Nat → UInt64 → List Payload → Nat → UInt64 → Prop where
  | here {room typeRef : Nat} {base : UInt64} (coroutine : index.coroutines typeRef = true) :
      Leads (room + 1) typeRef base [] typeRef base
  | down {room typeRef : Nat} {base : UInt64} {die : Die} {member : MemberInfo}
      {via : Option (Die × Die)} {payloads : List Payload} {target : Nat} {offset : UInt64}
      (other : index.coroutines typeRef = false) (tree : unit.entriesTree typeRef = .ok die)
      (member_of : MemberOf die member via)
      (rest : Leads room member.typeRef (base + member.offset) payloads target offset) :
      Leads (room + 1) typeRef base (payloadAt base via ++ payloads) target offset

/-- A path from the state struct of a variant to an inline coroutine of this type name. -/
def Stores (stateRef : Nat) (payloads : List Payload) (offset : UInt64) (typeName : String) :
    Prop :=
  ∃ die member via rest target, unit.entriesTree stateRef = .ok die ∧ MemberOf die member via ∧
    Leads unit index (maxChildDepth + 1) member.typeRef member.offset rest target offset ∧
    index.names target = some typeName ∧ payloads = payloadAt 0 via ++ rest

end

/-! ## The search -/

theorem mem_readMembers {die : Die} {member : MemberInfo} :
    member ∈ readMembers die 0 ↔ ∃ via, MemberOf die member via := by
  unfold readMembers readVariantPayloads
  rw [List.mem_flatMap]
  constructor
  · rintro ⟨child, hchild, hmem⟩
    by_cases htag : child.tag = .member
    · rw [if_pos htag, Option.mem_toList] at hmem
      exact ⟨none, .direct hchild hmem⟩
    -- Not a member, so one of the payloads of a variant part, or nothing.
    · rw [if_neg htag] at hmem
      by_cases hpart : child.tag = .variantPart
      · rw [if_pos hpart, List.mem_flatMap] at hmem
        rcases hmem with ⟨variant, hvariant, hmem⟩
        by_cases hvtag : variant.tag = .variant
        · rw [if_pos hvtag, List.mem_filterMap] at hmem
          rcases hmem with ⟨inner, hinner, hinfo⟩
          exact ⟨some (child, variant), .payload hchild hpart hvariant hvtag hinner hinfo⟩
        · rw [if_neg hvtag] at hmem
          cases hmem
      · rw [if_neg hpart] at hmem
        cases hmem
  · rintro ⟨via, hmember⟩
    cases hmember with
    | @direct child _ mem info =>
      have htag : child.tag = .member := by
        unfold memberInfo at info
        split at info
        · assumption
        · cases info
      refine ⟨child, mem, ?_⟩
      rw [if_pos htag, Option.mem_toList]
      exact info
    | @payload variantPart variant child _ part partTag mem variantTag inner info =>
      refine ⟨variantPart, part, ?_⟩
      have hno : ¬ variantPart.tag = .member := by
        rw [partTag]
        decide
      rw [if_neg hno, if_pos partTag, List.mem_flatMap]
      refine ⟨variant, mem, ?_⟩
      rw [if_pos variantTag, List.mem_filterMap]
      exact ⟨child, inner, info⟩

variable {unit : DwarfUnit} {index : UnitIndex}

theorem leads_coroutine_iff {room typeRef target : Nat} {base offset : UInt64}
    {payloads : List Payload} (hco : index.coroutines typeRef = true) :
    Leads unit index (room + 1) typeRef base payloads target offset ↔
      payloads = [] ∧ target = typeRef ∧ offset = base := by
  constructor
  · intro h
    cases h with
    | here _ => exact ⟨rfl, rfl, rfl⟩
    | down other => rw [hco] at other; cases other
  · rintro ⟨rfl, rfl, rfl⟩
    exact .here hco

theorem leads_other_iff {room typeRef target : Nat} {base offset : UInt64} {die : Die}
    {payloads : List Payload} (hco : index.coroutines typeRef = false)
    (htree : unit.entriesTree typeRef = .ok die) :
    Leads unit index (room + 1) typeRef base payloads target offset ↔
      ∃ member via rest, MemberOf die member via ∧
        Leads unit index room member.typeRef (base + member.offset) rest target offset ∧
        payloads = payloadAt base via ++ rest := by
  constructor
  · intro h
    cases h with
    | here coroutine => rw [hco] at coroutine; cases coroutine
    | @down _ _ _ die' member via rest _ _ other tree member_of leads =>
      rcases Except.ok.inj (htree.symm.trans tree) with rfl
      exact ⟨member, via, rest, member_of, leads, rfl⟩
  · rintro ⟨member, via, rest, hmember, hleads, rfl⟩
    exact .down hco htree hmember hleads

/-- A path leads from the type to this coroutine, and it is not the one to skip. -/
def Finds (unit : DwarfUnit) (index : UnitIndex) (skipOffset : Option UInt64) (room typeRef : Nat)
    (base : UInt64) (c : ChildRef) : Prop :=
  ∃ payloads target, Leads unit index room typeRef base payloads target c.offset ∧
    some c.offset ≠ skipOffset ∧ index.names target = some c.typeName

/-- What a search through a type adds: the coroutines to which a path leads. -/
theorem mem_collectChildren {skipOffset : Option UInt64} {room : Nat} {out out' : List ChildRef}
    {typeRef : Nat} {base : UInt64}
    (h : collectChildren unit index skipOffset room out typeRef base = .ok out') (c : ChildRef) :
    c ∈ out' ↔ c ∈ out ∨ Finds unit index skipOffset room typeRef base c := by
  induction room generalizing out out' typeRef base c with
  | zero =>
    rcases Except.ok.inj h with rfl
    constructor
    · exact .inl
    · rintro (hmem | ⟨payloads, target, hleads, -⟩)
      · exact hmem
      · cases hleads
  | succ room ih =>
    rw [collectChildren] at h
    by_cases hco : index.coroutines typeRef = true
    · -- the search ends here, with this coroutine or without
      rw [if_pos hco] at h
      have hadds : c ∈ out' ↔ c ∈ out ∨ c.offset = base ∧ some base ≠ skipOffset ∧
          index.names typeRef = some c.typeName := by
        by_cases hskip : some base ≠ skipOffset
        · rw [if_pos hskip] at h
          cases hname : index.names typeRef with
          | none =>
            rw [hname] at h
            rcases Except.ok.inj h with rfl
            simp
          | some name =>
            rw [hname] at h
            rcases Except.ok.inj h with rfl
            rw [List.mem_append, List.mem_singleton]
            refine or_congr Iff.rfl ?_
            constructor
            · rintro rfl
              exact ⟨rfl, hskip, rfl⟩
            · rintro ⟨rfl, -, heq⟩
              rcases Option.some.inj heq with rfl
              rfl
        · rw [if_neg hskip] at h
          rcases Except.ok.inj h with rfl
          constructor
          · exact .inl
          · rintro (hmem | ⟨-, hskip', -⟩)
            · exact hmem
            · exact absurd hskip' hskip
      rw [hadds]
      simp only [Finds, leads_coroutine_iff hco]
      constructor
      · rintro (hmem | ⟨hoffset, hskip, hname⟩)
        · exact .inl hmem
        · exact .inr ⟨[], typeRef, ⟨rfl, rfl, hoffset⟩, hoffset ▸ hskip, hname⟩
      · rintro (hmem | ⟨_, _, ⟨rfl, rfl, hoffset⟩, hskip, hname⟩)
        · exact .inl hmem
        · exact .inr ⟨hoffset, hoffset ▸ hskip, hname⟩
    · -- the search goes on through the members
      rw [if_neg hco] at h
      have hco : index.coroutines typeRef = false := by simpa using hco
      rcases Effect.except_bind_ok h with ⟨info, hinfo, h⟩
      rcases Effect.except_bind_ok hinfo with ⟨die, htree, hinfo⟩
      rcases Except.ok.inj hinfo with rfl
      have hstep : ∀ (s : List ChildRef) (member : MemberInfo) (s' : List ChildRef),
          collectChildren unit index skipOffset room s member.typeRef (base + member.offset) =
            .ok s' → ∀ c, c ∈ s' ↔ c ∈ s ∨
              Finds unit index skipOffset room member.typeRef (base + member.offset) c :=
        fun s member s' hmember c => ih hmember c
      rw [Effect.mem_foldlM hstep h]
      simp only [Finds, leads_other_iff hco htree, mem_readMembers]
      refine or_congr Iff.rfl ?_
      constructor
      · rintro ⟨member, ⟨via, hmember⟩, rest, target, hleads, hskip, hname⟩
        exact ⟨_, target, ⟨member, via, rest, hmember, hleads, rfl⟩, hskip, hname⟩
      · rintro ⟨_, target, ⟨member, via, rest, hmember, hleads, rfl⟩, hskip, hname⟩
        exact ⟨member, ⟨via, hmember⟩, rest, target, hleads, hskip, hname⟩

/-- What the search through all members of a struct finds. -/
theorem mem_children {skipOffset : Option UInt64} {room : Nat} {die : Die}
    {children : List ChildRef}
    (h : (readMembers die 0).foldlM (fun out member => collectChildren unit index skipOffset room
      out member.typeRef member.offset) [] = .ok children) (c : ChildRef) :
    c ∈ children ↔ ∃ member, (∃ via, MemberOf die member via) ∧
      Finds unit index skipOffset room member.typeRef member.offset c := by
  have hstep : ∀ (s : List ChildRef) (member : MemberInfo) (s' : List ChildRef),
      collectChildren unit index skipOffset room s member.typeRef member.offset = .ok s' →
        ∀ c, c ∈ s' ↔ c ∈ s ∨ Finds unit index skipOffset room member.typeRef member.offset c :=
    fun s member s' hmember c => mem_collectChildren hmember c
  rw [Effect.mem_foldlM hstep h]
  simp only [List.not_mem_nil, false_or, mem_readMembers]

/-! ## The variants of a coroutine -/

/-- The state struct of the variant of the coroutine that has this discriminant. -/
def StateStruct (unit : DwarfUnit) (coroOff : Nat) (discr : UInt64) (stateRef : Nat) : Prop :=
  ∃ root, unit.entriesTree coroOff = .ok root ∧ ∃ part ∈ root.children,
    part.tag = .variantPart ∧ ∃ variant ∈ part.children, variant.tag = .variant ∧
      variant.entry.discrValue.getD 0 = discr ∧ ∃ member, variant.children.head? = some member ∧
        member.entry.typeRef = some stateRef

/-- The children of a suspended variant are what its state struct stores, but for the future it
awaits. -/
theorem children_readVariant {variant : Die} {discr : UInt64} {info : VariantInfo}
    (h : readVariant unit index variant = .ok (some (discr, info)))
    (hsuspend : info.kind.isSuspend = true) :
    variant.entry.discrValue.getD 0 = discr ∧ ∃ member stateRef,
      variant.children.head? = some member ∧ member.entry.typeRef = some stateRef ∧
      ∀ c, c ∈ info.children ↔ some c.offset ≠ info.awaitee.map ChildRef.offset ∧
        ∃ payloads, Stores unit index stateRef payloads c.offset c.typeName := by
  unfold readVariant at h
  cases hhead : variant.children.head? with
  | none =>
    rw [hhead] at h
    cases h
  | some member =>
    rw [hhead] at h
    dsimp only at h
    cases htype : member.entry.typeRef with
    | none =>
      rw [htype] at h
      cases h
    | some stateRef =>
      rw [htype] at h
      rcases Effect.except_bind_ok h with ⟨state, hstate, h⟩
      rcases Effect.except_bind_ok hstate with ⟨die, htree, hstate⟩
      rcases Except.ok.inj hstate with rfl
      cases hkind : VariantKind.fromStructName (die.entry.name.getD "") with
      | none =>
        simp only [hkind] at h
        cases h
      | some kind =>
        simp only [hkind] at h
        -- Only a suspended state is searched for children.
        by_cases hsus : kind.isSuspend = true
        · rw [if_neg (not_not.mpr hsus)] at h
          rcases Effect.except_bind_ok h with ⟨children, hchildren, h⟩
          rcases Prod.mk.inj (Option.some.inj (Except.ok.inj h)) with ⟨hdiscr, rfl⟩
          refine ⟨hdiscr, member, stateRef, rfl, htype, ?_⟩
          intro c
          rw [mem_children hchildren]
          constructor
          · rintro ⟨member, ⟨via, hmember⟩, rest, target, hleads, hskip, hname⟩
            exact ⟨hskip, _, die, member, via, rest, target, htree, hmember, hleads, hname, rfl⟩
          · rintro ⟨hskip, _, die', member, via, rest, target, htree', hmember, hleads, hname, -⟩
            rcases Except.ok.inj (htree.symm.trans htree') with rfl
            exact ⟨member, ⟨via, hmember⟩, rest, target, hleads, hskip, hname⟩
        · rw [if_pos hsus] at h
          rcases Prod.mk.inj (Option.some.inj (Except.ok.inj h)) with ⟨-, rfl⟩
          exact absurd hsuspend hsus

theorem visitPart_read {discrRef : Nat} {part child : Die} {s s' : Parts}
    (hchild : child ∈ part.children)
    (hs : ∀ discr info, s.variants[discr]? = some info → ∃ variant ∈ part.children,
      variant.tag = .variant ∧ readVariant unit index variant = .ok (some (discr, info)))
    (h : visitPart unit index discrRef s child = .ok s') :
    ∀ discr info, s'.variants[discr]? = some info → ∃ variant ∈ part.children,
      variant.tag = .variant ∧ readVariant unit index variant = .ok (some (discr, info)) := by
  unfold visitPart at h
  split at h
  · rcases Effect.except_bind_ok h with ⟨size, -, h⟩
    rcases Except.ok.inj h with rfl
    exact hs
  · split at h
    · rename_i htag
      rcases Effect.except_bind_ok h with ⟨found, hfound, h⟩
      cases found with
      | none =>
        rcases Except.ok.inj h with rfl
        exact hs
      | some found =>
        rcases Except.ok.inj h with rfl
        intro discr info hget
        rw [KeyMap.get_insert] at hget
        split at hget
        · rename_i hvalue
          rcases Option.some.inj hget with rfl
          rcases hvalue with rfl
          exact ⟨child, hchild, htag, hfound⟩
        · exact hs discr info hget
    · rcases Except.ok.inj h with rfl
      exact hs

/-- Every variant of a layout has been read from the variant part of the coroutine. -/
theorem variants_buildLayout {coroOff : Nat} {layout : AsyncFnLayout}
    (h : buildLayout unit index coroOff = .ok (some layout)) {discr : UInt64} {info : VariantInfo}
    (hinfo : layout.variants[discr]? = some info) :
    ∃ root, unit.entriesTree coroOff = .ok root ∧ ∃ part ∈ root.children,
      part.tag = .variantPart ∧ ∃ variant ∈ part.children, variant.tag = .variant ∧
        readVariant unit index variant = .ok (some (discr, info)) := by
  unfold buildLayout at h
  cases hname : index.names coroOff with
  | none =>
    rw [hname] at h
    cases h
  | some typeName =>
    rw [hname] at h
    rcases Effect.except_bind_ok h with ⟨root, hroot, h⟩
    cases hpart : root.children.find? (fun child => child.tag = .variantPart) with
    | none =>
      rw [hpart] at h
      cases h
    | some part =>
      rw [hpart] at h
      have htag : part.tag = .variantPart := by simpa using List.find?_some hpart
      refine ⟨root, hroot, part, List.mem_of_find?_eq_some hpart, htag, ?_⟩
      unfold buildFromVariantPart at h
      cases hdiscr : part.entry.discr with
      | none =>
        simp only [hdiscr] at h
        cases h
      | some discrRef =>
        simp only [hdiscr] at h
        rcases Effect.except_bind_ok h with ⟨parts, hparts, h⟩
        -- Every variant of the table was put there by reading a child of the variant part.
        have hread : ∀ discr info, parts.variants[discr]? = some info →
            ∃ variant ∈ part.children, variant.tag = .variant ∧
              readVariant unit index variant = .ok (some (discr, info)) := by
          refine Effect.foldlM_ok_of_mem (I := fun parts => ∀ discr info,
            parts.variants[discr]? = some info → ∃ variant ∈ part.children,
              variant.tag = .variant ∧ readVariant unit index variant = .ok (some (discr, info)))
            ?_ ?_ hparts
          · intro s child hchild s' hs hstep
            exact visitPart_read hchild hs hstep
          · intro discr info hget
            simp at hget
        cases hoffset : parts.discrOffset with
        | none =>
          rw [hoffset] at h
          cases h
        | some discrOffset =>
          rw [hoffset] at h
          rcases Option.some.inj (Except.ok.inj h) with rfl
          exact hread discr info hinfo

/-! ## Payloads in memory -/

section

variable (unit : DwarfUnit) (view : ProcessView)

/-- The width of the discriminant. -/
def discrWidth (member : Die) : Nat :=
  match discrMemberSize unit member.entry with
  | .ok (some size) => size.toNat
  | _ => 1

/-- The enum at `addr` is in this variant: its discriminant has the value of the variant, or that
of no variant if this is the one without a value. An enum without a discriminant has one
variant. -/
def Selected (addr : UInt64) (variantPart variant : Die) : Prop :=
  match variantPart.entry.discr with
  | none => True
  | some discrRef => ∃ member ∈ variantPart.children, member.tag = .member ∧
      member.entry.offset = discrRef ∧ ∃ bytes,
        view.readMemory (addr + member.entry.dataMemberLocation.getD 0)
          (discrWidth unit member) = .ok bytes ∧
        match variant.entry.discrValue with
        | some value => orBytes bytes = value
        | none => ∀ other ∈ variantPart.children, other.tag = .variant →
            other.entry.discrValue ≠ some (orBytes bytes)

/-- All payloads on the way are those their enums are in. -/
def Active (base : UInt64) (payloads : List Payload) : Prop :=
  ∀ payload ∈ payloads, Selected unit view (base + payload.offset) payload.variantPart
    payload.variant

end

/-- **Branches.** The branches that are reported for a suspended coroutine are stored in payloads
that are active in memory exactly if all payloads are through which any path leads from its state
struct to an inline coroutine other than the one it awaits. -/
theorem branches_active_iff {view : ProcessView} {coroOff : Nat} {layout : AsyncFnLayout}
    {base discr : UInt64} {variant : VariantInfo} {children : List (UInt64 × String)}
    (hlayout : buildLayout unit index coroOff = .ok (some layout))
    (hactive : activeVariant view base layout = .ok (discr, variant))
    (hsuspend : variant.kind.isSuspend = true)
    (hchildren : fanOutChildren view base layout = .ok children) :
    ∃ stateRef, StateStruct unit coroOff discr stateRef ∧
      ((∀ child ∈ children, ∃ offset, child.1 = base + offset ∧
          (∃ payloads, Stores unit index stateRef payloads offset child.2) ∧
          ∀ payloads, Stores unit index stateRef payloads offset child.2 →
            Active unit view base payloads) ↔
        ∀ payloads offset typeName, Stores unit index stateRef payloads offset typeName →
          some offset ≠ variant.awaitee.map ChildRef.offset → Active unit view base payloads) := by
  -- The active variant is the table's, and that is the state struct's own reading.
  have hinfo : layout.variants[discr]? = some variant := by
    rcases Effect.except_bind_ok hactive with ⟨found, -, hfound⟩
    cases hvariant : layout.variantFor found with
    | none =>
      rw [hvariant] at hfound
      cases hfound
    | some info =>
      rw [hvariant] at hfound
      rcases Prod.mk.inj (Except.ok.inj hfound) with ⟨rfl, rfl⟩
      exact hvariant
  rcases variants_buildLayout hlayout hinfo with
    ⟨root, hroot, part, hpart, hpartTag, die, hdie, hdieTag, hread⟩
  rcases children_readVariant hread hsuspend with ⟨hdiscr, member, stateRef, hhead, htype, hmem⟩
  have hreported : children = variant.children.map fun c => (base + c.offset, c.typeName) := by
    rw [fanOutChildren, hactive] at hchildren
    exact (Except.ok.inj hchildren).symm
  refine ⟨stateRef, ⟨root, hroot, part, hpart, hpartTag, die, hdie, hdieTag, hdiscr, member, hhead,
    htype⟩, ?_⟩
  constructor
  · intro hlive payloads offset typeName hstores hskip
    have hchild : (base + offset, typeName) ∈ children := by
      rw [hreported]
      exact List.mem_map.mpr ⟨⟨offset, typeName⟩, (hmem _).mpr ⟨hskip, payloads, hstores⟩, rfl⟩
    rcases hlive _ hchild with ⟨offset', hoffset, -, hall⟩
    rcases (UInt64.add_right_inj base).mp hoffset with rfl
    exact hall payloads hstores
  · intro hall child hchild
    rw [hreported] at hchild
    rcases List.mem_map.mp hchild with ⟨c, hc, rfl⟩
    rcases (hmem c).mp hc with ⟨hskip, hstores⟩
    exact ⟨c.offset, rfl, hstores, fun payloads hpath => hall payloads c.offset _ hpath hskip⟩

/-! ### Two joined branches -/

/-- An entry with no attributes. -/
def plainEntry (offset : Nat) (tag : Tag) : Entry where
  offset := offset
  tag := tag
  name := none
  typeRef := none
  dataMemberLocation := none
  discr := none
  discrValue := none
  byteSize := none
  declFile := none
  declLine := none

/-- A member of a type at a location. -/
def memberDie (offset typeRef : Nat) (location : UInt64) : Die :=
  .mk { plainEntry offset .member with
    typeRef := some typeRef
    dataMemberLocation := some location } []

/-- A variant with its value and its members. -/
def variantDie (offset : Nat) (value : UInt64) (members : List Die) : Die :=
  .mk { plainEntry offset .variant with discrValue := some value } members

/-- A variant part with the discriminant, a byte, at the start. -/
def variantPartDie (offset discrRef : Nat) (variants : List Die) : Die :=
  .mk { plainEntry offset .variantPart with discr := some discrRef }
    (memberDie discrRef 60 0 :: variants)

/-- The variant of `MaybeDone` with the future in it. -/
def pendingDie : Die := variantDie 23 0 [memberDie 24 40 8]

/-- `MaybeDone`: the future, or its output. -/
def maybeDone : Die := variantPartDie 21 22 [pendingDie, variantDie 25 1 [memberDie 26 60 8]]

/-- A coroutine that joins two branches, each in a `MaybeDone`. -/
def joinUnit : DwarfUnit where
  entriesTree
    | 1 => .ok (.mk (plainEntry 1 (.other 0x13))
        [variantPartDie 2 3 [variantDie 4 3 [memberDie 5 10 0]]])
    | 10 => .ok (.mk { plainEntry 10 (.other 0x13) with name := some "Suspend0" }
        [memberDie 11 20 8, memberDie 12 20 48])
    | 20 => .ok (.mk (plainEntry 20 (.other 0x13)) [maybeDone])
    | 60 => .ok (.mk { plainEntry 60 (.other 0x24) with byteSize := some 1 } [])
    | _ => .error (.dwarf "no entry at this offset")
  fileName _ := none

def joinIndex : UnitIndex where
  names
    | 1 => some joiner
    | 40 => some sleeper
    | _ => none
  coroutines offset := offset = 1 ∨ offset = 40

/-- The coroutine is at `0x1000`, in its only variant; its branches are as the bytes say. -/
def joined (first second : UInt8) : ProcessView := { allSuspended with
  readMemory := fun addr _ => .ok [
    if addr = 0x1000 then 3 else if addr = 0x1008 then first
    else if addr = 0x1030 then second else 0] }

/-- Nothing is stored in the output. -/
theorem not_leads_output {room target : Nat} {base offset : UInt64} {payloads : List Payload} :
    ¬ Leads joinUnit joinIndex room 60 base payloads target offset := by
  intro h
  cases room with
  | zero => cases h
  | succ room =>
    rw [leads_other_iff rfl rfl] at h
    rcases h with ⟨member, via, rest, hmember, -, -⟩
    cases hmember with
    | direct mem => cases mem
    | payload part => cases part

/-- The one member of `MaybeDone` with a coroutine in it. -/
theorem leads_maybeDone {room target : Nat} {base offset : UInt64} {payloads : List Payload}
    (h : Leads joinUnit joinIndex (room + 2) 20 base payloads target offset) :
    payloads = [⟨base, maybeDone, pendingDie⟩] ∧ offset = base + 8 := by
  rw [leads_other_iff rfl rfl] at h
  rcases h with ⟨member, via, rest, hmember, hleads, rfl⟩
  cases hmember with
  | direct mem info =>
    rcases List.mem_singleton.mp mem with rfl
    cases info
  | payload part _ mem variantTag inner info =>
    rcases List.mem_singleton.mp part with rfl
    rcases List.mem_cons.mp mem with rfl | mem
    · cases variantTag
    · rcases List.mem_pair.mp mem with rfl | rfl
      · rcases List.mem_singleton.mp inner with rfl
        rcases Option.some.inj info with rfl
        rcases (leads_coroutine_iff rfl).mp hleads with ⟨rfl, -, rfl⟩
        exact ⟨rfl, rfl⟩
      · rcases List.mem_singleton.mp inner with rfl
        rcases Option.some.inj info with rfl
        exact absurd hleads not_leads_output

/-- Every path in this unit leads through a `MaybeDone` that has the future. -/
theorem stores_joinUnit {payloads : List Payload} {offset : UInt64} {typeName : String}
    (h : Stores joinUnit joinIndex 10 payloads offset typeName) :
    (payloads = [⟨8, maybeDone, pendingDie⟩] ∧ offset = 16) ∨
      (payloads = [⟨48, maybeDone, pendingDie⟩] ∧ offset = 56) := by
  rcases h with ⟨die, member, via, rest, target, htree, hmember, hleads, -, rfl⟩
  rcases Except.ok.inj htree with rfl
  cases hmember with
  | direct mem info =>
    rcases List.mem_pair.mp mem with rfl | rfl
    · rcases Option.some.inj info with rfl
      exact .inl (leads_maybeDone hleads)
    · rcases Option.some.inj info with rfl
      exact .inr (leads_maybeDone hleads)
  | payload part partTag =>
    rcases List.mem_pair.mp part with rfl | rfl
    · cases partTag
    · cases partTag

/-- The discriminant of a `MaybeDone` tells whether the future is there. -/
theorem selected_pendingDie {view : ProcessView} {addr : UInt64} {byte : UInt8}
    (hread : view.readMemory addr 1 = .ok [byte]) :
    Selected joinUnit view addr maybeDone pendingDie ↔ orBytes [byte] = 0 := by
  have haddr : addr + 0 = addr := UInt64.add_zero addr
  constructor
  · rintro ⟨member, hmember, htag, -, bytes, hbytes, hvalue⟩
    rcases List.mem_cons.mp hmember with rfl | hmember
    · have hbytes : view.readMemory (addr + 0) 1 = .ok bytes := hbytes
      rw [haddr, hread] at hbytes
      rcases Except.ok.inj hbytes with rfl
      exact hvalue
    · rcases List.mem_pair.mp hmember with rfl | rfl
      · cases htag
      · cases htag
  · intro hvalue
    refine ⟨memberDie 22 60 0, List.mem_cons_self, rfl, rfl, [byte], ?_, hvalue⟩
    show view.readMemory (addr + 0) 1 = .ok [byte]
    rw [haddr, hread]

theorem stateStruct_joinUnit {stateRef : Nat} (h : StateStruct joinUnit 1 3 stateRef) :
    stateRef = 10 := by
  rcases h with ⟨root, hroot, part, hpart, -, variant, hvariant, htag, -, member, hhead, htype⟩
  rcases Except.ok.inj hroot with rfl
  rcases List.mem_singleton.mp hpart with rfl
  rcases List.mem_pair.mp hvariant with rfl | rfl
  · cases htag
  · rcases Option.some.inj hhead with rfl
    exact (Option.some.inj htype).symm

/-- While both branches are pending, what is reported is there. -/
theorem branches_active_pending :
    StateStruct joinUnit 1 3 10 ∧
      ∀ child ∈ [((0x1010 : UInt64), sleeper), (0x1038, sleeper)], ∃ offset,
        child.1 = 0x1000 + offset ∧
        (∃ payloads, Stores joinUnit joinIndex 10 payloads offset child.2) ∧
        ∀ payloads, Stores joinUnit joinIndex 10 payloads offset child.2 →
          Active joinUnit (joined 0 0) 0x1000 payloads := by
  have hlayout : ∃ layout, buildLayout joinUnit joinIndex 1 = .ok (some layout) ∧
      (∃ variant, activeVariant (joined 0 0) 0x1000 layout = .ok (3, variant) ∧
        variant.kind.isSuspend = true) ∧
      fanOutChildren (joined 0 0) 0x1000 layout = .ok [(0x1010, sleeper), (0x1038, sleeper)] :=
    ⟨_, rfl, ⟨_, rfl, rfl⟩, rfl⟩
  rcases hlayout with ⟨layout, hlayout, ⟨variant, hactive, hsuspend⟩, hchildren⟩
  rcases branches_active_iff hlayout hactive hsuspend hchildren with ⟨stateRef, hstate, hiff⟩
  rcases stateStruct_joinUnit hstate with rfl
  refine ⟨hstate, hiff.mpr ?_⟩
  intro payloads offset typeName hstores _ payload hpayload
  rcases stores_joinUnit hstores with ⟨rfl, -⟩ | ⟨rfl, -⟩
  · rcases List.mem_singleton.mp hpayload with rfl
    exact (selected_pendingDie rfl).mpr (by decide)
  · rcases List.mem_singleton.mp hpayload with rfl
    exact (selected_pendingDie rfl).mpr (by decide)

/-- One of the joined branches is done, and is reported all the same. -/
theorem done_branch_reported :
    StateStruct joinUnit 1 3 10 ∧
    (∃ layout, buildLayout joinUnit joinIndex 1 = .ok (some layout) ∧
      fanOutChildren (joined 1 0) 0x1000 layout =
        .ok [(0x1000 + 16, sleeper), (0x1000 + 56, sleeper)]) ∧
    (∃ payloads, Stores joinUnit joinIndex 10 payloads 16 sleeper) ∧
    ∀ payloads, Stores joinUnit joinIndex 10 payloads 16 sleeper →
      ¬ Active joinUnit (joined 1 0) 0x1000 payloads := by
  refine ⟨?_, ⟨_, rfl, rfl⟩, ?_, ?_⟩
  · exact ⟨_, rfl, _, List.mem_cons_self, rfl, _, List.mem_cons_of_mem _ List.mem_cons_self, rfl,
      rfl, _, rfl, rfl⟩
  · have hinner : MemberOf (.mk (plainEntry 20 (.other 0x13)) [maybeDone]) ⟨"", 8, 40⟩
        (some (maybeDone, pendingDie)) :=
      .payload List.mem_cons_self rfl (List.mem_cons_of_mem _ List.mem_cons_self) rfl
        List.mem_cons_self rfl
    exact ⟨_, _, ⟨"", 8, 20⟩, none, _, 40, rfl, .direct List.mem_cons_self rfl,
      .down rfl rfl hinner (.here rfl), rfl, rfl⟩
  · intro payloads hstores hactive
    rcases stores_joinUnit hstores with ⟨rfl, -⟩ | ⟨-, hoffset⟩
    · have hselected := hactive _ (List.mem_singleton.mpr rfl)
      exact absurd ((selected_pendingDie rfl).mp hselected) (by decide)
    · cases hoffset

end Mirrorscope.Decoder.AsyncRust
