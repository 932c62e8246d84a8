import Mathlib.Algebra.Group.Nat.Defs
import Mirrorscope.Decoder.AsyncRust

/-! # Coroutine layouts from debug information

The layout of a coroutine is read off the debug information entries of its type: the variant
part with the discriminant, the state struct of each variant, the future a suspended variant
awaits, and the coroutines that are stored inline somewhere below its members. Which payload of
an enum holds a value is not asked here: it is only known in a running process. As where the
layouts are used, sums of offsets are those of a release build, and wrap around; a build with
overflow checks gives the same layouts or stops.
-/

namespace Mirrorscope.Decoder.AsyncRust

/-! ## Entries -/

inductive AsyncDecodeError where
  | object (reason : String)
  | dwarf (reason : String)
  | notTokioBinary
  | noDebugInfo
  | unsupportedLayout (reason : String)
  | noCoroutines
deriving DecidableEq, Repr

/-- The tags that matter here. -/
inductive Tag where
  | member
  | variantPart
  | variant
  | other (raw : UInt16)
deriving DecidableEq, Repr

/-- The attributes of an entry, as far as they are asked for. References are offsets in the
unit. -/
structure Entry where
  offset : Nat
  tag : Tag
  name : Option String
  typeRef : Option Nat
  dataMemberLocation : Option UInt64
  discr : Option Nat
  discrValue : Option UInt64
  byteSize : Option UInt64
  declFile : Option UInt64
  declLine : Option UInt64

/-- An entry with the entries below it. -/
inductive Die where
  | mk (entry : Entry) (children : List Die)

namespace Die

def entry : Die → Entry
  | .mk entry _ => entry

def children : Die → List Die
  | .mk _ children => children

def tag (die : Die) : Tag := die.entry.tag

end Die

/-- A unit as the reader of the debug information gives it: the tree at an offset, and the file
table. -/
structure DwarfUnit where
  entriesTree : Nat → Except AsyncDecodeError Die
  fileName : UInt64 → Option String

/-- The qualified names of the types of a unit, and which of them are coroutines. -/
structure UnitIndex where
  names : Nat → Option String
  coroutines : Nat → Bool

/-! ## Variants by name -/

def parseDigits : List Char → Option Nat
  | [] => none
  | cs => cs.foldlM (fun n c => if c.isDigit then some (10 * n + (c.toNat - 48)) else none) 0

/-- A number of 16 bits in decimal, with a plus sign or without. -/
def parseU16 (text : List Char) : Option UInt16 := do
  let digits := match text with
    | '+' :: rest => rest
    | _ => text
  let n ← parseDigits digits
  if n < 2 ^ 16 then some (UInt16.ofNat n) else none

def VariantKind.fromStructName (name : String) : Option VariantKind :=
  if name = "Unresumed" then some .unresumed
  else if name = "Returned" then some .returned
  else if name = "Panicked" then some .panicked
  else if "Suspend".toList.isPrefixOf name.toList then
    (parseU16 (name.toList.drop 7)).map .suspend
  else none

def VariantInfo.terminal (kind : VariantKind) : VariantInfo where
  kind := kind
  awaitLocation := none
  awaitee := none
  children := []

/-! ## Members -/

/-- One member of a struct or of the payload of a variant. -/
structure MemberInfo where
  name : String
  offset : UInt64
  typeRef : Nat
deriving DecidableEq, Repr

/-- A struct by its own name and its members. -/
structure StructInfo where
  localName : String
  members : List MemberInfo

/-- The member an entry stands for, if it is one and has a type. -/
def memberInfo (base : UInt64) (die : Die) : Option MemberInfo :=
  if die.tag = .member then
    die.entry.typeRef.map fun typeRef =>
      { name := die.entry.name.getD ""
        offset := base + die.entry.dataMemberLocation.getD 0
        typeRef }
  else none

/-- The members of all payloads of an enum. -/
def readVariantPayloads (variantPart : Die) (base : UInt64) : List MemberInfo :=
  variantPart.children.flatMap fun variant =>
    if variant.tag = .variant then variant.children.filterMap (memberInfo base) else []

/-- The members of a struct, with those of all payloads of an enum in their place. -/
def readMembers (node : Die) (base : UInt64) : List MemberInfo :=
  node.children.flatMap fun child =>
    if child.tag = .member then (memberInfo base child).toList
    else if child.tag = .variantPart then readVariantPayloads child base
    else []

def maxChildDepth : Nat := 8

section Build

variable (unit : DwarfUnit) (index : UnitIndex)

def readStruct (offset : Nat) : Except AsyncDecodeError StructInfo := do
  let root ← unit.entriesTree offset
  pure { localName := root.entry.name.getD "", members := readMembers root 0 }

/-- The coroutines stored inline at or below a type, but for the one at `skipOffset`. The search
goes no further at a coroutine, and no deeper than `room` levels. -/
def collectChildren (skipOffset : Option UInt64) :
    Nat → List ChildRef → Nat → UInt64 → Except AsyncDecodeError (List ChildRef)
  | 0, out, _, _ => pure out
  | room + 1, out, typeRef, base =>
    if index.coroutines typeRef then
      if some base ≠ skipOffset then
        match index.names typeRef with
        | some name => pure (out ++ [⟨base, name⟩])
        | none => pure out
      else pure out
    -- a plain struct: its members may hold coroutines
    else do
      let info ← readStruct unit typeRef
      info.members.foldlM
        (fun out member =>
          collectChildren skipOffset room out member.typeRef (base + member.offset)) out

/-- A reference to the future that is stored in a member. -/
def childRef (member : MemberInfo) : Option ChildRef :=
  (index.names member.typeRef).map fun name => ⟨member.offset, name⟩

def discrMemberSize (entry : Entry) : Except AsyncDecodeError (Option UInt8) :=
  match entry.typeRef with
  | none => pure none
  | some typeRef => do
    let root ← unit.entriesTree typeRef
    pure (root.entry.byteSize.map UInt64.toUInt8)

def declLocation (entry : Entry) : Option SourceLocation :=
  entry.declLine.map fun line =>
    { path := (entry.declFile.bind unit.fileName).getD ""
      line := line.toUInt32
      column := 0 }

/-- One variant of a coroutine: its discriminant value, and what its state struct says. -/
def readVariant (variant : Die) : Except AsyncDecodeError (Option (UInt64 × VariantInfo)) := do
  let discrValue := variant.entry.discrValue.getD 0
  match variant.children.head? with
  | none => pure none
  | some member =>
    match member.entry.typeRef with
    | none => pure none
    | some stateRef => do
      let awaitLocation := declLocation unit member.entry
      let state ← readStruct unit stateRef
      match VariantKind.fromStructName state.localName with
      | none => pure none
      | some kind =>
        -- unresumed, returned or panicked: nothing is held
        if ¬ kind.isSuspend then pure (some (discrValue, .terminal kind))
        else do
          let awaitee := (state.members.find? fun m => m.name = "__awaitee").bind (childRef index)
          let children ← state.members.foldlM
            (fun out member => collectChildren unit index (awaitee.map ChildRef.offset)
              (maxChildDepth + 1) out member.typeRef member.offset) []
          pure (some (discrValue, { kind, awaitLocation, awaitee, children }))

/-- The discriminant and the variants found so far. -/
structure Parts where
  discrOffset : Option UInt64
  discrSize : UInt8
  variants : KeyMap UInt64 VariantInfo

/-- Look at one entry of the variant part. -/
def visitPart (discrRef : Nat) (parts : Parts) (child : Die) : Except AsyncDecodeError Parts :=
  if child.tag = .member ∧ child.entry.offset = discrRef then do
    let size ← discrMemberSize unit child.entry
    pure { parts with discrOffset := child.entry.dataMemberLocation, discrSize := size.getD 1 }
  else if child.tag = .variant then do
    match ← readVariant unit index child with
    | some (value, info) => pure { parts with variants := parts.variants.insert value info }
    | none => pure parts
  else pure parts

def buildFromVariantPart (variantPart : Die) (typeName : String) :
    Except AsyncDecodeError (Option AsyncFnLayout) :=
  match variantPart.entry.discr with
  | none => pure none
  | some discrRef => do
    let parts ← variantPart.children.foldlM (visitPart unit index discrRef)
      { discrOffset := none, discrSize := 1, variants := ∅ }
    match parts.discrOffset with
    | none => pure none
    | some discrOffset =>
      pure (some { typeName, discrOffset, discrSize := parts.discrSize, variants := parts.variants })

/-- The layout of the coroutine at `coroOff`, if it has a discriminant. -/
def buildLayout (coroOff : Nat) : Except AsyncDecodeError (Option AsyncFnLayout) :=
  match index.names coroOff with
  | none => pure none
  | some typeName => do
    let root ← unit.entriesTree coroOff
    match root.children.find? fun child => child.tag = .variantPart with
    | none => pure none
    | some variantPart => buildFromVariantPart unit index variantPart typeName

end Build

end Mirrorscope.Decoder.AsyncRust
