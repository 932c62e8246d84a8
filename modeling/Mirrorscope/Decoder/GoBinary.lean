import Mirrorscope.Decoder.GoLayout
import Mirrorscope.Decoder.GoWalk

/-! # What a Go binary says of its runtime

The walk over the debug information finds the first declaration of each struct, wherever it stands,
and the last member of a name in it. The layout has each field where the structs nest it.

The decoder reads the debug information once and then looks things up:
* `visited`, `walk_eq`: the walk as a fold over the entries it reaches.
* `Legible`: an entry whose attributes can be read as far as the walk asks for them.
* `readDwarf_eq_ok_iff`: what is kept of all units. `declared`, `members`: the same in words.
* `assembleOffsets_eq_some`: each field of the layout as a path through nested structs.
* `loadLayout_eq_ok_iff`: the layout of a binary, from its debug information or from the table
  of versions.
-/

namespace Mirrorscope.Decoder.Go

open Checked
open Effect (except_bind_eq_ok optionT_bind_eq_some optionT_bind_ok optionT_pure_eq_some)

/-! ## Declarations -/

/-- The struct an entry declares, if it is one that is looked for. -/
def Entry.target (entry : Entry) : Option String :=
  if entry.tag = .structureType then entry.name.toOption.bind wanted else none

mutual

/-- The entries the walk comes to: nothing below a struct that is looked for. -/
def visited : Die → List Die
  | .mk entry children =>
    .mk entry children :: if entry.target.isSome then [] else visitedAll children

def visitedAll : List Die → List Die
  | [] => []
  | child :: children => visited child ++ visitedAll children

end

/-- A member by its name, with its offset. -/
def memberDecl (child : Die) : Option (String × UInt64) :=
  if child.entry.tag = .member then
    child.entry.name.toOption.join.bind fun name =>
      child.entry.dataMemberLocation.toOption.join.map fun offset => (name, offset)
  else none

def members (die : Die) : KeyMap String UInt64 :=
  (die.children.filterMap memberDecl).foldl (fun members p => members.insert p.1 p.2) ∅

/-- An entry in a unit with addresses of this width. -/
abbrev Seen := UInt8 × Die

def structDecl (seen : Seen) : Option (String × KeyMap String UInt64) :=
  seen.2.entry.target.map fun name => (name, members seen.2)

/-- The address at the front of some bytes. -/
def addressAt (littleEndian : Bool) (size : UInt8) (bytes : List UInt8) : Option UInt64 :=
  if size ∈ addressSizes ∧ size.toNat ≤ bytes.length then
    let word := bytes.take size.toNat
    some (UInt64.ofNat (LittleEndian.decode (if littleEndian then word else word.reverse)))
  else none

/-- The address that stands in a location: behind `DW_OP_addr`. -/
def locationAddr (littleEndian : Bool) (size : UInt8) : Option (List UInt8) → Option UInt64
  | some (0x03 :: bytes) => addressAt littleEndian size bytes
  | _ => none

/-- The name and the address of a variable that has both. -/
def varDecl (littleEndian : Bool) (seen : Seen) : Option (String × UInt64) :=
  if seen.2.entry.tag = .variable then
    (seen.2.entry.name.toOption.join.filter targetVars.contains).bind fun name =>
      (seen.2.entry.location.toOption.bind (locationAddr littleEndian seen.1)).map fun addr =>
        (name, addr)
  else none

/-- What is asked of the entry can be read. -/
structure Legible (die : Die) : Prop where
  name : ∃ name, die.entry.name = .ok name
  location : die.entry.tag = .variable → ∃ location, die.entry.location = .ok location
  members : die.entry.target.isSome → ∀ child ∈ die.children, child.entry.tag = .member →
    (∃ name, child.entry.name = .ok name) ∧
      ∃ offset, child.entry.dataMemberLocation = .ok offset

/-- What is known after more entries were seen. -/
def RuntimeInfo.taken (littleEndian : Bool) (found : RuntimeInfo) (seen : List Seen) :
    RuntimeInfo where
  structs :=
    (seen.filterMap structDecl).foldl (fun m p => KeyMap.insertNew m p.1 p.2) found.structs
  vars :=
    (seen.filterMap (varDecl littleEndian)).foldl (fun m p => KeyMap.insertNew m p.1 p.2) found.vars

theorem RuntimeInfo.taken_append (littleEndian : Bool) (found : RuntimeInfo)
    (seen more : List Seen) : found.taken littleEndian (seen ++ more) =
      (found.taken littleEndian seen).taken littleEndian more := by
  simp only [RuntimeInfo.taken, List.filterMap_append, List.foldl_append]

/-! ## Addresses -/

/-- Writing down a number that was read gives back its bytes. -/
theorem addressBytes_decode {littleEndian : Bool} {size : UInt8} {word : List UInt8}
    (h : word.length = size.toNat) :
    addressBytes littleEndian size
      (LittleEndian.decode (if littleEndian then word else word.reverse)) = word := by
  unfold addressBytes
  cases littleEndian with
  | true => exact LittleEndian.encode_decode_of_length h
  | false =>
    have hreverse : word.reverse.length = size.toNat := by rw [List.length_reverse, h]
    simp [LittleEndian.encode_decode_of_length hreverse]

/-- What the reader does at the front of any bytes. -/
theorem readAddress_eq [AddressReader] (littleEndian : Bool) (size : UInt8)
    (bytes : List UInt8) :
    AddressReader.readAddress littleEndian size bytes = addressAt littleEndian size bytes := by
  by_cases hsize : size ∈ addressSizes
  · by_cases hlength : size.toNat ≤ bytes.length
    · -- The bytes are those of a number in the size asked for, so the reader gives that number.
      let word := bytes.take size.toNat
      have hword : word.length = size.toNat := List.length_take_of_le hlength
      let n := LittleEndian.decode (if littleEndian then word else word.reverse)
      have hn : n < 256 ^ size.toNat := by
        have hlt := LittleEndian.decode_lt (if littleEndian then word else word.reverse)
        cases littleEndian with
        | true => exact hword ▸ hlt
        | false => exact hword ▸ List.length_reverse ▸ hlt
      have hsmall : 256 ^ size.toNat ≤ 2 ^ 64 := by
        have hwidth : size.toNat ≤ 8 := by
          simp only [addressSizes, List.mem_cons, List.not_mem_nil, or_false] at hsize
          rcases hsize with rfl | rfl | rfl | rfl <;> decide
        have hle : 256 ^ size.toNat ≤ 256 ^ 8 := Nat.pow_le_pow_right (by decide) hwidth
        omega
      have haddr : (UInt64.ofNat n).toNat = n :=
        UInt64.toNat_ofNat_of_lt' (Nat.lt_of_lt_of_le hn hsmall)
      have hbytes : bytes = addressBytes littleEndian size (UInt64.ofNat n).toNat ++
          bytes.drop size.toNat := by
        rw [haddr, addressBytes_decode hword, List.take_append_drop]
      rw [hbytes, AddressReader.whole hsize (by rwa [haddr]), ← hbytes, addressAt,
        if_pos ⟨hsize, hlength⟩]
    · rw [AddressReader.short (Nat.lt_of_not_le hlength), addressAt,
        if_neg fun h => hlength h.2]
  · rw [AddressReader.unsupported hsize, addressAt, if_neg fun h => hsize h.1]

/-- The location of a variable is an address if its first operation is `DW_OP_addr`. -/
theorem variableAddr_eq [AddressReader] (littleEndian : Bool) (size : UInt8)
    (location : Option (List UInt8)) :
    variableAddr littleEndian size location = locationAddr littleEndian size location := by
  by_cases haddr : ∃ bytes, location = some (0x03 :: bytes)
  · obtain ⟨bytes, rfl⟩ := haddr
    exact readAddress_eq littleEndian size bytes
  · -- no other expression is read as an address
    have hleft : variableAddr littleEndian size location = none := by
      unfold variableAddr
      split
      · exact absurd ⟨_, rfl⟩ haddr
      · rfl
    have hright : locationAddr littleEndian size location = none := by
      unfold locationAddr
      split
      · exact absurd ⟨_, rfl⟩ haddr
      · rfl
    rw [hleft, hright]

/-! ## The walk, entry by entry -/

section Walk

variable [AddressReader] (littleEndian : Bool) (size : UInt8)

/-- What the walk does at one entry. -/
def visit (found : RuntimeInfo) : Die → Except GoDecodeError RuntimeInfo
  | .mk entry children => do
    let name ← entry.name
    let addr ← entryAddr littleEndian size entry
    if entry.tag = .structureType then
      match wanted name with
      | some name => do
        let members ← readMembers children
        pure (found.noteStruct name members)
      | none => pure found
    else if entry.tag = .variable then pure (found.noteVar name addr)
    else pure found

mutual

/-- The walk is a pass over the entries it comes to. -/
theorem walk_eq : ∀ (die : Die) (found : RuntimeInfo),
    walk littleEndian size die found = (visited die).foldlM (visit littleEndian size) found
  | .mk entry children, found => by
    rw [walk, visited, List.foldlM_cons, visit]
    cases hname : entry.name with
    | error e => rfl
    | ok name =>
      cases haddr : entryAddr littleEndian size entry with
      | error e => rfl
      | ok addr =>
        simp only [Effect.except_ok_bind]
        -- A wanted struct is read and not entered; all else is entered.
        by_cases hstruct : entry.tag = .structureType
        · have htarget : entry.target = wanted name := by
            rw [Entry.target, if_pos hstruct, hname]
            rfl
          rw [if_pos hstruct, if_pos hstruct, htarget]
          cases hwanted : wanted name with
          | none => exact walkAll_eq children found
          | some target =>
            dsimp only
            cases readMembers children <;> rfl
        · have htarget : entry.target = none := if_neg hstruct
          rw [if_neg hstruct, if_neg hstruct, htarget]
          by_cases hvariable : entry.tag = .variable
          · rw [if_pos hvariable, if_pos hvariable]
            exact walkAll_eq children _
          · rw [if_neg hvariable, if_neg hvariable]
            exact walkAll_eq children found

theorem walkAll_eq : ∀ (dies : List Die) (found : RuntimeInfo),
    walkAll littleEndian size dies found =
      (visitedAll dies).foldlM (visit littleEndian size) found
  | [], found => by
    rw [walkAll, visitedAll]
    rfl
  | child :: children, found => by
    rw [walkAll, visitedAll, List.foldlM_append, walk_eq child found]
    congr 1
    funext found
    exact walkAll_eq children found

end

end Walk

/-! ## One entry -/

/-- A member is put in by its name, if it has a name and a plain offset. -/
theorem readMember_eq_ok_iff {before after : KeyMap String UInt64} {child : Die} :
    readMember before child = .ok after ↔
      (child.entry.tag = .member → (∃ name, child.entry.name = .ok name) ∧
        ∃ offset, child.entry.dataMemberLocation = .ok offset) ∧
      after = ((memberDecl child).toList).foldl (fun m p => m.insert p.1 p.2) before := by
  unfold readMember memberDecl
  by_cases htag : child.entry.tag = .member
  · rw [if_pos htag, if_pos htag]
    cases hname : child.entry.name with
    | error e => simp [htag, bind, Except.bind]
    | ok name =>
      cases hoffset : child.entry.dataMemberLocation with
      | error e => simp [htag, bind, Except.bind]
      | ok offset =>
        cases name <;> cases offset <;>
          simp [bind, Except.bind, pure, Except.pure, Except.toOption, eq_comm]
  · simp [htag, pure, Except.pure, eq_comm]

/-- The members of a struct, a later one of a name over an earlier one. -/
theorem readMembers_eq_ok_iff {children : List Die} {after : KeyMap String UInt64} :
    readMembers children = .ok after ↔
      (∀ child ∈ children, child.entry.tag = .member → (∃ name, child.entry.name = .ok name) ∧
        ∃ offset, child.entry.dataMemberLocation = .ok offset) ∧
      after = (children.filterMap memberDecl).foldl (fun m p => m.insert p.1 p.2) ∅ := by
  unfold readMembers
  generalize (∅ : KeyMap String UInt64) = before
  induction children generalizing before with
  | nil => simp [pure, Except.pure, eq_comm]
  | cons child children ih =>
    rw [List.foldlM_cons, except_bind_eq_ok]
    simp only [readMember_eq_ok_iff, ih, List.forall_mem_cons]
    have hsplit : (child :: children).filterMap memberDecl =
        (memberDecl child).toList ++ children.filterMap memberDecl := by
      rw [List.filterMap_cons]
      cases memberDecl child <;> rfl
    rw [hsplit, List.foldl_append]
    constructor
    · rintro ⟨mid, ⟨hchild, rfl⟩, hrest, rfl⟩
      exact ⟨⟨hchild, hrest⟩, rfl⟩
    · rintro ⟨⟨hchild, hrest⟩, rfl⟩
      exact ⟨_, ⟨hchild, rfl⟩, hrest, rfl⟩

/-- Only of a variable is the location read. -/
theorem entryAddr_eq_ok_iff [AddressReader] {littleEndian : Bool} {size : UInt8} {entry : Entry}
    {addr : Option UInt64} : entryAddr littleEndian size entry = .ok addr ↔
      (entry.tag = .variable → ∃ location, entry.location = .ok location) ∧
      addr = if entry.tag = .variable then
        entry.location.toOption.bind (locationAddr littleEndian size) else none := by
  unfold entryAddr
  by_cases htag : entry.tag = .variable
  · rw [if_pos htag, if_pos htag]
    cases hlocation : entry.location <;>
      simp [htag, variableAddr_eq, bind, Except.bind, pure, Except.pure, Except.toOption, eq_comm]
  · simp [htag, pure, Except.pure, eq_comm]

section Visit

variable {littleEndian : Bool} {size : UInt8} {found after : RuntimeInfo} {entry : Entry}
  {children : List Die} {name : Option String}

/-- One entry adds at most a struct or a variable, and no second one of a name. -/
theorem taken_one (seen : Seen) : found.taken littleEndian [seen] = {
    structs := (structDecl seen).elim found.structs fun p =>
      KeyMap.insertNew found.structs p.1 p.2
    vars := (varDecl littleEndian seen).elim found.vars fun p =>
      KeyMap.insertNew found.vars p.1 p.2 } := by
  rw [RuntimeInfo.taken, List.filterMap_cons, List.filterMap_cons]
  cases structDecl seen <;> cases varDecl littleEndian seen <;> rfl

/-- A wanted struct is noted with its members. -/
theorem taken_struct {target : String} (htag : entry.tag = .structureType)
    (htarget : entry.target = some target) :
    found.taken littleEndian [(size, .mk entry children)] =
      found.noteStruct target (members (.mk entry children)) := by
  have hstruct : structDecl (size, .mk entry children) =
      some (target, members (.mk entry children)) := congrArg (Option.map _) htarget
  have hvar : varDecl littleEndian (size, .mk entry children) = none :=
    if_neg (htag.trans_ne (by decide))
  rw [taken_one, hstruct, hvar]
  rfl

/-- An entry that is neither leaves everything. -/
theorem taken_plain (htag : entry.tag ≠ .variable) (htarget : entry.target = none) :
    found.taken littleEndian [(size, .mk entry children)] = found := by
  have hstruct : structDecl (size, .mk entry children) = none := congrArg (Option.map _) htarget
  have hvar : varDecl littleEndian (size, .mk entry children) = none := if_neg htag
  rw [taken_one, hstruct, hvar]
  rfl

/-- A variable is noted if it has an address. -/
theorem taken_variable (htag : entry.tag = .variable) (hname : entry.name = .ok name) :
    found.taken littleEndian [(size, .mk entry children)] =
      found.noteVar name (entry.location.toOption.bind (locationAddr littleEndian size)) := by
  have htarget : entry.target = none := if_neg (htag.trans_ne (by decide))
  have hstruct : structDecl (size, .mk entry children) = none := congrArg (Option.map _) htarget
  have hvar : varDecl littleEndian (size, .mk entry children) =
      (name.filter targetVars.contains).bind fun name =>
        (entry.location.toOption.bind (locationAddr littleEndian size)).map fun addr =>
          (name, addr) := by
    refine (if_pos htag).trans ?_
    change (entry.name.toOption.join.filter _).bind _ = _
    rw [hname]
    rfl
  rw [taken_one, hstruct, hvar]
  cases name with
  | none => rfl
  | some name =>
    cases entry.location.toOption.bind (locationAddr littleEndian size) with
    | none => simp [RuntimeInfo.noteVar]
    | some addr =>
      by_cases hwanted : name ∈ targetVars <;>
        simp [RuntimeInfo.noteVar, Option.filter_some, hwanted]

/-- The walk gets past an entry that can be read, and knows what it declares. -/
theorem visit_eq_ok_iff [AddressReader] {die : Die} : visit littleEndian size found die = .ok after ↔
    Legible die ∧ after = found.taken littleEndian [(size, die)] := by
  obtain ⟨entry, children⟩ := die
  rw [visit]
  cases hname : entry.name with
  | error e =>
    refine iff_of_false nofun ?_
    rintro ⟨⟨⟨name, h⟩, -, -⟩, -⟩
    exact absurd (hname.symm.trans h) nofun
  | ok name =>
    have hlegible : Legible (.mk entry children) ↔
        (entry.tag = .variable → ∃ location, entry.location = .ok location) ∧
        (entry.target.isSome → ∀ child ∈ children, child.entry.tag = .member →
          (∃ name, child.entry.name = .ok name) ∧
            ∃ offset, child.entry.dataMemberLocation = .ok offset) :=
      ⟨fun h => ⟨h.location, h.members⟩, fun h => ⟨⟨name, hname⟩, h.1, h.2⟩⟩
    rw [Effect.except_ok_bind, except_bind_eq_ok, hlegible]
    simp only [entryAddr_eq_ok_iff]
    -- A struct, a variable, or an entry of which only the name is read.
    by_cases hstruct : entry.tag = .structureType
    · have hvariable : entry.tag ≠ .variable := hstruct.trans_ne (by decide)
      have htarget : entry.target = wanted name := by
        rw [Entry.target, if_pos hstruct, hname]
        rfl
      simp only [if_pos hstruct]
      cases hwanted : wanted name with
      | none =>
        rw [taken_plain hvariable (htarget.trans hwanted), htarget, hwanted]
        simp [hvariable, pure, Except.pure, eq_comm]
      | some target =>
        rw [taken_struct hstruct (htarget.trans hwanted), htarget, hwanted]
        dsimp only
        rw [except_bind_eq_ok]
        simp only [readMembers_eq_ok_iff]
        constructor
        · rintro ⟨addr, hlocation, fields, ⟨hfields, rfl⟩, hafter⟩
          exact ⟨⟨hlocation.1, fun _ => hfields⟩, (Except.ok.inj hafter).symm⟩
        · rintro ⟨⟨hlocation, hfields⟩, rfl⟩
          exact ⟨_, ⟨hlocation, rfl⟩, _, ⟨hfields rfl, rfl⟩, rfl⟩
    · have htarget : entry.target = none := if_neg hstruct
      simp only [if_neg hstruct, htarget]
      by_cases hvariable : entry.tag = .variable
      · rw [taken_variable hvariable hname]
        simp only [hvariable, if_true]
        constructor
        · rintro ⟨addr, ⟨hlocation, rfl⟩, hafter⟩
          exact ⟨⟨hlocation, nofun⟩, (Except.ok.inj hafter).symm⟩
        · rintro ⟨⟨hlocation, -⟩, rfl⟩
          exact ⟨_, ⟨hlocation, rfl⟩, rfl⟩
      · rw [taken_plain hvariable htarget]
        simp [hvariable, pure, Except.pure, eq_comm]

end Visit

/-! ## All units -/

/-- The entries that the walks over all units come to, if every unit can be read. -/
def entries : List (Except GoDecodeError GoUnit) → Option (List Seen)
  | [] => some []
  | unit :: units => do
    let unit ← unit.toOption
    let root ← unit.root.toOption
    let rest ← entries units
    pure ((visited root).map (fun die => (unit.addressSize, die)) ++ rest)

section Units

variable {littleEndian : Bool} {found after : RuntimeInfo}

/-- All entries of a unit, by induction on the list of them. -/
theorem foldlM_visit_eq_ok_iff [AddressReader] {size : UInt8} {dies : List Die} :
    dies.foldlM (visit littleEndian size) found = .ok after ↔
      (∀ die ∈ dies, Legible die) ∧
      after = found.taken littleEndian (dies.map fun die => (size, die)) := by
  induction dies generalizing found with
  | nil => simp [pure, Except.pure, RuntimeInfo.taken, eq_comm]
  | cons die dies ih =>
    rw [List.foldlM_cons, except_bind_eq_ok, List.map_cons, List.forall_mem_cons]
    simp only [visit_eq_ok_iff, ih]
    have hsplit := found.taken_append littleEndian [(size, die)]
      (dies.map fun die => (size, die))
    rw [List.singleton_append] at hsplit
    rw [hsplit]
    constructor
    · rintro ⟨mid, ⟨hdie, rfl⟩, hdies, rfl⟩
      exact ⟨⟨hdie, hdies⟩, rfl⟩
    · rintro ⟨⟨hdie, hdies⟩, rfl⟩
      exact ⟨_, ⟨hdie, rfl⟩, hdies, rfl⟩

/-- The entries of the first unit, before those of the others. -/
theorem entries_ok {unit : GoUnit} {root : Die} (hroot : unit.root = .ok root)
    (units : List (Except GoDecodeError GoUnit)) : entries (.ok unit :: units) =
      (entries units).map fun rest =>
        (visited root).map (fun die => (unit.addressSize, die)) ++ rest := by
  rw [entries]
  change (unit.root.toOption >>= _) = _
  rw [hroot]
  cases entries units <;> rfl

theorem foldlM_readUnit_eq_ok_iff [AddressReader] {units : List (Except GoDecodeError GoUnit)} :
    units.foldlM (readUnit littleEndian) found = .ok after ↔
      ∃ seen, entries units = some seen ∧ (∀ s ∈ seen, Legible s.2) ∧
        after = found.taken littleEndian seen := by
  induction units generalizing found with
  | nil => simp [entries, pure, Except.pure, RuntimeInfo.taken, eq_comm]
  | cons unit units ih =>
    rw [List.foldlM_cons, except_bind_eq_ok]
    simp only [ih]
    cases unit with
    | error e => simp [readUnit, entries, Except.toOption, bind, Except.bind]
    | ok unit =>
      -- A unit whose root cannot be read ends the walk.
      cases hroot : unit.root with
      | error e => simp [readUnit, entries, hroot, Except.toOption, bind, Except.bind]
      | ok root =>
        rw [entries_ok hroot]
        have hunit (mid : RuntimeInfo) : readUnit littleEndian found (.ok unit) = .ok mid ↔
            (∀ die ∈ visited root, Legible die) ∧ mid = found.taken littleEndian
              ((visited root).map fun die => (unit.addressSize, die)) := by
          rw [readUnit, Effect.except_ok_bind, hroot, Effect.except_ok_bind, walk_eq,
            foldlM_visit_eq_ok_iff]
        simp only [hunit]
        constructor
        · rintro ⟨mid, ⟨hvisited, rfl⟩, rest, hrest, hlegible, rfl⟩
          refine ⟨_, by rw [hrest]; rfl, ?_, (found.taken_append ..).symm⟩
          intro s hs
          rcases List.mem_append.mp hs with hs | hs
          · obtain ⟨die, hdie, rfl⟩ := List.mem_map.mp hs
            exact hvisited die hdie
          · exact hlegible s hs
        · rintro ⟨seen, hseen, hlegible, rfl⟩
          obtain ⟨rest, hrest, rfl⟩ := Option.map_eq_some_iff.mp hseen
          refine ⟨_, ⟨?_, rfl⟩, rest, hrest, ?_, found.taken_append ..⟩
          · intro die hdie
            exact hlegible (unit.addressSize, die)
              (List.mem_append_left _ (List.mem_map_of_mem hdie))
          · exact fun s hs => hlegible s (List.mem_append_right _ hs)

end Units

/-! ## What the layout is made of -/

/-- The first declaration of a struct. -/
def declared (seen : List Seen) (name : String) : Option Die :=
  (seen.map Prod.snd).find? fun die => die.entry.target = some name

/-- The offset of the last member with this name. -/
def Die.fieldOffset (die : Die) (field : String) : Option UInt64 :=
  ((die.children.filterMap memberDecl).reverse.find? fun m => m.1 = field).map Prod.snd

def offsetOf (seen : List Seen) (struct field : String) : Option UInt64 :=
  (declared seen struct).bind fun die => die.fieldOffset field

/-- The first static address of a variable. -/
def staticAddr (littleEndian : Bool) (seen : List Seen) (name : String) : Option UInt64 :=
  ((seen.filterMap (varDecl littleEndian)).find? fun v => v.1 = name).map Prod.snd

/-- The first declaration of a struct is found. -/
theorem find_structDecl (seen : List Seen) (name : String) :
    ((seen.filterMap structDecl).find? fun p => p.1 = name).map Prod.snd =
      (declared seen name).map members := by
  rw [declared]
  induction seen with
  | nil => rfl
  | cons first seen ih =>
    cases htarget : first.2.entry.target with
    | none =>
      have hnone : structDecl first = none := congrArg (Option.map _) htarget
      rw [List.filterMap_cons_none hnone, ih, List.map_cons,
        List.find?_cons_of_neg (by simp [htarget])]
    | some target =>
      have hsome : structDecl first = some (target, members first.2) :=
        congrArg (Option.map _) htarget
      rw [List.filterMap_cons_some hsome, List.map_cons]
      by_cases hname : target = name
      · rw [List.find?_cons_of_pos (by simp [hname]),
          List.find?_cons_of_pos (by simp [htarget, hname])]
        rfl
      · rw [List.find?_cons_of_neg (by simp [hname]), ih,
          List.find?_cons_of_neg (by simp [htarget, hname])]

/-- The table answers with it. -/
theorem structs_taken (littleEndian : Bool) (seen : List Seen) (name : String) :
    (RuntimeInfo.new.taken littleEndian seen).structs[name]? =
      (declared seen name).map members := by
  rw [RuntimeInfo.taken, KeyMap.get_foldl_insertNew, RuntimeInfo.new, KeyMap.get_empty,
    find_structDecl]
  rfl

/-- The offset of a field, by what the walk has found. -/
def offsetIn (structs : KeyMap String (KeyMap String UInt64)) (struct field : String) :
    Option UInt64 :=
  structs[struct]?.bind fun members => members[field]?

/-- And with the last member of a name in it. -/
theorem offsetIn_taken (littleEndian : Bool) (seen : List Seen) :
    offsetIn (RuntimeInfo.new.taken littleEndian seen).structs = offsetOf seen := by
  funext struct field
  rw [offsetIn, structs_taken, offsetOf]
  cases declared seen struct with
  | none => rfl
  | some die =>
    change (members die)[field]? = die.fieldOffset field
    rw [members, KeyMap.get_foldl_pairs, KeyMap.get_empty, Option.or_none]
    rfl

theorem vars_taken (littleEndian : Bool) (seen : List Seen) (name : String) :
    (RuntimeInfo.new.taken littleEndian seen).vars[name]? = staticAddr littleEndian seen name := by
  rw [RuntimeInfo.taken, KeyMap.get_foldl_insertNew, RuntimeInfo.new, KeyMap.get_empty]
  rfl

/-! ## Offsets -/

/-- The offset of a field inside of nested structs, each step a struct and a field of it. -/
def pathOffset (declares : String → String → Option UInt64) : List (String × String) → Option UInt64
  | [] => some 0
  | step :: path => do
    let outer ← declares step.1 step.2
    let inner ← pathOffset declares path
    if Fits outer inner then some (outer + inner) else none

/-- The fields that are read of a goroutine, and where its struct has them. -/
def fieldPaths : List ((GStructOffsets → UInt64) × List (String × String)) :=
  [(GStructOffsets.goid, [("runtime.g", "goid")]),
    (GStructOffsets.atomicstatus, [("runtime.g", "atomicstatus")]),
    (GStructOffsets.waitreason, [("runtime.g", "waitreason")]),
    (GStructOffsets.stackLo, [("runtime.g", "stack"), ("runtime.stack", "lo")]),
    (GStructOffsets.stackHi, [("runtime.g", "stack"), ("runtime.stack", "hi")]),
    (GStructOffsets.schedPc, [("runtime.g", "sched"), ("runtime.gobuf", "pc")]),
    (GStructOffsets.schedSp, [("runtime.g", "sched"), ("runtime.gobuf", "sp")]),
    (GStructOffsets.gopc, [("runtime.g", "gopc")]),
    (GStructOffsets.startpc, [("runtime.g", "startpc")]),
    (GStructOffsets.m, [("runtime.g", "m")])]

/-- The offsets are those that the structs declare. -/
structure Assembled (declares : String → String → Option UInt64) (g : GStructOffsets)
    (mProcid : Option UInt64) : Prop where
  fields : ∀ p ∈ fieldPaths, pathOffset declares p.2 = some (p.1 g)
  parentGoid : g.parentGoid = declares "runtime.g" "parentGoid"
  mProcid : mProcid = declares "runtime.m" "procid"

/-- A field inside of a nested struct lies within the address space. -/
def FieldsFit (declares : String → String → Option UInt64) : Prop :=
  ∀ p ∈ fieldPaths, ∀ outer inner, p.2 = [outer, inner] →
    ∀ a ∈ declares outer.1 outer.2, ∀ b ∈ declares inner.1 inner.2, Fits a b

/-- A path of one field is that field. -/
theorem pathOffset_one (declares : String → String → Option UInt64) (struct field : String) :
    pathOffset declares [(struct, field)] = declares struct field := by
  rw [pathOffset]
  cases declares struct field with
  | none => rfl
  | some outer =>
    have hfits : Fits outer 0 := by
      rw [Fits, UInt64.toNat_zero, Nat.add_zero]
      exact outer.toNat_lt
    change (if Fits outer 0 then some (outer + 0) else none) = _
    rw [if_pos hfits, UInt64.add_zero]

/-- A path of two fields is their sum, where the sum is checked. -/
theorem pathOffset_two {declares : String → String → Option UInt64} {s f s' f' : String}
    {offset : UInt64} : pathOffset declares [(s, f), (s', f')] = some offset ↔
      ∃ outer, declares s f = some outer ∧ ∃ inner, declares s' f' = some inner ∧
        Fits outer inner ∧ offset = outer + inner := by
  rw [pathOffset, pathOffset_one]
  cases declares s f with
  | none => simp
  | some outer =>
    cases declares s' f' with
    | none => simp
    | some inner =>
      by_cases hfits : Fits outer inner <;> simp [hfits, eq_comm]

/-- Every field has to be declared, except the parent of a goroutine and the id of its thread. -/
theorem assembleOffsets_eq_some {structs : KeyMap String (KeyMap String UInt64)}
    {g : GStructOffsets} {mProcid : Option UInt64} :
    (assembleOffsets structs).run = .ok (some (g, mProcid)) ↔
      Assembled (offsetIn structs) g mProcid := by
  have hassembled : Assembled (offsetIn structs) g mProcid ↔
      (∀ p ∈ fieldPaths, pathOffset (offsetIn structs) p.2 = some (p.1 g)) ∧
      g.parentGoid = offsetIn structs "runtime.g" "parentGoid" ∧
      mProcid = offsetIn structs "runtime.m" "procid" :=
    ⟨fun h => ⟨h.fields, h.parentGoid, h.mProcid⟩, fun h => ⟨h.1, h.2.1, h.2.2⟩⟩
  rw [hassembled]
  simp only [assembleOffsets, optionT_bind_eq_some, optionT_pure_eq_some, run_lift_add, fieldPaths,
    List.forall_mem_cons, pathOffset_one, pathOffset_two, offsetIn]
  constructor
  · rintro ⟨gs, hgs, gobuf, hgobuf, stack, hstack, stackOff, hstackOff, schedOff, hschedOff, goid,
      hgoid, status, hstatus, reason, hreason, lo, hlo, stackLo, ⟨hloFits, rfl⟩, hi, hhi, stackHi,
      ⟨hhiFits, rfl⟩, pc, hpc, schedPc, ⟨hpcFits, rfl⟩, sp, hsp, schedSp, ⟨hspFits, rfl⟩, gopc,
      hgopc, startpc, hstartpc, m, hm, hpure⟩
    obtain ⟨rfl, rfl⟩ := Prod.mk.inj (Option.some.inj (Except.ok.inj hpure))
    simp [hgs, hgobuf, hstack, hstackOff, hschedOff, hgoid, hstatus, hreason, hlo, hloFits, hhi,
      hhiFits, hpc, hpcFits, hsp, hspFits, hgopc, hstartpc, hm]
  · rintro ⟨⟨hgoid, hstatus, hreason, ⟨stackOff, hstackOff, lo, hlo, hloFits, hstackLo⟩,
      ⟨outer, houter, hi, hhi, hhiFits, hstackHi⟩, ⟨schedOff, hschedOff, pc, hpc, hpcFits,
      hschedPc⟩, ⟨outer', houter', sp, hsp, hspFits, hschedSp⟩, hgopc, hstartpc, hm, -⟩, hparent,
      hprocid⟩
    -- the struct is looked up once, and nested fields share their outer offset
    rcases Option.some.inj (hstackOff.symm.trans houter) with rfl
    rcases Option.some.inj (hschedOff.symm.trans houter') with rfl
    obtain ⟨gs, hgs, hgoid⟩ := Option.bind_eq_some_iff.mp hgoid
    obtain ⟨stack, hstack, hlo⟩ := Option.bind_eq_some_iff.mp hlo
    obtain ⟨gobuf, hgobuf, hpc⟩ := Option.bind_eq_some_iff.mp hpc
    rw [hgs, Option.bind_some] at hstatus hreason hstackOff hschedOff hgopc hstartpc hm hparent
    rw [hstack, Option.bind_some] at hhi
    rw [hgobuf, Option.bind_some] at hsp
    refine ⟨gs, hgs, gobuf, hgobuf, stack, hstack, stackOff, hstackOff, schedOff, hschedOff, _,
      hgoid, _, hstatus, _, hreason, lo, hlo, _, ⟨hloFits, rfl⟩, hi, hhi, _, ⟨hhiFits, rfl⟩, pc,
      hpc, _, ⟨hpcFits, rfl⟩, sp, hsp, _, ⟨hspFits, rfl⟩, _, hgopc, _, hstartpc, _, hm, ?_⟩
    rw [← hstackLo, ← hstackHi, ← hschedPc, ← hschedSp, ← hparent, ← hprocid]
    rfl

/-- Without an overflow there is an answer. -/
theorem assembleOffsets_ok {structs : KeyMap String (KeyMap String UInt64)}
    (hfit : FieldsFit (offsetIn structs)) : ∃ offsets, (assembleOffsets structs).run = .ok offsets
    := by
  have hget {α : Type} (o : Option α) :
      ∃ r, (OptionT.mk (pure o : Prog GoDecodeError (Option α))).run = .ok r := ⟨o, rfl⟩
  have hadd (field : GStructOffsets → UInt64) {s f s' f' : String}
      {outer inner : KeyMap String UInt64} {a b : UInt64} (hs : structs[s]? = some outer)
      (hs' : structs[s']? = some inner) (hpath : (field, [(s, f), (s', f')]) ∈ fieldPaths)
      (ha : outer[f]? = some a) (hb : inner[f']? = some b) :
      ∃ r, (OptionT.lift (add a b : Prog GoDecodeError UInt64)).run = .ok r := by
    have hfits : Fits a b :=
      hfit _ hpath _ _ rfl a (Option.bind_eq_some_iff.mpr ⟨outer, hs, ha⟩) b
        (Option.bind_eq_some_iff.mpr ⟨inner, hs', hb⟩)
    exact ⟨some (a + b), run_lift_add.mpr ⟨hfits, rfl⟩⟩
  -- the sums are the only steps that could overflow
  refine optionT_bind_ok (hget _) fun g hg => ?_
  refine optionT_bind_ok (hget _) fun gobuf hgobuf => ?_
  refine optionT_bind_ok (hget _) fun stack hstack => ?_
  refine optionT_bind_ok (hget _) fun stackOff hstackOff => ?_
  refine optionT_bind_ok (hget _) fun schedOff hschedOff => ?_
  rw [optionT_pure_eq_some] at hg hgobuf hstack hstackOff hschedOff
  refine optionT_bind_ok (hget _) fun goid _ => ?_
  refine optionT_bind_ok (hget _) fun status _ => ?_
  refine optionT_bind_ok (hget _) fun reason _ => ?_
  refine optionT_bind_ok (hget _) fun lo hlo => ?_
  refine optionT_bind_ok (hadd GStructOffsets.stackLo hg hstack (by simp [fieldPaths]) hstackOff
    (optionT_pure_eq_some.mp hlo)) fun stackLo _ => ?_
  refine optionT_bind_ok (hget _) fun hi hhi => ?_
  refine optionT_bind_ok (hadd GStructOffsets.stackHi hg hstack (by simp [fieldPaths]) hstackOff
    (optionT_pure_eq_some.mp hhi)) fun stackHi _ => ?_
  refine optionT_bind_ok (hget _) fun pc hpc => ?_
  refine optionT_bind_ok (hadd GStructOffsets.schedPc hg hgobuf (by simp [fieldPaths]) hschedOff
    (optionT_pure_eq_some.mp hpc)) fun schedPc _ => ?_
  refine optionT_bind_ok (hget _) fun sp hsp => ?_
  refine optionT_bind_ok (hadd GStructOffsets.schedSp hg hgobuf (by simp [fieldPaths]) hschedOff
    (optionT_pure_eq_some.mp hsp)) fun schedSp _ => ?_
  refine optionT_bind_ok (hget _) fun gopc _ => ?_
  refine optionT_bind_ok (hget _) fun startpc _ => ?_
  exact optionT_bind_ok (hget _) fun m _ => ⟨_, rfl⟩

/-- What is assembled is all there is, or nothing. -/
theorem assembleOffsets_eq_none {structs : KeyMap String (KeyMap String UInt64)}
    (hfit : FieldsFit (offsetIn structs)) : (assembleOffsets structs).run = .ok none ↔
      ¬ ∃ g mProcid, Assembled (offsetIn structs) g mProcid := by
  obtain ⟨offsets, hoffsets⟩ := assembleOffsets_ok hfit
  cases offsets with
  | none =>
    refine iff_of_true hoffsets ?_
    rintro ⟨g, mProcid, h⟩
    rw [assembleOffsets_eq_some.mpr h] at hoffsets
    cases hoffsets
  | some offsets =>
    refine iff_of_false (by rw [hoffsets]; nofun) (not_not_intro ?_)
    exact ⟨offsets.1, offsets.2, assembleOffsets_eq_some.mp hoffsets⟩

/-! ## The layout of a binary -/

/-- The offsets that are known for the version that an image names. -/
structure Vendored (image : List UInt8) (layout : ResolvedLayout) (version : GoVersion) :
    Prop where
  detected : GoVersion.detectInBytes image = some version
  known : version.major = 1 ∧ version.minor = 24
  source : layout.source = .vendored version
  offsets : GStructOffsets.vendored version = some layout.g
  mProcid : layout.mProcid = some 72

/-- What a binary says of its runtime. -/
structure Says (object : ObjectFile) (image : List UInt8) (seen : List Seen)
    (layout : ResolvedLayout) : Prop where
  ptrSize : layout.ptrSize = if object.is64 then 8 else 4
  allgsAddr : (symbolAddr object "runtime.allgs").or
    (staticAddr object.littleEndian seen "runtime.allgs") = some layout.allgsAddr
  allglenAddr : layout.allglenAddr = (symbolAddr object "runtime.allglen").or
    (staticAddr object.littleEndian seen "runtime.allglen")
  loadBias : layout.loadBias = 0
  offsets : (layout.source = .dwarf ∧ Assembled (offsetOf seen) layout.g layout.mProcid) ∨
    (¬ ∃ g mProcid, Assembled (offsetOf seen) g mProcid) ∧ ∃ version, Vendored image layout version

theorem readDwarf_eq_ok_iff [AddressReader] {object : ObjectFile} {info : RuntimeInfo} :
    readDwarf object = .ok info ↔ ∃ seen, entries object.units = some seen ∧
      (∀ s ∈ seen, Legible s.2) ∧ info = RuntimeInfo.new.taken object.littleEndian seen :=
  foldlM_readUnit_eq_ok_iff

theorem resolveVendored_eq_ok {image : List UInt8} {g : GStructOffsets} {mProcid : Option UInt64}
    {source : LayoutSource} : resolveVendored image = .ok (g, mProcid, source) ↔
      ∃ version, GoVersion.detectInBytes image = some version ∧
        (version.major = 1 ∧ version.minor = 24) ∧ source = .vendored version ∧
        GStructOffsets.vendored version = some g ∧ mProcid = some 72 := by
  -- No version in the image, an unknown one, or the one of the table.
  cases hversion : GoVersion.detectInBytes image with
  | none =>
    rw [resolveVendored, hversion]
    simp
  | some version =>
    cases hg : GStructOffsets.vendored version with
    | none =>
      have hresolve : resolveVendored image = .error (.layoutUnresolved
          ("no vendored offset table for go" ++ toString version.major ++ "." ++
            toString version.minor)) := by
        rw [resolveVendored, hversion]
        dsimp only
        rw [hg]
      rw [hresolve]
      refine iff_of_false nofun ?_
      rintro ⟨version', heq, -, -, hsome, -⟩
      rcases Option.some.inj heq with rfl
      rw [hg] at hsome
      cases hsome
    | some offsets =>
      have hknown : version.major = 1 ∧ version.minor = 24 := by
        by_contra hknown
        rw [GStructOffsets.vendored, if_neg hknown] at hg
        cases hg
      have hresolve : resolveVendored image = .ok (offsets, some 72, .vendored version) := by
        rw [resolveVendored, hversion]
        dsimp only
        rw [hg, vendoredMProcid, if_pos hknown]
      rw [hresolve]
      constructor
      · intro h
        obtain ⟨rfl, hrest⟩ := Prod.mk.inj (Except.ok.inj h)
        obtain ⟨rfl, rfl⟩ := Prod.mk.inj hrest
        exact ⟨version, rfl, hknown, rfl, hg, rfl⟩
      · rintro ⟨version', heq, -, rfl, hsome, rfl⟩
        rcases Option.some.inj heq with rfl
        rcases Option.some.inj (hg.symm.trans hsome) with rfl
        rfl

/-- The symbols are asked before the debug information. -/
theorem extract_ok [AddressReader] {object : ObjectFile} {seen : List Seen}
    {offsets : Option (GStructOffsets × Option UInt64)}
    (hread : readDwarf object = .ok (RuntimeInfo.new.taken object.littleEndian seen))
    (hoffsets : (assembleOffsets
      (RuntimeInfo.new.taken object.littleEndian seen).structs).run = .ok offsets) :
    extract (.ok object) = .ok {
      ptrSize := if object.is64 then 8 else 4
      allgsAddr := (symbolAddr object "runtime.allgs").or
        (staticAddr object.littleEndian seen "runtime.allgs")
      allglenAddr := (symbolAddr object "runtime.allglen").or
        (staticAddr object.littleEndian seen "runtime.allglen")
      offsets } := by
  rw [extract, Except.mapError, lift_ok_bind, hread, lift_ok_bind, hoffsets, Effect.except_ok_bind,
    vars_taken, vars_taken]
  rfl

/-- **The layout of a Go binary.** -/
theorem loadLayout_eq_ok_iff [AddressReader] {file : Except String ObjectFile} {image : List UInt8}
    {layout : ResolvedLayout} (hfit : ∀ object seen, file = .ok object →
      entries object.units = some seen → FieldsFit (offsetOf seen)) :
    loadLayout file image = .ok layout ↔ ∃ object seen, file = .ok object ∧
      isGoObject object = true ∧ entries object.units = some seen ∧ (∀ s ∈ seen, Legible s.2) ∧
      Says object image seen layout := by
  cases file with
  | error e => simp [loadLayout, lift, Except.mapError, bind, Except.bind]
  | ok object =>
    simp only [Except.ok.injEq, exists_and_left, exists_eq_left']
    rw [loadLayout, Except.mapError, lift_ok_bind]
    cases hgo : isGoObject object with
    | false => simp [throw, throwThe, MonadExceptOf.throw]
    | true =>
      rw [if_neg (not_not_intro rfl)]
      -- A unit that cannot be read is the only way for the debug information to fail.
      cases hread : readDwarf object with
      | error e =>
        have hextract : extract (.ok object) = .error (.error e) := by
          rw [extract, Except.mapError, lift_ok_bind, hread]
          rfl
        rw [hextract]
        constructor
        · intro h
          cases h
        · rintro ⟨-, seen, hseen, hlegible, -⟩
          rw [readDwarf_eq_ok_iff.mpr ⟨seen, hseen, hlegible, rfl⟩] at hread
          cases hread
      | ok info =>
        obtain ⟨seen, hseen, hlegible, rfl⟩ := readDwarf_eq_ok_iff.mp hread
        have hdeclares := offsetIn_taken object.littleEndian seen
        have hfits := hfit object seen rfl hseen
        rw [← hdeclares] at hfits
        obtain ⟨offsets, hoffsets⟩ := assembleOffsets_ok hfits
        rw [extract_ok hread hoffsets, Effect.except_ok_bind]
        cases hallgs : (symbolAddr object "runtime.allgs").or
          (staticAddr object.littleEndian seen "runtime.allgs") with
        | none =>
          constructor
          · intro h
            cases h
          · rintro ⟨-, seen', hseen', -, htold⟩
            rcases Option.some.inj (hseen.symm.trans hseen') with rfl
            rw [htold.allgsAddr] at hallgs
            cases hallgs
        | some allgsAddr =>
          dsimp only
          rw [except_bind_eq_ok]
          simp only [lift_eq_ok]
          constructor
          · rintro ⟨⟨g, mProcid, source⟩, hchosen, hlayout⟩
            rcases Except.ok.inj hlayout with rfl
            refine ⟨trivial, seen, hseen, hlegible, rfl, hallgs, rfl, rfl, ?_⟩
            cases offsets with
            | some found =>
              obtain ⟨rfl, hrest⟩ := Prod.mk.inj (Except.ok.inj hchosen)
              obtain ⟨rfl, rfl⟩ := Prod.mk.inj hrest
              exact .inl ⟨rfl, hdeclares ▸ assembleOffsets_eq_some.mp hoffsets⟩
            | none =>
              obtain ⟨version, hversion, hknown, rfl, hg, rfl⟩ :=
                resolveVendored_eq_ok.mp hchosen
              exact .inr ⟨hdeclares ▸ (assembleOffsets_eq_none hfits).mp hoffsets,
                version, hversion, hknown, rfl, hg, rfl⟩
          · rintro ⟨-, seen', hseen', -, htold⟩
            rcases Option.some.inj (hseen.symm.trans hseen') with rfl
            refine ⟨(layout.g, layout.mProcid, layout.source), ?_, ?_⟩
            · rcases htold.offsets with ⟨hsource, h⟩ | ⟨hnone, version, h⟩
              · rw [← hdeclares, ← assembleOffsets_eq_some, hoffsets] at h
                rw [Except.ok.inj h, hsource]
                rfl
              · rw [← hdeclares, ← assembleOffsets_eq_none hfits, hoffsets] at hnone
                rw [Except.ok.inj hnone]
                exact resolveVendored_eq_ok.mpr
                  ⟨version, h.detected, h.known, h.source, h.offsets, h.mProcid⟩
            · obtain ⟨⟨ptrSize, allgs, loadBias, g, mProcid⟩, allglen, source⟩ := layout
              obtain rfl : ptrSize = _ := htold.ptrSize
              obtain rfl : allgs = allgsAddr := Option.some.inj (htold.allgsAddr.symm.trans hallgs)
              obtain rfl : allglen = _ := htold.allglenAddr
              obtain rfl : loadBias = 0 := htold.loadBias
              rfl

/-- **The decoder for a Go binary.** There is one just where the file is a Go binary whose
declarations can be read and which has `runtime.allgs`, by its symbols or else by its debug
information, and the fields of a goroutine: each where the first declarations nest it, if they have
all of them, or else where Go 1.24 has it, if the image names that version. -/
theorem fromBinary_eq_ok_iff [AddressReader] {file : Except String ObjectFile} {image : List UInt8}
    {decoder : GoroutineDecoder} (hfit : ∀ object seen, file = .ok object →
      entries object.units = some seen → FieldsFit (offsetOf seen)) :
    GoroutineDecoder.fromBinary file image = .ok decoder ↔ ∃ object seen layout,
      file = .ok object ∧ isGoObject object = true ∧ entries object.units = some seen ∧
      (∀ s ∈ seen, Legible s.2) ∧ Says object image seen layout ∧
      decoder.layout = layout.toGoLayout := by
  rw [GoroutineDecoder.fromBinary, except_bind_eq_ok]
  simp only [loadLayout_eq_ok_iff hfit]
  constructor
  · rintro ⟨layout, ⟨object, seen, hfile, hgo, hseen, hlegible, htold⟩, hdecoder⟩
    rcases Except.ok.inj hdecoder with rfl
    exact ⟨object, seen, layout, hfile, hgo, hseen, hlegible, htold, rfl⟩
  · rintro ⟨object, seen, layout, hfile, hgo, hseen, hlegible, htold, hdecoder⟩
    refine ⟨layout, ⟨object, seen, hfile, hgo, hseen, hlegible, htold⟩, ?_⟩
    rw [← hdecoder]
    rfl

/-! ## A binary without symbols -/

/-- Offsets are those of members that were seen. -/
theorem mem_of_offsetOf {seen : List Seen} {struct field : String} {offset : UInt64}
    (h : offsetOf seen struct field = some offset) :
    ∃ s ∈ seen, (field, offset) ∈ s.2.children.filterMap memberDecl := by
  obtain ⟨die, hdie, hoffset⟩ := Option.bind_eq_some_iff.mp h
  obtain ⟨s, hs, rfl⟩ := List.mem_map.mp (List.mem_of_find?_eq_some hdie)
  obtain ⟨m, hm, rfl⟩ := Option.map_eq_some_iff.mp hoffset
  have hname : m.1 = field := by simpa using List.find?_some hm
  refine ⟨s, hs, ?_⟩
  rw [← hname]
  exact List.mem_reverse.mp (List.mem_of_find?_eq_some hm)

/-- Where no offset is very large, nested fields fit. -/
theorem fieldsFit_of_small {seen : List Seen}
    (h : ∀ s ∈ seen, ∀ m ∈ s.2.children.filterMap memberDecl, m.2.toNat < 2 ^ 63) :
    FieldsFit (offsetOf seen) := by
  intro p _ outer inner _ a ha b hb
  obtain ⟨s, hs, ha⟩ := mem_of_offsetOf ha
  obtain ⟨t, ht, hb⟩ := mem_of_offsetOf hb
  have hsmall : a.toNat < 2 ^ 63 := h s hs _ ha
  have hsmall' : b.toNat < 2 ^ 63 := h t ht _ hb
  rw [Fits]
  omega

def entryOf (tag : Tag) (name : String) : Entry where
  tag := tag
  name := .ok (some name)
  dataMemberLocation := .ok none
  location := .ok none

def memberOf (field : String × UInt64) : Die :=
  .mk { entryOf .member field.1 with dataMemberLocation := .ok (some field.2) } []

def structOf (name : String) (fields : List (String × UInt64)) : Die :=
  .mk (entryOf .structureType name) (fields.map memberOf)

/-- A unit with the structs of the runtime, one of them inside of a struct of the program, and the
address of `runtime.allgs`. -/
def runtimeUnit : GoUnit where
  addressSize := 8
  root := .ok (.mk (entryOf (.other 0x11) "runtime") [
    structOf "runtime.stack" [("lo", 0), ("hi", 8)],
    structOf "runtime.gobuf" [("sp", 0), ("pc", 8)],
    .mk (entryOf .structureType "main.wrapper") [
      structOf "runtime.g" [("stack", 0), ("m", 48), ("sched", 56), ("atomicstatus", 152),
        ("goid", 160), ("waitreason", 184), ("parentGoid", 280), ("gopc", 288),
        ("startpc", 304)]],
    structOf "runtime.g" [("goid", 8)],
    .mk { entryOf .variable "runtime.allgs" with
      location := .ok (some [3, 0, 0, 2, 0, 0, 0, 0, 0]) } []])

/-- A binary without symbols. -/
def stripped : ObjectFile where
  is64 := true
  littleEndian := true
  sections := [".go.buildinfo"]
  symbols := []
  units := [.ok runtimeUnit]

/-- A reader of addresses. -/
@[reducible] def plainReader : AddressReader where
  readAddress := addressAt
  whole {littleEndian size addr rest} hsize haddr := by
    have hlength : (addressBytes littleEndian size addr.toNat).length = size.toNat := by
      unfold addressBytes
      cases littleEndian <;> simp
    rw [addressAt, if_pos ⟨hsize, by rw [List.length_append]; omega⟩,
      List.take_append_of_le_length (Nat.le_of_eq hlength.symm), ← hlength, List.take_length]
    cases littleEndian with
    | true => simp [addressBytes, LittleEndian.decode_encode_of_lt haddr]
    | false => simp [addressBytes, LittleEndian.decode_encode_of_lt haddr]
  short hlength := if_neg fun h => absurd h.2 (Nat.not_le_of_lt hlength)
  unsupported hsize := if_neg fun h => hsize h.1

theorem fromBinary_eq_ok_iff_stripped : ∃ decoder seen layout,
    @GoroutineDecoder.fromBinary plainReader (.ok stripped) [] = .ok decoder ∧
    entries stripped.units = some seen ∧ (∀ s ∈ seen, Legible s.2) ∧
    Says stripped [] seen layout ∧ decoder.layout = layout.toGoLayout ∧
    decoder.layout.allgsAddr = 0x20000 ∧ decoder.layout.g.schedPc = 64 := by
  have hrun : ∃ decoder, @GoroutineDecoder.fromBinary plainReader (.ok stripped) [] = .ok decoder ∧
      decoder.layout.allgsAddr = 0x20000 ∧ decoder.layout.g.schedPc = 64 := ⟨_, rfl, rfl, rfl⟩
  have hsmall : ∃ seen, entries stripped.units = some seen ∧
      ∀ s ∈ seen, ∀ m ∈ s.2.children.filterMap memberDecl, m.2.toNat < 2 ^ 63 :=
    ⟨_, rfl, by decide⟩
  obtain ⟨decoder, hdecoder, hallgs, hpc⟩ := hrun
  obtain ⟨seen, hseen, hsmall⟩ := hsmall
  obtain ⟨object, seen', layout, hobject, -, hseen', hlegible, htold, hlayout⟩ :=
    (@fromBinary_eq_ok_iff plainReader _ _ _ fun object seen' hobject hseen' => by
      rcases Except.ok.inj hobject with rfl
      rcases Option.some.inj (hseen.symm.trans hseen') with rfl
      exact fieldsFit_of_small hsmall).mp hdecoder
  rcases Except.ok.inj hobject with rfl
  exact ⟨decoder, seen', layout, hdecoder, hseen', hlegible, htold, hlayout, hallgs, hpc⟩

end Mirrorscope.Decoder.Go
