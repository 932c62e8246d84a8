import Mirrorscope.Decoder.Go
import Mirrorscope.Decoder.Versions
import Mirrorscope.Lib.Checked
import Mirrorscope.Lib.KeyMap

/-! # The layout of a Go runtime

Where a Go binary keeps its goroutines, from its symbols, and where the fields of a goroutine are,
from its debug information. A binary without debug information is looked up in a table by the
version of its toolchain. As in the walk over the goroutines, sums of offsets are those of a
build with overflow checks; where it does not stop, a release build gives the same layout.
-/

namespace Mirrorscope.Decoder.Go

open Checked

inductive GoDecodeError where
  | object (reason : String)
  | dwarf (reason : String)
  | notGoBinary
  | allgsNotFound
  | layoutUnresolved (reason : String)
deriving DecidableEq, Repr

/-! ## Debug information -/

/-- The tags that matter here. -/
inductive Tag where
  | structureType
  | variable
  | member
  | other (raw : UInt16)
deriving DecidableEq, Repr

/-- The attributes of an entry, each of which may be damaged. A location is kept where it is an
expression. -/
structure Entry where
  tag : Tag
  name : Except GoDecodeError (Option String)
  dataMemberLocation : Except GoDecodeError (Option UInt64)
  location : Except GoDecodeError (Option (List UInt8))

/-- An entry with the entries below it. -/
inductive Die where
  | mk (entry : Entry) (children : List Die)

namespace Die

def entry : Die → Entry
  | .mk entry _ => entry

def children : Die → List Die
  | .mk _ children => children

end Die

/-- A unit, as the reader of debug information gives it: the width of its addresses, and its
tree. -/
structure GoUnit where
  addressSize : UInt8
  root : Except GoDecodeError Die

/-- An object file, as the reader of object files gives it: the names of its sections, its symbols,
of which some names may not be text, and its units. -/
structure ObjectFile where
  is64 : Bool
  littleEndian : Bool
  sections : List String
  symbols : List (Option String × UInt64)
  units : List (Except GoDecodeError GoUnit)

/-- Whether the file looks like a Go binary. -/
def isGoObject (file : ObjectFile) : Bool :=
  file.sections.contains ".go.buildinfo" ||
    file.symbols.any fun symbol => symbol.1 = some "runtime.allgs"

/-- The address of a symbol. -/
def symbolAddr (file : ObjectFile) (name : String) : Option UInt64 :=
  (file.symbols.find? fun symbol => symbol.1 = some name).map Prod.snd

/-- The widths an address can have. -/
def addressSizes : List UInt8 := [1, 2, 4, 8]

/-- An address as a target of this byte order has it in memory. -/
def addressBytes (littleEndian : Bool) (size : UInt8) (addr : Nat) : List UInt8 :=
  let bytes := LittleEndian.encode size.toNat addr
  if littleEndian then bytes else bytes.reverse

/-- How the reader of debug information reads an address off the front of some bytes: in the
byte order of the file, in one of the widths an address can have, if there are as many bytes. -/
class AddressReader where
  readAddress : Bool → UInt8 → List UInt8 → Option UInt64
  whole {littleEndian : Bool} {size : UInt8} {addr : UInt64} {rest : List UInt8} :
    size ∈ addressSizes → addr.toNat < 256 ^ size.toNat →
    readAddress littleEndian size (addressBytes littleEndian size addr.toNat ++ rest) = some addr
  short {littleEndian : Bool} {size : UInt8} {bytes : List UInt8} :
    bytes.length < size.toNat → readAddress littleEndian size bytes = none
  unsupported {littleEndian : Bool} {size : UInt8} {bytes : List UInt8} :
    size ∉ addressSizes → readAddress littleEndian size bytes = none

/-- The static address that a location expression gives: `DW_OP_addr` and the address. -/
def variableAddr [AddressReader] (littleEndian : Bool) (size : UInt8) :
    Option (List UInt8) → Option UInt64
  | some (0x03 :: bytes) => AddressReader.readAddress littleEndian size bytes
  | _ => none

def targetStructs : List String := ["runtime.g", "runtime.gobuf", "runtime.stack", "runtime.m"]

def targetVars : List String := ["runtime.allgs", "runtime.allglen"]

/-- What the walk has found: the offsets of the fields of structs, and the addresses of
variables. -/
structure RuntimeInfo where
  structs : KeyMap String (KeyMap String UInt64)
  vars : KeyMap String UInt64

namespace RuntimeInfo

def new : RuntimeInfo where
  structs := ∅
  vars := ∅

/-- Take a struct down; the first one of a name counts. -/
def noteStruct (found : RuntimeInfo) (name : String) (members : KeyMap String UInt64) :
    RuntimeInfo :=
  { found with structs := KeyMap.insertNew found.structs name members }

/-- Take a variable down, if it is one that is wanted. -/
def noteVar (found : RuntimeInfo) : Option String → Option UInt64 → RuntimeInfo
  | some name, some addr =>
    if targetVars.contains name then
      { found with vars := KeyMap.insertNew found.vars name addr }
    else found
  | _, _ => found

end RuntimeInfo

/-- Take down one member. -/
def readMember (members : KeyMap String UInt64) (child : Die) :
    Except GoDecodeError (KeyMap String UInt64) :=
  if child.entry.tag = .member then do
    let name ← child.entry.name
    let offset ← child.entry.dataMemberLocation
    match name, offset with
    | some name, some offset => pure (members.insert name offset)
    | _, _ => pure members
  else pure members

/-- The offsets of the members of a struct. -/
def readMembers (children : List Die) : Except GoDecodeError (KeyMap String UInt64) :=
  children.foldlM readMember ∅

/-- The static address of an entry, if it is a variable. -/
def entryAddr [AddressReader] (littleEndian : Bool) (size : UInt8) (entry : Entry) :
    Except GoDecodeError (Option UInt64) :=
  if entry.tag = .variable then do
    let location ← entry.location
    pure (variableAddr littleEndian size location)
  else pure none

/-- The struct that is looked for under the name of an entry. -/
def wanted (name : Option String) : Option String := name.filter targetStructs.contains

section Walk

variable [AddressReader] (littleEndian : Bool) (size : UInt8)

mutual

def walk : Die → RuntimeInfo → Except GoDecodeError RuntimeInfo
  | .mk entry children, found => do
    let name ← entry.name
    let addr ← entryAddr littleEndian size entry
    if entry.tag = .structureType then
      match wanted name with
      | some name => do
        -- what is defined inside of a struct that is looked for is passed over
        let members ← readMembers children
        pure (found.noteStruct name members)
      | none => walkAll children found
    else if entry.tag = .variable then walkAll children (found.noteVar name addr)
    else walkAll children found

def walkAll : List Die → RuntimeInfo → Except GoDecodeError RuntimeInfo
  | [], found => pure found
  | child :: children, found => do
    let found ← walk child found
    walkAll children found

end

end Walk

/-- Walk one unit. -/
def readUnit [AddressReader] (littleEndian : Bool) (found : RuntimeInfo)
    (unit : Except GoDecodeError GoUnit) : Except GoDecodeError RuntimeInfo := do
  let unit ← unit
  let root ← unit.root
  walk littleEndian unit.addressSize root found

def readDwarf [AddressReader] (file : ObjectFile) : Except GoDecodeError RuntimeInfo :=
  file.units.foldlM (readUnit file.littleEndian) .new

/-! ## Offsets -/

/-- The offsets that the structs give, and that of `m.procid`; none where a field is missing. -/
def assembleOffsets (structs : KeyMap String (KeyMap String UInt64)) :
    OptionT (Prog GoDecodeError) (GStructOffsets × Option UInt64) := do
  let get (members : KeyMap String UInt64) (name : String) :
      OptionT (Prog GoDecodeError) UInt64 := .mk (pure members[name]?)
  let g ← .mk (pure structs["runtime.g"]?)
  let gobuf ← .mk (pure structs["runtime.gobuf"]?)
  let stack ← .mk (pure structs["runtime.stack"]?)
  let stackOff ← get g "stack"
  let schedOff ← get g "sched"
  let goid ← get g "goid"
  let atomicstatus ← get g "atomicstatus"
  let waitreason ← get g "waitreason"
  let stackLo ← .lift (add stackOff (← get stack "lo"))
  let stackHi ← .lift (add stackOff (← get stack "hi"))
  let schedPc ← .lift (add schedOff (← get gobuf "pc"))
  let schedSp ← .lift (add schedOff (← get gobuf "sp"))
  let gopc ← get g "gopc"
  let startpc ← get g "startpc"
  let m ← get g "m"
  let offsets : GStructOffsets :=
    { goid, atomicstatus, waitreason, stackLo, stackHi, schedPc, schedSp, gopc, startpc, m
      parentGoid := g["parentGoid"]? }
  pure (offsets, structs["runtime.m"]?.bind fun members => members["procid"]?)

/-- Everything that one binary tells of its runtime. -/
structure DwarfExtract where
  ptrSize : UInt8
  allgsAddr : Option UInt64
  allglenAddr : Option UInt64
  offsets : Option (GStructOffsets × Option UInt64)

def extract [AddressReader] (file : Except String ObjectFile) :
    Prog GoDecodeError DwarfExtract := do
  let file ← lift (file.mapError .object)
  let info ← lift (readDwarf file)
  let offsets ← (assembleOffsets info.structs).run
  pure {
    ptrSize := if file.is64 then 8 else 4
    allgsAddr := (symbolAddr file "runtime.allgs").or info.vars["runtime.allgs"]?
    allglenAddr := (symbolAddr file "runtime.allglen").or info.vars["runtime.allglen"]?
    offsets }

/-- The offsets that are known for a version of the toolchain. -/
def GStructOffsets.vendored (version : GoVersion) : Option GStructOffsets :=
  if version.major = 1 ∧ version.minor = 24 then
    some {
      goid := 160, atomicstatus := 152, waitreason := 184, stackLo := 0, stackHi := 8
      schedPc := 64, schedSp := 56, gopc := 288, startpc := 304, m := 48, parentGoid := some 280 }
  else none

def vendoredMProcid (version : GoVersion) : Option UInt64 :=
  if version.major = 1 ∧ version.minor = 24 then some 72 else none

/-! ## Layouts -/

/-- Where the offsets of a layout come from. -/
inductive LayoutSource where
  | dwarf
  | vendored (version : GoVersion)
deriving DecidableEq, Repr

/-- A layout with what the walk does not need: the address of the length, and where the offsets
come from. -/
structure ResolvedLayout extends GoLayout where
  allglenAddr : Option UInt64
  source : LayoutSource
deriving DecidableEq, Repr

/-- The offsets for the version that the image names. -/
def resolveVendored (image : List UInt8) :
    Except GoDecodeError (GStructOffsets × Option UInt64 × LayoutSource) :=
  match GoVersion.detectInBytes image with
  | none => .error (.layoutUnresolved "no DWARF offsets and no embedded go version")
  | some version =>
    match GStructOffsets.vendored version with
    | none => .error (.layoutUnresolved ("no vendored offset table for go" ++
        toString version.major ++ "." ++ toString version.minor))
    | some g => .ok (g, vendoredMProcid version, .vendored version)

/-- The offsets from the debug information, or else those for the version. -/
def chooseOffsets (image : List UInt8) : Option (GStructOffsets × Option UInt64) →
    Except GoDecodeError (GStructOffsets × Option UInt64 × LayoutSource)
  | some (g, mProcid) => .ok (g, mProcid, .dwarf)
  | none => resolveVendored image

/-- The layout of a binary. The image is what the file was read from. -/
def loadLayout [AddressReader] (file : Except String ObjectFile) (image : List UInt8) :
    Prog GoDecodeError ResolvedLayout := do
  let object ← lift (file.mapError .object)
  if ¬ isGoObject object then throw (.error .notGoBinary)
  else do
    let found ← extract file
    match found.allgsAddr with
    | none => throw (.error .allgsNotFound)
    | some allgsAddr => do
      let (g, mProcid, source) ← lift (chooseOffsets image found.offsets)
      pure {
        ptrSize := found.ptrSize, allgsAddr, loadBias := 0, g, mProcid
        allglenAddr := found.allglenAddr, source }

/-- A decoder for a binary. -/
def GoroutineDecoder.fromBinary [AddressReader] (file : Except String ObjectFile)
    (image : List UInt8) : Prog GoDecodeError GoroutineDecoder := do
  let layout ← loadLayout file image
  pure { layout := layout.toGoLayout }

end Mirrorscope.Decoder.Go
