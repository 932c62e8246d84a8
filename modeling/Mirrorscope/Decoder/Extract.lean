import Mirrorscope.Decoder.Dwarf
import Mirrorscope.Decoder.Versions

/-! # Reading the coroutines of a binary

Which binaries are read at all, the walk that gives every type its qualified name and finds the
coroutines among them, and the table of their layouts. The coroutines of a unit are a hash set:
in which order they are looked at is left open, and may be another one for each set, as the
hashes of each are seeded anew.
-/

namespace Mirrorscope.Decoder.AsyncRust

open Text (split)

/-! ## The version of rustc -/

/-- A version of rustc; a patch that is missing or no number is 0. -/
structure RustcVersion where
  major : UInt16
  minor : UInt16
  patch : UInt16
deriving DecidableEq, Repr

namespace RustcVersion

def parseTriple (token : List Char) : Option RustcVersion := do
  let parts := split '.' token
  let major ← parseLeadingNumber (← parts[0]?)
  let minor ← parseLeadingNumber (← parts[1]?)
  let patch := (parts[2]?.bind parseLeadingNumber).getD 0
  return { major, minor, patch }

def marker : List Char := "rustc version ".toList

/-- A character that ends the version in a producer string. -/
def endsToken (c : Char) : Bool := c = ' ' || c = '(' || c = ')'

/-- The version in a producer string: the token between the first `rustc version ` and the
next. -/
def parseProducer (producer : List Char) : Option RustcVersion := do
  let i ← Occurrence.findSlice marker producer
  let after := beforeFirst marker (producer.drop (i + marker.length))
  parseTriple (after.takeWhile fun c => !endsToken c)

/-- `SUPPORTED_MINOR`. -/
def firstMinor : UInt16 := 63
def lastMinor : UInt16 := 94

/-- Whether coroutines of this version are laid out as they are read here. -/
def isSupported (version : RustcVersion) : Bool :=
  version.major = 1 && firstMinor ≤ version.minor && version.minor ≤ lastMinor

def display (version : RustcVersion) : String :=
  toString version.major ++ "." ++ toString version.minor ++ "." ++ toString version.patch

end RustcVersion

/-! ## Names and coroutines -/

/-- `DW_TAG_namespace`, `DW_TAG_structure_type` and `DW_TAG_enumeration_type`. -/
def Tag.namespaceTag : Tag := .other 0x39
def Tag.structureType : Tag := .other 0x13
def Tag.enumerationType : Tag := .other 0x04

/-- The entry defines a struct or an enum. -/
def Entry.isType (entry : Entry) : Bool :=
  entry.tag = .structureType || entry.tag = .enumerationType

/-- Join a namespace path and a local name. -/
def qualify (path : List String) (name : String) : String :=
  if path = [] then name else "::".intercalate path ++ "::" ++ name

/-- A coroutine is named so; a type whose generics mention one is not. -/
def isCoroutineName (name : String) : Bool :=
  "\x7basync_fn_env#".toList.isPrefixOf name.toList ||
    "\x7basync_block_env#".toList.isPrefixOf name.toList

/-- The walk so far: the scopes it is in, the names of the types, and which of them are
coroutines. -/
structure Walk where
  path : List String
  names : KeyMap Nat String
  coroutines : KeyMap Nat Unit

namespace Walk

def start : Walk where
  path := []
  names := ∅
  coroutines := ∅

def push (walk : Walk) (name : String) : Walk := { walk with path := walk.path ++ [name] }

def pop (walk : Walk) : Walk := { walk with path := walk.path.dropLast }

/-- Take down a type. -/
def note (walk : Walk) (offset : Nat) (name : String) : Walk :=
  { walk with
    names := walk.names.insert offset (qualify walk.path name)
    coroutines :=
      if isCoroutineName name then walk.coroutines.insert offset () else walk.coroutines }

/-- What an entry does before its children are walked, and whether it opened a scope. -/
def enter (walk : Walk) (entry : Entry) : Walk × Bool :=
  match entry.name with
  | none => (walk, false)
  | some name =>
    if entry.tag = .namespaceTag then (walk.push name, true)
    -- types that are defined inside of a type stand under its name
    else if entry.isType then ((walk.note entry.offset name).push name, true)
    else (walk, false)

end Walk

mutual

def walkNames : Die → Walk → Walk
  | .mk entry children, walk =>
    let (walk, pushed) := walk.enter entry
    let walk := walkAll children walk
    if pushed then walk.pop else walk

def walkAll : List Die → Walk → Walk
  | [], walk => walk
  | child :: children, walk => walkAll children (walkNames child walk)

end

/-! ## Units -/

/-- A unit with its root, and the string of the root's `DW_AT_producer`. -/
structure CompileUnit extends DwarfUnit where
  root : Except AsyncDecodeError Die
  producer : Except AsyncDecodeError (Option String)

def Walk.index (walk : Walk) : UnitIndex where
  names offset := walk.names[offset]?
  coroutines offset := (walk.coroutines[offset]?).isSome

def buildIndex (unit : CompileUnit) : Except AsyncDecodeError Walk := do
  let root ← unit.root
  pure (walkNames root .start)

def producerVersion (unit : CompileUnit) : Except AsyncDecodeError (Option RustcVersion) := do
  let producer ← unit.producer
  pure (producer.bind fun text => RustcVersion.parseProducer text.toList)

/-- In which order a set is iterated over. -/
abbrev SetOrder := KeyMap Nat Unit → List Nat

section Collect

variable (order : SetOrder) (orders : Nat → SetOrder)

/-- Put one coroutine into the table. -/
def collectOne (unit : CompileUnit) (index : UnitIndex) (layouts : AsyncLayouts) (offset : Nat) :
    Except AsyncDecodeError AsyncLayouts := do
  match ← buildLayout unit.toDwarfUnit index offset with
  | some layout => pure (layouts.insert layout)
  | none => pure layouts

def collectUnit (unit : CompileUnit) (layouts : AsyncLayouts) :
    Except AsyncDecodeError AsyncLayouts := do
  let walk ← buildIndex unit
  (order walk.coroutines).foldlM (collectOne unit walk.index) layouts

/-- The first version found, and the layouts so far. -/
structure Extraction where
  version : Option RustcVersion
  layouts : AsyncLayouts

def visitUnit (found : Extraction) (unit : Except AsyncDecodeError CompileUnit) :
    Except AsyncDecodeError Extraction := do
  let unit ← unit
  let version ←
    match found.version with
    | none => producerVersion unit
    | some version => pure (some version)
  let layouts ← collectUnit order unit found.layouts
  pure { version, layouts }

/-- Visit one unit, with the order that its set has. -/
def visitNumbered (found : Extraction) (unit : Except AsyncDecodeError CompileUnit × Nat) :
    Except AsyncDecodeError Extraction := visitUnit (orders unit.2) found unit.1

/-- An object file, as the reader of object files gives it: the names of its symbols, those that
are readable, whether it has debug information, and its units. -/
structure ObjectFile where
  symbols : List (Option String)
  hasDebugInfo : Bool
  units : List (Except AsyncDecodeError CompileUnit)

/-- The file links the Tokio runtime. -/
def isTokioObject (file : ObjectFile) : Bool :=
  file.symbols.any fun name => name.any fun n => occursIn "5tokio7runtime".toList n.toList

structure DwarfExtract where
  version : RustcVersion
  layouts : AsyncLayouts

def noProducer : AsyncDecodeError :=
  .unsupportedLayout "no rustc producer string in DWARF"

def outsideWindow (version : RustcVersion) : AsyncDecodeError :=
  .unsupportedLayout ("rustc " ++ version.display ++
    " is outside the validated coroutine-layout window")

/-- The layouts of all coroutines of a binary; `orders` has the order for the set of each unit. -/
def extract (file : Except String ObjectFile) : Except AsyncDecodeError DwarfExtract := do
  let file ← file.mapError .object
  if ¬ isTokioObject file then throw .notTokioBinary
  else if ¬ file.hasDebugInfo then throw .noDebugInfo
  else do
    let found ← file.units.zipIdx.foldlM (visitNumbered orders) { version := none, layouts := .new }
    match found.version with
    | none => throw noProducer
    | some version =>
      if ¬ version.isSupported then throw (outsideWindow version)
      else if found.layouts.byName.isEmpty then throw .noCoroutines
      else pure { version, layouts := found.layouts }

end Collect

end Mirrorscope.Decoder.AsyncRust
