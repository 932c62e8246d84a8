import Mirrorscope.Decoder.ElfGeometry
import Mirrorscope.Decoder.Extract
import Mirrorscope.Decoder.GoLayout
import Mirrorscope.Decoder.Native
import Mirrorscope.Decoder.PollNames
import Mirrorscope.Decoder.Versions

/-! # The decoder for a binary

A decoder is chosen by the binary of the target: that for goroutines, else that for Tokio tasks,
else the one for threads. The decoder for Tokio tasks lists the live ones of a process where the
binary says what is needed for that; where it does not, this is no error.
-/

namespace Mirrorscope.Decoder

open ByteIO (ByteVec)
open Checked (Prog lift toOption)

namespace AsyncRust

/-! ## Symbols -/

/-- A symbol: whether it is thread-local, its name where that is text, and its address. -/
structure Symbol where
  isTls : Bool
  name : Option String
  address : UInt64

/-- An object file with all that is read of it: its symbols, whether it has debug information, the
units with their types, and the units with their functions. -/
structure TokioFile where
  symbols : List Symbol
  hasDebugInfo : Bool
  units : List (Except AsyncDecodeError CompileUnit)
  functions : List (Except EnumerateError DieStream)

/-- The part of it that the layouts are read from. -/
def TokioFile.objectFile (file : TokioFile) : ObjectFile where
  symbols := file.symbols.map Symbol.name
  hasDebugInfo := file.hasDebugInfo
  units := file.units

/-- The symbol is named as `context::CONTEXT` is, by either way of mangling. -/
def isContextSymbol (name : String) : Bool :=
  containsAny name ["7context7CONTEXT", "context..CONTEXT"]

def Symbol.isContext (symbol : Symbol) : Bool :=
  symbol.isTls && symbol.name.any isContextSymbol

/-- Where `CONTEXT` is in the thread-local block. -/
def contextTlsOffset (file : TokioFile) : Except EnumerateError UInt64 :=
  match file.symbols.find? Symbol.isContext with
  | some symbol => .ok symbol.address
  | none => .error .contextSymbolMissing

/-! ## Plans -/

def TokioVersion.display (version : TokioVersion) : String :=
  toString version.major ++ "." ++ toString version.minor ++ "." ++ toString version.patch

def EnumerateError.display : EnumerateError → String
  | .unsupportedTokioVersion version => "no vendored Tokio internal layout for tokio " ++
      version.display ++ "; live enumeration declines"
  | .tokioVersionUnknown =>
      "no embedded tokio version string; cannot key the internal layout"
  | .contextSymbolMissing => "tokio runtime CONTEXT thread-local symbol not found"
  | .threadPointerUnavailable =>
      "no thread pointer available; TLS-based enumeration is unavailable"
  | .loadBaseUnavailable =>
      "executable load base unavailable; cannot map poll addresses to types"
  | .implausibleRuntime reason =>
      "implausible runtime shape while walking OwnedTasks: " ++ reason
  | .noRuntimeHandle => "no live Tokio runtime handle on any stopped thread"
  | .noDebugInfo => "no DWARF debug info; cannot resolve task future types"
  | .parse reason => "object/DWARF parse error: " ++ reason

/-- The facts that a binary states. The image is what the file was read from. -/
def BinaryFacts.resolve (image : ByteVec) (file : Except String TokioFile) :
    Prog EnumerateError BinaryFacts :=
  match TokioVersion.detectInBytes image.bytes with
  | none => throw (.error .tokioVersionUnknown)
  | some version => do
    let file ← lift (file.mapError .parse)
    let contextTlsOffset ← lift (AsyncRust.contextTlsOffset file)
    if ¬ file.hasDebugInfo then throw (.error .noDebugInfo)
    else do
      let (tlsAlign, tlsBlockSize, minLoadVaddr) ← elfGeometry image
      let pollTypes ← lift (pollTypeMap file.functions)
      pure { version, contextTlsOffset, tlsAlign, tlsBlockSize, minLoadVaddr, pollTypes }

def EnumerationPlan.resolve (image : ByteVec) (file : Except String TokioFile) :
    Prog EnumerateError EnumerationPlan := do
  let facts ← BinaryFacts.resolve image file
  let layout ← lift (TokioRuntimeLayout.vendored facts.version)
  pure { facts, layout }

/-- The way of listing live tasks that a plan gives. -/
def EnumerationPlan.lister (variant : TlsVariant) (plan : EnumerationPlan) (view : ProcessView)
    (layouts : AsyncLayouts) : Except String (List TaskRoot) :=
  (plan.enumerateRoots variant view layouts).mapError EnumerateError.display

/-- A decoder for a binary; a plan that cannot be made is left out. -/
def TokioDecoder.fromBinary (orders : Nat → SetOrder) (variant : TlsVariant) (image : ByteVec)
    (file : Except String TokioFile) : Prog AsyncDecodeError TokioDecoder := do
  let found ← lift (extract orders (file.map TokioFile.objectFile))
  let plan ← toOption (EnumerationPlan.resolve image file)
  pure { layouts := found.layouts, roots := [], plan := plan.map (EnumerationPlan.lister variant) }

end AsyncRust

/-! ## The choice -/

/-- A binary: its bytes, and the object file as each of the decoders reads it. -/
structure Binary where
  image : ByteVec
  goFile : Except String Go.ObjectFile
  tokioFile : Except String AsyncRust.TokioFile

/-- The best decoder for a target. -/
def selectDecoderForBinary [Go.AddressReader] (orders : Nat → AsyncRust.SetOrder)
    (variant : AsyncRust.TlsVariant) (binary : Binary) : Prog Empty SemanticDecoder := do
  match ← toOption (Go.GoroutineDecoder.fromBinary binary.goFile binary.image.bytes) with
  | some decoder => pure decoder.semantic
  | none =>
    match ← toOption
        (AsyncRust.TokioDecoder.fromBinary orders variant binary.image binary.tokioFile) with
    | some decoder => pure decoder.semantic
    | none => pure NativeThreadsDecoder.semantic

end Mirrorscope.Decoder
