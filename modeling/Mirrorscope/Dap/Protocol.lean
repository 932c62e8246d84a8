import Mathlib.Data.List.Basic

/-! # Debug adapter messages

The JSON values the server exchanges with its client: the request envelope it
receives, and the responses and events it sends. An object is the list of its
fields and is only ever read by field name.
-/

namespace Mirrorscope.Dap

/-! ## JSON values -/

/-- A JSON number: a non-negative integer, a negative one, or the bits of a float. -/
inductive Number where
  | posInt (n : UInt64)
  | negInt (n : Int)
  | float (bits : UInt64)
deriving DecidableEq, Repr

namespace Number

/-- The number an integer is written as. -/
def ofInt (n : Int) : Number := if n < 0 then .negInt n else .posInt n.toNat.toUInt64

end Number

/-- A JSON value. -/
inductive Value where
  | null
  | bool (b : Bool)
  | number (n : Number)
  | string (s : String)
  | array (items : List Value)
  | object (fields : List (String × Value))

namespace Value

/-- A field of an object. -/
def get (key : String) : Value → Option Value
  | .object fields => fields.lookup key
  | _ => none

def asStr : Value → Option String
  | .string s => some s
  | _ => none

/-- Only a number written as a non-negative integer is one. -/
def asU64 : Value → Option UInt64
  | .number (.posInt n) => some n
  | _ => none

def ofU64 (n : UInt64) : Value := .number (.posInt n)

end Value

/-! ## Requests -/

/-- An incoming request. -/
structure Request where
  seq : UInt64
  command : String
  arguments : Value

namespace Request

/-- What a frame reads as. The derived reader takes a struct from an object, whose other
fields it ignores, and also from an array with the fields in order; `arguments` is null
where it is absent. -/
def fromValue : Value → Option Request
  | .object fields => do
    let seq ← (fields.lookup "seq").bind Value.asU64
    let command ← (fields.lookup "command").bind Value.asStr
    pure { seq, command, arguments := (fields.lookup "arguments").getD .null }
  | .array [seq, command] => do
    pure { seq := ← seq.asU64, command := ← command.asStr, arguments := .null }
  | .array [seq, command, arguments] => do
    pure { seq := ← seq.asU64, command := ← command.asStr, arguments }
  | _ => none

end Request

/-! ## Messages the server sends -/

/-- A successful response with a body. -/
def success (seq : UInt64) (request : Request) (body : Value) : Value :=
  .object [("seq", .ofU64 seq), ("type", .string "response"),
    ("request_seq", .ofU64 request.seq), ("command", .string request.command),
    ("success", .bool true), ("body", body)]

/-- A failure response with a user-facing message. -/
def failure (seq : UInt64) (request : Request) (message : String) : Value :=
  .object [("seq", .ofU64 seq), ("type", .string "response"),
    ("request_seq", .ofU64 request.seq), ("command", .string request.command),
    ("success", .bool false), ("message", .string message)]

/-- An event message. -/
def event (seq : UInt64) (name : String) (body : Value) : Value :=
  .object [("seq", .ofU64 seq), ("type", .string "event"), ("event", .string name),
    ("body", body)]

/-! ## Reading a sent message -/

/-- The message is a response. -/
def isResponse (message : Value) : Bool :=
  (message.get "type").bind Value.asStr == some "response"

/-- The message is the event `name`. -/
def IsEvent (name : String) (message : Value) : Prop :=
  message.get "type" = some (.string "event") ∧ message.get "event" = some (.string name)

/-- The message answers `request`: it carries the request's number and command. -/
def Echoes (request : Request) (message : Value) : Prop :=
  message.get "request_seq" = some (.ofU64 request.seq) ∧
    message.get "command" = some (.string request.command)

end Mirrorscope.Dap
