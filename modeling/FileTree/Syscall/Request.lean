import FileTree.Identifier

/-!
# Requests

What a process asks of the system, and the JSON form in which it asks.  A request is an object
with one member, named for the call, whose value has the operands by name; a call without
operands is given by its bare name.

## Main definitions

* `SyscallNumber`: the calls, with the numbers under which they travel
* `Request`: a call with its operands
* `Request.toJson`, `Request.ofJson?`: the two directions between requests and JSON values
* `Json.operand?`: an operand of a call, by name
-/

namespace FileTree

/-- The calls. -/
inductive SyscallNumber where
  | exit
  | write
  | read
  | openFile
  | closeFile
  | getPid
  | getEnv
  | setEnv
  deriving DecidableEq

namespace SyscallNumber

/-- The number under which a call travels. -/
def raw : SyscallNumber → Nat
  | exit => 1
  | write => 2
  | read => 3
  | openFile => 4
  | closeFile => 5
  | getPid => 9
  | getEnv => 15
  | setEnv => 16

/-- The call with the given number. -/
def ofRaw? (n : Nat) : Option SyscallNumber :=
  [exit, write, read, openFile, closeFile, getPid, getEnv, setEnv].find? (·.raw == n)

/-- The name of a call. -/
def name : SyscallNumber → String
  | exit => "Exit"
  | write => "Write"
  | read => "Read"
  | openFile => "Open"
  | closeFile => "Close"
  | getPid => "GetPid"
  | getEnv => "GetEnv"
  | setEnv => "SetEnv"

@[simp] theorem ofRaw?_raw (n : SyscallNumber) : ofRaw? n.raw = some n := by
  cases n <;> rfl

end SyscallNumber

/-- A call with its operands. -/
inductive Request where
  | exit (status : Int32)
  | write (fd : Descriptor) (data : List UInt8)
  | read (fd : Descriptor) (maxLength : UInt64)
  | openFile (path : String) (create : Bool)
  | closeFile (fd : Descriptor)
  | getPid
  | getEnv (key : String)
  | setEnv (key value : String)
  deriving DecidableEq

namespace Json

/-- A number of 32 bits with sign. -/
def int32? (v : Json) : Option Int32 :=
  (v.int? Int32.minValue.toInt Int32.maxValue.toInt).map Int32.ofInt

/-- A number of 64 bits without sign. -/
def uint64? (v : Json) : Option UInt64 :=
  (v.nat? UInt64.size).map Nat.toUInt64

/-- A byte. -/
def byte? (v : Json) : Option UInt8 :=
  (v.nat? UInt8.size).map Nat.toUInt8

/-- A row of bytes as an array of numbers. -/
def ofBytes (b : List UInt8) : Json :=
  .array (b.map fun x => ofNat x.toNat)

/-- A row of bytes from an array of numbers. -/
def bytes? (v : Json) : Option (List UInt8) :=
  v.items?.bind fun items => items.mapM byte?

/-- The operand with the given name, read in the given way: the only member of that name, in an
object that may have others besides. -/
def operand? {α : Type} (read : Json → Option α) (name : String) : Json → Option α
  | .object members =>
    if members.all fun m => (text? m.1).isSome then (field? name members).bind read else none
  | _ => none

end Json

namespace Request

/-- The call that a request makes. -/
def number : Request → SyscallNumber
  | .exit _ => .exit
  | .write _ _ => .write
  | .read _ _ => .read
  | .openFile _ _ => .openFile
  | .closeFile _ => .closeFile
  | .getPid => .getPid
  | .getEnv _ => .getEnv
  | .setEnv _ _ => .setEnv

/-- The request with operands as JSON. -/
def withOperands (n : SyscallNumber) (operands : List (String × Json)) : Json :=
  Json.ofMembers [(n.name, Json.ofMembers operands)]

/-- A request as JSON. -/
def toJson : Request → Json
  | .exit status => withOperands .exit [("status", Json.ofInt status.toInt)]
  | .write fd data => withOperands .write [("fd", fd.toJson), ("data", Json.ofBytes data)]
  | .read fd maxLength =>
    withOperands .read [("fd", fd.toJson), ("max_len", Json.ofNat maxLength.toNat)]
  | .openFile path create =>
    withOperands .openFile [("path", Json.ofString path), ("create", .bool create)]
  | .closeFile fd => withOperands .closeFile [("fd", fd.toJson)]
  | .getPid => Json.ofString SyscallNumber.getPid.name
  | .getEnv key => withOperands .getEnv [("key", Json.ofString key)]
  | .setEnv key value =>
    withOperands .setEnv [("key", Json.ofString key), ("value", Json.ofString value)]

/-- The request for the named call with the given value of its member. -/
def ofMember? (name : String) (v : Json) : Option Request :=
  if name = "Exit" then return .exit (← v.operand? Json.int32? "status")
  else if name = "Write" then
    return .write (← v.operand? Descriptor.ofJson? "fd") (← v.operand? Json.bytes? "data")
  else if name = "Read" then
    return .read (← v.operand? Descriptor.ofJson? "fd") (← v.operand? Json.uint64? "max_len")
  else if name = "Open" then
    return .openFile (← v.operand? Json.string? "path") (← v.operand? Json.bool? "create")
  else if name = "Close" then return .closeFile (← v.operand? Descriptor.ofJson? "fd")
  else if name = "GetPid" then
    match v with
    | .null => some .getPid
    | _ => none
  else if name = "GetEnv" then return .getEnv (← v.operand? Json.string? "key")
  else if name = "SetEnv" then
    return .setEnv (← v.operand? Json.string? "key") (← v.operand? Json.string? "value")
  else none

/-- A request from JSON. -/
def ofJson? : Json → Option Request
  | .string body => if Json.text? body = some "GetPid" then some .getPid else none
  | .object [(key, v)] => (Json.text? key).bind fun name => ofMember? name v
  | _ => none

end Request

end FileTree
