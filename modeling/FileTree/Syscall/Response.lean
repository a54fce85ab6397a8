import FileTree.Syscall.Request

/-!
# Responses

What the system answers to a request, the return code that the raw interface shows of it, and
its JSON form: an object with one member, named for the kind of answer, or the bare name of an
answer that carries nothing.

## Main definitions

* `Response`: an answer
* `Response.returnCode`: what the raw interface returns
* `Response.toJson`, `Response.ofJson?`: the two directions between answers and JSON values
-/

namespace FileTree

/-- An answer to a request. -/
inductive Response where
  | exited (status : Int32)
  | count (n : UInt64)
  | data (bytes : List UInt8)
  | opened (fd : Descriptor)
  | closed
  | pid (n : UInt32)
  | env (value : Option String)
  | envSet
  deriving DecidableEq

namespace Response

/-- A number as the raw interface shows it: wrapped to 64 bits with sign. -/
def wrapped (n : Nat) : Int :=
  (n : Int).bmod UInt64.size

/-- What the raw interface returns for a variable that is not set. -/
def envNotSet : Int := -1

/-- What the raw interface returns for an answer. -/
def returnCode : Response → Int
  | .exited status => status.toInt
  | .count n => wrapped n.toNat
  | .data bytes => wrapped bytes.length
  | .opened fd => fd.number.toNat
  | .pid n => n.toNat
  | .env none => envNotSet
  | .closed | .env (some _) | .envSet => 0

/-- An answer as JSON. -/
def toJson : Response → Json
  | .exited status => Json.ofMembers [("Exited", Json.ofInt status.toInt)]
  | .count n => Json.ofMembers [("Count", Json.ofNat n.toNat)]
  | .data bytes => Json.ofMembers [("Data", Json.ofBytes bytes)]
  | .opened fd => Json.ofMembers [("Opened", fd.toJson)]
  | .closed => Json.ofString "Closed"
  | .pid n => Json.ofMembers [("Pid", Json.ofNat n.toNat)]
  | .env none => Json.ofMembers [("Env", .null)]
  | .env (some value) => Json.ofMembers [("Env", Json.ofString value)]
  | .envSet => Json.ofString "EnvSet"

/-- The answer that carries nothing and has the given name. -/
def ofName? (name : String) : Option Response :=
  if name = "Closed" then some .closed
  else if name = "EnvSet" then some .envSet
  else none

/-- The value of a variable, which is null when it is not set. -/
def envOfJson? : Json → Option (Option String)
  | .null => some none
  | v => v.string?.map some

/-- The answer of the named kind with the given value of its member. -/
def ofMember? (name : String) (v : Json) : Option Response :=
  if name = "Exited" then v.int32?.map .exited
  else if name = "Count" then v.uint64?.map .count
  else if name = "Data" then v.bytes?.map .data
  else if name = "Opened" then (Descriptor.ofJson? v).map .opened
  else if name = "Pid" then (v.nat? UInt32.size).map fun n => .pid n.toUInt32
  else if name = "Env" then (envOfJson? v).map .env
  else
    match v with
    | .null => ofName? name
    | _ => none

/-- An answer from JSON. -/
def ofJson? : Json → Option Response
  | .string body => (Json.text? body).bind ofName?
  | .object [(key, v)] => (Json.text? key).bind fun name => ofMember? name v
  | _ => none

end Response

end FileTree
