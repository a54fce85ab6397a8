import FileTree.Json.Text
import FileTree.Syscall.Response

/-!
# Requests and answers as JSON text

Requests and answers travel as the text of their JSON form, on one line. In a text the operands of
a call may also stand in an array, in their order and without their names.

## Main definitions

* `SyscallNumber.operands`: the names of the operands of a call, in order
* `Request.text`, `Response.text`: the text of a request and of an answer
* `Request.parse?`, `Response.parse?`: the request or the answer that a text spells
-/

namespace FileTree

namespace SyscallNumber

/-- The call with the given name. -/
def ofName? (name : String) : Option SyscallNumber :=
  [exit, write, read, openFile, closeFile, getPid, getEnv, setEnv].find? (·.name == name)

/-- The names of the operands of a call, in order. -/
def operands : SyscallNumber → List String
  | exit => ["status"]
  | write => ["fd", "data"]
  | read => ["fd", "max_len"]
  | openFile => ["path", "create"]
  | closeFile => ["fd"]
  | getPid => []
  | getEnv => ["key"]
  | setEnv => ["key", "value"]

@[simp] theorem ofName?_name (n : SyscallNumber) : ofName? n.name = some n := by
  cases n <;> rfl

end SyscallNumber

/-- An array of as many items as there are names, as the object that has them under these names. -/
def Json.named (names : List String) : Json → Json
  | .array items =>
    if items.length = names.length then ofMembers (names.zip items) else .array items
  | v => v

namespace Request

/-- The text of a request. -/
def text (r : Request) : List UInt8 :=
  r.toJson.compact

/-- A request from the JSON value of a text. -/
def ofWritten? : Json → Option Request
  | .object [(key, v)] =>
    (Json.text? key).bind fun name => (SyscallNumber.ofName? name).bind fun n =>
      ofMember? name (v.named n.operands)
  | v => ofJson? v

/-- The request that a text spells. -/
def parse? (text : List UInt8) : Option Request :=
  (Json.parse? text).bind ofWritten?

end Request

namespace Response

/-- The text of an answer. -/
def text (r : Response) : List UInt8 :=
  r.toJson.compact

/-- The answer that a text spells. -/
def parse? (text : List UInt8) : Option Response :=
  (Json.parse? text).bind ofJson?

end Response

end FileTree
