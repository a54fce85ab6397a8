import FileTree.Json.Token
import FileTree.Text.Decimal

/-!
# JSON text

Values from tokens, by a machine that takes one token at a time and keeps the brackets that are
still open, so that the depth of a text has no bound.  Values to text, in a layout that fixes
the blanks: everything on one line, or one item to a line.

## Main definitions

* `Json.step?`: one token taken by the machine
* `Json.ofTokens?`: the value that the tokens spell
* `Json.parse?`: the value of a text
* `Json.write`: the text of a value in a layout
* `Json.compact`, `Json.indented`: the two layouts' texts
-/

namespace FileTree.Json

/-- A bracket that is still open, with what stands in it so far, the last item first. -/
inductive Frame where
  | array (done : List Json)
  | object (done : List (List Part × Json)) (key : List Part)

/-- What the machine waits for. -/
inductive Awaited where
  /-- A value. -/
  | value
  /-- The first item of an array, or its end. -/
  | valueOrClose
  /-- The name of a further member. -/
  | key (done : List (List Part × Json))
  /-- The name of the first member of an object, or its end. -/
  | keyOrClose
  /-- The colon after a name. -/
  | colon (done : List (List Part × Json)) (key : List Part)
  /-- What follows a finished value. -/
  | separator (finished : Json)

/-- The token begins a value. -/
def beginValue? (stack : List Frame) : Token → Option (Awaited × List Frame)
  | .openArray => some (.valueOrClose, .array [] :: stack)
  | .openObject => some (.keyOrClose, stack)
  | .null => some (.separator .null, stack)
  | .bool b => some (.separator (.bool b), stack)
  | .number n => some (.separator (.number n), stack)
  | .string body => some (.separator (.string body), stack)
  | _ => none

/-- The token follows the finished value. -/
def afterValue? (v : Json) : List Frame → Token → Option (Awaited × List Frame)
  | .array done :: stack, .comma => some (.value, .array (v :: done) :: stack)
  | .array done :: stack, .closeArray => some (.separator (.array (v :: done).reverse), stack)
  | .object done key :: stack, .comma => some (.key ((key, v) :: done), stack)
  | .object done key :: stack, .closeObject =>
    some (.separator (.object ((key, v) :: done).reverse), stack)
  | _, _ => none

/-- One token taken by the machine. -/
def step? : Awaited × List Frame → Token → Option (Awaited × List Frame)
  | (.value, stack), t => beginValue? stack t
  | (.valueOrClose, .array [] :: stack), .closeArray => some (.separator (.array []), stack)
  | (.valueOrClose, stack), t => beginValue? stack t
  | (.keyOrClose, stack), .closeObject => some (.separator (.object []), stack)
  | (.keyOrClose, stack), .string body => some (.colon [] body, stack)
  | (.key done, stack), .string body => some (.colon done body, stack)
  | (.colon done key, stack), .colon => some (.value, .object done key :: stack)
  | (.separator v, stack), t => afterValue? v stack t
  | _, _ => none

/-- The value that the tokens spell. -/
def ofTokens? (tokens : List Token) : Option Json :=
  match tokens.foldlM step? (.value, []) with
  | some (.separator v, []) => some v
  | _ => none

/-- The value of a text. -/
def parse? (text : List UInt8) : Option Json :=
  (Token.scan? text).bind ofTokens?

/-- Where blanks stand in a text: before an item at a given depth, and after a colon. -/
structure Layout where
  lineBreak : Nat → List UInt8
  afterColon : List UInt8

/-- Everything on one line, without blanks. -/
def Layout.compact : Layout := ⟨fun _ => [], []⟩

/-- One item to a line, two spaces deeper in every bracket, and a space after a colon. -/
def Layout.indented : Layout := ⟨fun depth => 0x0a :: List.replicate (2 * depth) 0x20, [0x20]⟩

/-- A character of JSON's own alphabet as text. -/
def mark (c : Char) : List UInt8 := [ascii c]

/-- The hexadecimal digit of a value below sixteen, in lower case. -/
def hexDigit (d : Nat) : UInt8 :=
  (if d < 10 then 0x30 + d else 0x61 + (d - 10)).toUInt8

/-- The escape of a UTF-16 unit. -/
def unitEscape (u : UInt16) : List UInt8 :=
  let n := u.toNat
  [ascii '\\', ascii 'u', hexDigit (n / 0x1000), hexDigit (n / 0x100 % 0x10),
    hexDigit (n / 0x10 % 0x10), hexDigit (n % 0x10)]

/-- A byte as it is written in a string: quotes, backslashes and control bytes are escaped. -/
def writeByte (b : UInt8) : List UInt8 :=
  if b = 0x22 then mark '\\' ++ mark '"'
  else if b = 0x5c then mark '\\' ++ mark '\\'
  else if b = 0x08 then mark '\\' ++ mark 'b'
  else if b = 0x0c then mark '\\' ++ mark 'f'
  else if b = 0x0a then mark '\\' ++ mark 'n'
  else if b = 0x0d then mark '\\' ++ mark 'r'
  else if b = 0x09 then mark '\\' ++ mark 't'
  else if b < 0x20 then unitEscape b.toUInt16
  else [b]

/-- A piece of a string as text. -/
def Part.write : Part → List UInt8
  | .byte b => writeByte b
  | .unit u => unitEscape u

/-- A string as text. -/
def writeString (body : List Part) : List UInt8 :=
  mark '"' ++ (body.flatMap Part.write ++ mark '"')

/-- A number as text. -/
def Number.write : Number → List UInt8
  | .whole negative magnitude =>
    (if negative then mark '-' else []) ++ (Text.Decimal.digits magnitude).map ascii
  | .real literal => literal

/-- A word as text. -/
def word (cs : List Char) : List UInt8 := cs.map ascii

mutual

/-- The text of a value in a layout, at a depth of open brackets. -/
def writeAt (l : Layout) (depth : Nat) : Json → List UInt8
  | .null => word ['n', 'u', 'l', 'l']
  | .bool true => word ['t', 'r', 'u', 'e']
  | .bool false => word ['f', 'a', 'l', 's', 'e']
  | .number n => n.write
  | .string body => writeString body
  | .array [] => mark '[' ++ mark ']'
  | .array (v :: rest) =>
    mark '[' ++ (l.lineBreak (depth + 1) ++ (writeAt l (depth + 1) v ++
      (writeItems l (depth + 1) rest ++ (l.lineBreak depth ++ mark ']'))))
  | .object [] => mark '\x7b' ++ mark '\x7d'
  | .object ((key, v) :: rest) =>
    mark '\x7b' ++ (l.lineBreak (depth + 1) ++ (writeString key ++ (mark ':' ++ (l.afterColon ++
      (writeAt l (depth + 1) v ++ (writeMembers l (depth + 1) rest ++
        (l.lineBreak depth ++ mark '\x7d')))))))

/-- The text of the further items of an array. -/
def writeItems (l : Layout) (depth : Nat) : List Json → List UInt8
  | [] => []
  | v :: rest =>
    mark ',' ++ (l.lineBreak depth ++ (writeAt l depth v ++ writeItems l depth rest))

/-- The text of the further members of an object. -/
def writeMembers (l : Layout) (depth : Nat) : List (List Part × Json) → List UInt8
  | [] => []
  | (key, v) :: rest =>
    mark ',' ++ (l.lineBreak depth ++ (writeString key ++ (mark ':' ++ (l.afterColon ++
      (writeAt l depth v ++ writeMembers l depth rest)))))

end

/-- The text of a value in a layout. -/
def write (l : Layout) (v : Json) : List UInt8 :=
  writeAt l 0 v

/-- The text of a value on one line. -/
def compact (v : Json) : List UInt8 :=
  write .compact v

/-- The text of a value with one item to a line. -/
def indented (v : Json) : List UInt8 :=
  write .indented v

end FileTree.Json
