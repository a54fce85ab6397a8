import FileTree.Text.Utf8

/-!
# JSON values

A JSON value keeps its strings as they are spelled, as a row of bytes and of `\u` escapes, and
its members in the order and number in which they stand.  What a spelling means is asked for
separately: a string may spell no text at all, and still be well-formed where nobody reads it.

## Main definitions

* `Json`: a JSON value
* `Json.text?`: the text that a string spells, if it spells one
* `Json.ofText`: the plain spelling of a text
* `Json.nat?`, `Json.int?`, `Json.string?`, `Json.bool?`: the value as one of a given kind
* `Json.field?`: the value of the only member with a given name

## Main results

* `Json.text?_ofText`: the plain spelling of a text spells that text
-/

namespace FileTree

/-- A piece of a JSON string: a byte that stands for itself, or a `\u` escape of a UTF-16
unit. -/
inductive Json.Part where
  | byte (b : UInt8)
  | unit (u : UInt16)
  deriving DecidableEq

/-- A JSON number: a whole number as a sign and a magnitude, or the literal of a number that has
a fraction or an exponent. -/
inductive Json.Number where
  | whole (negative : Bool) (magnitude : Nat)
  | real (literal : List UInt8)
  deriving DecidableEq

/-- A JSON value. -/
inductive Json where
  | null
  | bool (value : Bool)
  | number (value : Json.Number)
  | string (body : List Json.Part)
  | array (items : List Json)
  | object (members : List (List Json.Part × Json))

namespace Json

/-- The first unit of a surrogate pair. -/
def isHighSurrogate (u : UInt16) : Bool :=
  0xd800 ≤ u && u ≤ 0xdbff

/-- The second unit of a surrogate pair. -/
def isLowSurrogate (u : UInt16) : Bool :=
  0xdc00 ≤ u && u ≤ 0xdfff

/-- The UTF-8 form of the character with the given code point. -/
def codePointBytes (n : Nat) : List UInt8 :=
  String.utf8EncodeChar (Char.ofNat n)

/-- The bytes that a spelling stands for, added to those in `done`, which come last first;
`none` when a surrogate stands alone. -/
def spelledBytes? (done : List UInt8) : List Part → Option (List UInt8)
  | [] => some done.reverse
  | .byte b :: rest => spelledBytes? (b :: done) rest
  | .unit u :: rest =>
    if isLowSurrogate u then none
    else if isHighSurrogate u then
      match rest with
      | .unit v :: rest =>
        if isLowSurrogate v then
          let n := 0x10000 + (u.toNat - 0xd800) * 0x400 + (v.toNat - 0xdc00)
          spelledBytes? ((codePointBytes n).reverse ++ done) rest
        else none
      | _ => none
    else spelledBytes? ((codePointBytes u.toNat).reverse ++ done) rest

/-- The text that a string spells: none when a surrogate stands alone or the bytes are not
UTF-8. -/
def text? (body : List Part) : Option String :=
  (spelledBytes? [] body).bind Text.ofBytes?

/-- The plain spelling of a text: its bytes, without escapes. -/
def ofText (s : String) : List Part :=
  (Text.bytes s).map .byte

/-- A JSON string that spells a text plainly. -/
def ofString (s : String) : Json :=
  .string (ofText s)

/-- A natural number as JSON. -/
def ofNat (n : Nat) : Json :=
  .number (.whole false n)

/-- A whole number as JSON. -/
def ofInt : Int → Json
  | .ofNat n => .number (.whole false n)
  | .negSucc n => .number (.whole true (n + 1))

/-- A JSON object with plainly spelled names. -/
def ofMembers (members : List (String × Json)) : Json :=
  .object (members.map fun m => (ofText m.1, m.2))

/-- The value as a text. -/
def string? : Json → Option String
  | .string body => text? body
  | _ => none

/-- The value as a truth value. -/
def bool? : Json → Option Bool
  | .bool b => some b
  | _ => none

/-- The value as a natural number below `bound`.  A number with a sign, a fraction or an
exponent is none. -/
def nat? (bound : Nat) : Json → Option Nat
  | .number (.whole false n) => if n < bound then some n else none
  | _ => none

/-- The value as a whole number from `low` to `high`.  A negative zero is none. -/
def int? (low high : Int) : Json → Option Int
  | .number (.whole false n) => if low ≤ n && n ≤ high then some n else none
  | .number (.whole true (n + 1)) =>
    if low ≤ Int.negSucc n && Int.negSucc n ≤ high then some (Int.negSucc n) else none
  | _ => none

/-- The value as a list of values. -/
def items? : Json → Option (List Json)
  | .array items => some items
  | _ => none

/-- The values of the members whose name spells `name`. -/
def valuesOf (name : String) (members : List (List Part × Json)) : List Json :=
  members.filterMap fun m => if text? m.1 = some name then some m.2 else none

/-- The value of the member with the given name: none when there is no such member or more than
one. -/
def field? (name : String) (members : List (List Part × Json)) : Option Json :=
  match valuesOf name members with
  | [value] => some value
  | _ => none

theorem spelledBytes?_map_byte (done b : List UInt8) :
    spelledBytes? done (b.map .byte) = some (done.reverse ++ b) := by
  induction b generalizing done with
  | nil => simp [spelledBytes?]
  | cons x b ih => simp [spelledBytes?, ih]

/-- The plain spelling of a text spells that text. -/
@[simp] theorem text?_ofText (s : String) : text? (ofText s) = some s := by
  simp [text?, ofText, spelledBytes?_map_byte]

@[simp] theorem string?_ofString (s : String) : (ofString s).string? = some s := by
  simp [string?, ofString]

@[simp] theorem nat?_ofNat {bound n : Nat} (h : n < bound) : (ofNat n).nat? bound = some n := by
  simp [nat?, ofNat, h]

@[simp] theorem int?_ofInt {low high n : Int} (hl : low ≤ n) (hh : n ≤ high) :
    (ofInt n).int? low high = some n := by
  match n with
  | .ofNat n => simp_all [int?, ofInt]
  | .negSucc n => simp [int?, ofInt, hl, hh]

end Json

end FileTree
