import FileTree.Json

/-!
# Identifiers

An entry is named by its index in the table, an open file by its descriptor number, a store by a
128-bit identity.  Each has a form for messages and a JSON form.

## Main definitions

* `EntryId`: the index of an entry; `EntryId.root` is the root directory
* `Descriptor`: the number of an open file; the numbers 0, 1 and 2 are the standard ones
* `StoreId`: the identity of a store, read from its hexadecimal text in any of four spellings
-/

namespace FileTree

/-- The identifier of an entry: an index in the table. -/
structure EntryId where
  index : Nat
  deriving DecidableEq, Repr

namespace EntryId

/-- The root directory, which is always present and its own parent. -/
def root : EntryId := ⟨0⟩

/-- The identifier of the root. -/
def isRoot (id : EntryId) : Bool :=
  id.index == 0

instance : ToString EntryId := ⟨fun id => s!"entry:{id.index}"⟩

/-- An identifier from JSON: a number of 32 bits. -/
def ofJson? (v : Json) : Option EntryId :=
  (v.nat? UInt32.size).map EntryId.mk

/-- The identifier as JSON: a bare number. -/
def toJson (id : EntryId) : Json :=
  Json.ofNat id.index

@[simp] theorem isRoot_iff (id : EntryId) : id.isRoot = true ↔ id = root := by
  cases id; simp [isRoot, root]

end EntryId

/-- The number of an open file. -/
structure Descriptor where
  number : UInt32
  deriving DecidableEq, Repr

namespace Descriptor

/-- Keyboard input. -/
def stdin : Descriptor := ⟨0⟩

/-- Console output. -/
def stdout : Descriptor := ⟨1⟩

/-- Console output for messages. -/
def stderr : Descriptor := ⟨2⟩

/-- The three descriptors that are always there. -/
def isStandard (fd : Descriptor) : Bool :=
  fd.number ≤ 2

instance : ToString Descriptor := ⟨fun fd => s!"fd{fd.number.toNat}"⟩

/-- A descriptor from JSON: a number of 32 bits. -/
def ofJson? (v : Json) : Option Descriptor :=
  (v.nat? UInt32.size).map fun n => ⟨n.toUInt32⟩

/-- The descriptor as JSON: a bare number. -/
def toJson (fd : Descriptor) : Json :=
  Json.ofNat fd.number.toNat

/-- Reading a descriptor's JSON form gives the descriptor. -/
@[simp] theorem ofJson?_toJson (fd : Descriptor) : ofJson? fd.toJson = some fd := by
  have h : fd.number.toNat < UInt32.size := fd.number.toNat_lt
  rw [ofJson?, toJson, Json.nat?_ofNat h, Option.map_some, Nat.toUInt32, UInt32.ofNat_toNat]

end Descriptor

/-- The identity of a store. -/
structure StoreId where
  value : BitVec 128
  deriving DecidableEq, Repr

namespace StoreId

/-- The value of a hexadecimal digit of either case. -/
def hexValue? (c : Char) : Option Nat :=
  let n := c.toNat
  if 0x30 ≤ n ∧ n ≤ 0x39 then some (n - 0x30)
  else if 0x61 ≤ n ∧ n ≤ 0x66 then some (n - 0x61 + 10)
  else if 0x41 ≤ n ∧ n ≤ 0x46 then some (n - 0x41 + 10)
  else none

/-- The identity with the given 32 hexadecimal digits. -/
def ofDigits? (cs : List Char) : Option StoreId :=
  if cs.length = 32 then
    (cs.foldlM (fun (n : Nat) c => (hexValue? c).map fun d => 16 * n + d) 0).map fun n =>
      ⟨BitVec.ofNat 128 n⟩
  else none

/-- The identity written in groups of 8, 4, 4, 4 and 12 digits with hyphens between them. -/
def ofGroups? (cs : List Char) : Option StoreId :=
  match cs.splitOn '-' with
  | [a, b, c, d, e] =>
    if a.length = 8 ∧ b.length = 4 ∧ c.length = 4 ∧ d.length = 4 ∧ e.length = 12 then
      ofDigits? (a ++ b ++ c ++ d ++ e)
    else none
  | _ => none

/-- An identity from its text: 32 digits, or five groups that stand alone, in braces or after
`urn:uuid:` in any mix of letter cases. -/
def ofText? (s : String) : Option StoreId :=
  match s.toList with
  | '\x7b' :: rest =>
    match rest.reverse with
    | '\x7d' :: inner => ofGroups? inner.reverse
    | _ => none
  | cs =>
    if (cs.take 9).map Char.toLower = "urn:uuid:".toList then ofGroups? (cs.drop 9)
    else if cs.length = 32 then ofDigits? cs
    else ofGroups? cs

/-- The 32 hexadecimal digits of an identity, in lower case. -/
def hexDigits (id : StoreId) : List Char :=
  (List.range 32).map fun i => Nat.digitChar (id.value.toNat >>> (4 * (31 - i)) % 16)

/-- The text of an identity: five groups of lower-case digits with hyphens between them. -/
def text (id : StoreId) : String :=
  let ds := id.hexDigits
  String.ofList (ds.take 8 ++ '-' :: (ds.drop 8).take 4 ++ '-' :: (ds.drop 12).take 4 ++
    '-' :: (ds.drop 16).take 4 ++ '-' :: ds.drop 20)

instance : ToString StoreId := ⟨fun id => s!"Store({id.text})"⟩

/-- An identity from JSON: its text. -/
def ofJson? (v : Json) : Option StoreId :=
  v.string?.bind ofText?

/-- The identity as JSON: its text. -/
def toJson (id : StoreId) : Json :=
  Json.ofString id.text

end StoreId

end FileTree
