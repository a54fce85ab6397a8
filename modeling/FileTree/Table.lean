import FileTree.StoreError

/-!
# The entry table

A table has a fixed number of slots.  The root directory stands in slot 0 for good; every other
slot is free or holds one entry.  A new entry takes the lowest free slot.  A slot counts how
often it was vacated, modulo 2³², so that an entry can be told from a later one in the same slot.

## Main definitions

* `Entry`: a file or a directory
* `Table`: the slots, and the free ones in ascending order
* `Table.get`: the entry with a given identifier
* `Table.allocate`, `Table.release`, `Table.modify`: filling, vacating and changing a slot

## Main results

* `Table.find?_modify`: changing one entry leaves the others alone
-/

namespace FileTree

/-- What an entry is. -/
inductive EntryKind where
  | file
  | directory
  deriving DecidableEq

instance : ToString EntryKind :=
  ⟨fun
    | .file => "file"
    | .directory => "directory"⟩

/-- A file or a directory. -/
structure Entry where
  name : String
  kind : EntryKind
  /-- The directory that holds the entry; the root holds itself. -/
  parent : EntryId
  /-- The entries of a directory, in the order of their creation. -/
  children : List EntryId := []
  /-- The buffer of a file that was written. -/
  content : Option Buffer := none
  /-- The number of content bytes. -/
  size : Nat := 0
  deriving DecidableEq

namespace Entry

/-- The root directory as it is at first. -/
def root : Entry :=
  { name := "/", kind := .directory, parent := .root }

/-- The entry is a directory. -/
def isDirectory (e : Entry) : Bool :=
  e.kind == .directory

/-- The number of bytes allocated for content. -/
def capacity (e : Entry) : Nat :=
  match e.content with
  | some b => b.capacity
  | none => 0

/-- The content bytes. -/
def data (e : Entry) : List UInt8 :=
  match e.content with
  | some b => b.first e.size
  | none => []

/-- The entry with the given buffer, of which the first `size` bytes are content. -/
def withContent (e : Entry) (b : Buffer) (size : Nat) : Entry :=
  { e with content := some b, size := size }

/-- The entry with one more child, which comes last. -/
def addChild (e : Entry) (id : EntryId) : Entry :=
  { e with children := e.children ++ [id] }

/-- The entry without the given child. -/
def dropChild (e : Entry) (id : EntryId) : Entry :=
  { e with children := e.children.filter (· != id) }

/-- The entry under another name. -/
def renamed (e : Entry) (name : String) : Entry :=
  { e with name := name }

end Entry

/-- A place for an entry. -/
structure Slot where
  occupant : Option Entry := none
  /-- How often the slot was vacated, modulo 2³². -/
  generation : UInt32 := 0

/-- The slots, and the free ones in ascending order. -/
structure Table where
  slots : Array Slot
  free : List Nat

namespace Table

/-- A table of `capacity` slots, but at least one, with the root in slot 0. -/
def new (capacity : Nat) : Table where
  slots := (Array.replicate (max capacity 1) {}).set! 0 { occupant := some Entry.root }
  free := List.range' 1 (max capacity 1 - 1)

/-- The number of slots. -/
def capacity (t : Table) : Nat :=
  t.slots.size

/-- The number of entries. -/
def size (t : Table) : Nat :=
  t.slots.size - t.free.length

/-- The entry with the given identifier, if there is one. -/
def find? (t : Table) (id : EntryId) : Option Entry :=
  t.slots[id.index]?.bind Slot.occupant

/-- The entry with the given identifier. -/
def get (t : Table) (id : EntryId) : Except StoreError Entry :=
  match t.find? id with
  | some e => .ok e
  | none => .error (.invalidId id)

/-- The identifier names an entry. -/
def isUsed (t : Table) (id : EntryId) : Bool :=
  (t.find? id).isSome

/-- The generation of a slot, or zero outside the table. -/
def generationAt (t : Table) (id : EntryId) : UInt32 :=
  (t.slots[id.index]?.map Slot.generation).getD 0

/-- The generation of the slot of an entry. -/
def generation (t : Table) (id : EntryId) : Except StoreError UInt32 :=
  match t.find? id with
  | some _ => .ok (t.generationAt id)
  | none => .error (.invalidId id)

/-- The lowest free identifier. -/
def firstFree? (t : Table) : Option EntryId :=
  t.free.head?.map EntryId.mk

/-- The table with other entry in the given slot, whose generation stays. -/
def put (t : Table) (id : EntryId) (e : Entry) : Table :=
  { t with slots := t.slots.modify id.index fun slot => { slot with occupant := some e } }

/-- The table with one entry changed. -/
def modify (t : Table) (id : EntryId) (f : Entry → Entry) : Table :=
  { t with
    slots := t.slots.modify id.index fun slot =>
      { slot with occupant := slot.occupant.map f } }

/-- Puts an entry into the lowest free slot. -/
def allocate (t : Table) (e : Entry) : Except StoreError (EntryId × Table) :=
  match t.free with
  | [] => .error (.tableFull t.capacity)
  | index :: rest => .ok (⟨index⟩, { t with free := rest }.put ⟨index⟩ e)

/-- A number put into an ascending list. -/
def insertFree (n : Nat) : List Nat → List Nat
  | [] => [n]
  | m :: rest => if n < m then n :: m :: rest else m :: insertFree n rest

/-- The table with a slot vacated: its generation advances, and it is free. -/
def vacate (t : Table) (id : EntryId) : Table where
  slots := t.slots.modify id.index fun slot =>
    { occupant := none, generation := slot.generation + 1 }
  free := insertFree id.index t.free

/-- Takes an entry out of its slot.  The root stays. -/
def release (t : Table) (id : EntryId) : Except StoreError (Entry × Table) :=
  if id.isRoot then .error .cannotDeleteRoot
  else
    match t.find? id with
    | none => .error (.invalidId id)
    | some e => .ok (e, t.vacate id)

/-- The identifiers of all entries, in ascending order. -/
def ids (t : Table) : List EntryId :=
  ((List.range t.slots.size).map EntryId.mk).filter t.isUsed

@[simp] theorem capacity_modify (t : Table) (id : EntryId) (f : Entry → Entry) :
    (t.modify id f).capacity = t.capacity := by
  simp [capacity, modify]

/-- Changing one entry leaves the others alone. -/
theorem find?_modify (t : Table) (id other : EntryId) (f : Entry → Entry) :
    (t.modify id f).find? other =
      if id = other then (t.find? other).map f else t.find? other := by
  cases id; cases other
  simp only [find?, modify, Array.getElem?_modify, EntryId.mk.injEq]
  split
  · rename_i i j h
    cases t.slots[j]? <;> simp
  · rfl

@[simp] theorem generationAt_modify (t : Table) (id other : EntryId) (f : Entry → Entry) :
    (t.modify id f).generationAt other = t.generationAt other := by
  simp only [generationAt, modify, Array.getElem?_modify]
  split <;> cases t.slots[other.index]? <;> simp

/-- Filling a slot leaves the other entries alone. -/
theorem find?_put (t : Table) (id other : EntryId) (e : Entry) :
    (t.put id e).find? other =
      if id = other ∧ id.index < t.slots.size then some e else t.find? other := by
  cases id; cases other
  simp only [find?, put, Array.getElem?_modify, EntryId.mk.injEq]
  rename_i i j
  by_cases h : i = j
  · subst h
    by_cases hi : i < t.slots.size <;> simp [hi]
  · simp [h]

/-- Vacating a slot leaves the other entries alone. -/
theorem find?_vacate (t : Table) (id other : EntryId) :
    (t.vacate id).find? other = if id = other then none else t.find? other := by
  cases id; cases other
  simp only [find?, vacate, Array.getElem?_modify, EntryId.mk.injEq]
  split
  · rename_i i j h
    cases t.slots[j]? <;> simp
  · rfl

end Table

end FileTree
