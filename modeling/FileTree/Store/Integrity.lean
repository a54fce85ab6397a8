import FileTree.Store

/-!
# Checking the tree

A sound tree has the root in its place, entries with names and with no more content than room,
directories within their limit whose children point back, files without children, and every
entry listed once by its parent; what hangs below the root is all there is, and the cursor is a
directory.

## Main definitions

* `Store.verify`: the tree is sound, or the first fault
-/

namespace FileTree.Store

/-- The first fault in a list of checks. -/
def firstFault : List (Option StoreError) → Except StoreError Unit
  | [] => .ok ()
  | none :: rest => firstFault rest
  | some e :: _ => .error e

/-- A fault of the given kind, if the condition fails. -/
def demand (holds : Bool) (detail : String) : Option StoreError :=
  if holds then none else some (.corrupted detail)

/-- The root is in its place. -/
def rootFault (s : Store) : Option StoreError :=
  match s.table.get .root with
  | .error e => some e
  | .ok root =>
    demand (root.isDirectory && root.name == "/" && root.parent == .root) "root record damaged"

/-- The child is there and points back to the directory that lists it. -/
def childFault (s : Store) (id child : EntryId) : Option StoreError :=
  match s.table.find? child with
  | none => some (.corrupted s!"{id} lists free slot {child}")
  | some e => demand (e.parent == id) s!"{id} lists {child} but it points elsewhere"

/-- The faults in the children of an entry. -/
def childrenFaults (s : Store) (id : EntryId) (e : Entry) : List (Option StoreError) :=
  if e.isDirectory then
    demand (e.children.length ≤ s.config.maxChildren.toNat) s!"{id} has too many children" ::
      e.children.map (s.childFault id)
  else [demand e.children.isEmpty s!"file {id} has children"]

/-- The entry is listed once by a directory, its parent.  The root need not be. -/
def parentFault (s : Store) (id : EntryId) (e : Entry) : Option StoreError :=
  if id.isRoot then none
  else
    match s.table.find? e.parent with
    | none => some (.corrupted s!"{id} has a free parent slot")
    | some parent =>
      let links := parent.children.count id
      demand (parent.isDirectory && links == 1) s!"{id} is linked {links} times from its parent"

/-- The faults of one entry, in the order in which they are looked for. -/
def entryFaults (s : Store) (id : EntryId) : List (Option StoreError) :=
  match s.table.find? id with
  | none => []
  | some e =>
    [demand (!e.name.isEmpty) s!"{id} has an empty name",
      demand (e.size ≤ e.capacity) s!"{id} size exceeds capacity"] ++
      s.childrenFaults id e ++ [s.parentFault id e]

/-- Everything hangs below the root. -/
def reachFault (s : Store) : Option StoreError :=
  match s.walk .root with
  | .error e => some e
  | .ok order =>
    demand (order.length == s.table.size)
      s!"{s.table.size} entries live but {order.length} reachable"

/-- The cursor is a directory. -/
def cursorFault (s : Store) : Option StoreError :=
  match s.table.get s.cursor with
  | .error e => some e
  | .ok e => demand e.isDirectory "cursor is not a directory"

/-- The tree is sound, or the first fault. -/
def verify (s : Store) : Except StoreError Unit :=
  firstFault
    (s.rootFault :: (s.table.ids.flatMap s.entryFaults ++ [s.reachFault, s.cursorFault]))

/-- There is no fault exactly when every check passes. -/
theorem firstFault_eq_ok_iff (faults : List (Option StoreError)) :
    firstFault faults = .ok () ↔ ∀ fault ∈ faults, fault = none := by
  induction faults with
  | nil => simp [firstFault]
  | cons fault rest ih => cases fault <;> simp [firstFault, ih]

end FileTree.Store
