import FileTree.Path
import FileTree.Table

/-!
# From paths to entries

A path is followed one segment at a time: each segment names a child of the entry reached so
far.  A path without segments leads to where it starts.

## Main definitions

* `Table.findChild?`: the child with a given name
* `Table.descend?`: the entry reached by following names
* `Table.startOf`: where a path starts
* `Table.resolve`: the entry that a path names
-/

namespace FileTree.Table

/-- The first child of `dir` that has the given name. -/
def findChild? (t : Table) (dir : EntryId) (name : String) : Option EntryId :=
  match t.find? dir with
  | none => none
  | some e => e.children.find? fun child => (t.find? child).any (·.name == name)

/-- The entry reached from `start` by following the names. -/
def descend? (t : Table) (start : EntryId) (names : List String) : Option EntryId :=
  names.foldlM t.findChild? start

/-- Where a path starts: at the root or, for a relative path, at `base`. -/
def startOf (base : EntryId) (path : String) : EntryId :=
  if Path.isAbsolute path then .root else base

/-- The entry that a path names, from the root or, for a relative path, from `base`. -/
def resolve (t : Table) (base : EntryId) (path : String) : Except StoreError EntryId :=
  if Path.isAbsolute path || t.isUsed base then
    match t.descend? (startOf base path) (Path.segments path) with
    | some id => .ok id
    | none => .error (.notFound path)
  else .error (.invalidId base)

@[simp] theorem descend?_nil (t : Table) (start : EntryId) :
    t.descend? start [] = some start := rfl

@[simp] theorem descend?_cons (t : Table) (start : EntryId) (name : String)
    (names : List String) :
    t.descend? start (name :: names) =
      (t.findChild? start name).bind fun child => t.descend? child names := rfl

/-- Names are followed in two parts as in one. -/
theorem descend?_append (t : Table) (start : EntryId) (names more : List String) :
    t.descend? start (names ++ more) =
      (t.descend? start names).bind fun id => t.descend? id more := by
  induction names generalizing start with
  | nil => rfl
  | cons name names ih =>
    simp only [List.cons_append, descend?_cons, ih, Option.bind_assoc]

end FileTree.Table
