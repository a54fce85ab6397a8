import FileTree.Resolution

/-!
# Walking the tree

A walk visits an entry and everything below it, parents before children and siblings in the
order of their creation.  It keeps a stack of the entries still to be visited and gives up once
it has visited as many entries as the table has slots, since then the links run in a circle.

The way up from an entry gives its full path, cut at both ends by the limits of the store.

## Main definitions

* `Table.walk`: an entry and everything below it
* `Table.namesUp`: the names on the way up from an entry
* `Path.render`: a path from its names, as far as it fits
-/

namespace FileTree

namespace Table

/-- The walk with the given stack, when `room` more entries may be visited. -/
def walkFrom (t : Table) (start : EntryId) :
    Nat → List EntryId → Except StoreError (List EntryId)
  | _, [] => .ok []
  | 0, _ :: _ => .error (.corrupted s!"cycle below {start}")
  | room + 1, id :: stack =>
    match t.get id with
    | .error e => .error e
    | .ok entry =>
      match walkFrom t start room (entry.children ++ stack) with
      | .error e => .error e
      | .ok visited => .ok (id :: visited)

/-- An entry and everything below it, parents before children. -/
def walk (t : Table) (id : EntryId) : Except StoreError (List EntryId) :=
  t.walkFrom id t.capacity [id]

/-- The names on the way up from an entry to the root, the entry's own name first, but at most
`depth` of them.  The root itself has no part in it. -/
def namesUp (t : Table) : Nat → EntryId → Except StoreError (List String)
  | 0, _ => .ok []
  | depth + 1, id =>
    if id.isRoot then .ok []
    else
      match t.get id with
      | .error e => .error e
      | .ok entry =>
        match t.namesUp depth entry.parent with
        | .error e => .error e
        | .ok names => .ok (entry.name :: names)

end Table

namespace Path

/-- A rendered path with further names, each after a separator, as long as it has at most
`limit` bytes. -/
def extend (limit : Nat) (path : String) : List String → String
  | [] => path
  | name :: names =>
    if path.utf8ByteSize + 1 + name.utf8ByteSize > limit then path
    else extend limit (path ++ "/" ++ name) names

/-- The path with the given names from the root, as far as it has at most `limit` bytes. -/
def render (limit : Nat) : List String → String
  | [] => "/"
  | name :: names =>
    if 1 + name.utf8ByteSize > limit then "/" else extend limit ("/" ++ name) names

end Path

end FileTree
