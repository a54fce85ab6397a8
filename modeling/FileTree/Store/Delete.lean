import FileTree.Store

/-!
# Deleting a subtree

An entry goes with everything below it, children before parents, so that no link is ever left
without an entry at its end.  A cursor that stood in the subtree returns to the root.

## Main definitions

* `Store.removeEntry`: takes one entry out of the tree
* `Store.delete`: takes out an entry and everything below it
-/

namespace FileTree.Store

/-- The store whose cursor, if it stood at the entry, is back at the root. -/
def leave (s : Store) (id : EntryId) : Store :=
  if s.cursor = id then { s with cursor := .root } else s

/-- Takes one entry out of its parent's list and its slot, and gives its buffer back. -/
def removeEntry (s : Store) (id : EntryId) : Except StoreError Unit × Store :=
  match s.table.get id with
  | .error e => (.error e, s)
  | .ok entry =>
    let s := { s with table := s.table.modify entry.parent (·.dropChild id) }
    match s.table.release id with
    | .error e => (.error e, s)
    | .ok (entry, table) =>
      let s := { s with table := table }
      let s := match entry.content with
        | some buffer => s.giveBack id buffer
        | none => s
      (.ok (), s.leave id)

/-- Takes out the entries one after the other, up to the first that cannot be taken out. -/
def removeAll (s : Store) : List EntryId → Except StoreError Unit × Store
  | [] => (.ok (), s)
  | id :: rest =>
    match s.removeEntry id with
    | (.error e, s) => (.error e, s)
    | (.ok (), s) => s.removeAll rest

/-- Takes out an entry and everything below it.  The answer is the number of entries taken
out. -/
def delete (s : Store) (id : EntryId) : Except StoreError Nat × Store :=
  if id.isRoot then (.error .cannotDeleteRoot, s)
  else
    match s.table.get id with
    | .error e => (.error e, s)
    | .ok _ =>
      match s.walk id with
      | .error e => (.error e, s)
      | .ok order =>
        match s.removeAll order.reverse with
        | (.error e, after) => (.error e, after)
        | (.ok (), after) =>
          let after := after.record {
            level := .info, component
            message := "deleted"
            source := some s.id
            fields := [("id", toString id.index), ("entries", toString order.length)] }
          let after :=
            if order.contains s.cursor then
              after.note .debug "cursor reset to root" (some .root)
            else after
          (.ok order.length, after)

end FileTree.Store
