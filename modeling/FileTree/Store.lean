import FileTree.Traversal

/-!
# The store

A store is an entry table with a cursor, the current directory; a heap for the content of files;
and a log.  Every operation is a function from the store before to the answer and the store
after.  An operation that is refused may still write to the log.

New entries appear in the current directory: creation takes a path without its leading slashes
as one name, cut to the longest length that the store allows.

## Main definitions

* `Store`: the state of a store; `Store.fresh` is the one with a root only
* `Store.changeDirectory`: moves the cursor
* `Store.create`: makes an entry, or finds the one that has the name
* `Store.write`, `Store.read`, `Store.readAll`: the content of a file
* `Store.rename`: gives an entry another name
* `Store.resolve`, `Store.listChildren`, `Store.fullPath`: looking around
-/

namespace FileTree

/-- The state of a store. -/
structure Store where
  id : StoreId
  config : Config
  table : Table
  /-- The current directory. -/
  cursor : EntryId
  heap : Heap
  log : Log

namespace Store

/-- The name under which a store writes to its log. -/
def component : String := "ramfs"

/-- The store with one more event in its log. -/
def record (s : Store) (r : Record) : Store :=
  { s with log := s.log.record r }

/-- The store with an event of its own in its log, about the given entry if there is one. -/
def note (s : Store) (level : Level) (message : String) (about : Option EntryId) : Store :=
  s.record {
    level, component, message
    source := some s.id
    fields := match about with
      | some id => [("id", toString id.index)]
      | none => [] }

/-- A store with a root only, whose configuration is not looked at. -/
def init (id : StoreId) (config : Config) (heap : Heap) : Store :=
  let s : Store := {
    id, config, heap
    table := Table.new config.maxEntries.toNat
    cursor := .root
    log := { capacity := config.logCapacity.toNat } }
  s.record {
    level := .info, component
    message := "store initialized"
    source := some id
    fields := [("max_entries", toString config.maxEntries.toNat)] }

/-- A store with a root only, if its configuration is sound. -/
def fresh (id : StoreId) (config : Config) (heap : Heap) : Except StoreError Store :=
  match config.check with
  | .error e => .error (.config e)
  | .ok () => .ok (init id config heap)

/-- The entry with the given identifier. -/
def entry (s : Store) (id : EntryId) : Except StoreError Entry :=
  s.table.get id

/-- The entry that a path names, from the root or the cursor. -/
def resolve (s : Store) (path : String) : Except StoreError EntryId :=
  s.table.resolve s.cursor path

/-- Moves the cursor to a directory. -/
def changeDirectory (s : Store) (id : EntryId) : Except StoreError Unit × Store :=
  match s.table.get id with
  | .error e => (.error e, s)
  | .ok e =>
    if e.isDirectory then (.ok (), { s with cursor := id }.note .debug "cursor moved" (some id))
    else (.error (.notADirectory id), s)

/-- A name cut to the longest length.  An empty name is refused under the text `given`. -/
def normalizeName (s : Store) (name given : String) : Except StoreError String :=
  let cut := Record.cut s.config.maxNameLength.toNat name
  if cut.isEmpty then .error (.invalidName given) else .ok cut

/-- Makes an entry in the current directory, whose name is the path without its leading
separators.  If an entry there has the name, that entry is the answer, whatever its kind. -/
def create (s : Store) (kind : EntryKind) (path : String) : Except StoreError EntryId × Store :=
  match s.normalizeName (Path.creationName path) path with
  | .error e => (.error e, s)
  | .ok name =>
    match s.table.findChild? s.cursor name with
    | some existing => (.ok existing, s)
    | none =>
      match s.table.get s.cursor with
      | .error e => (.error e, s)
      | .ok dir =>
        if dir.children.length ≥ s.config.maxChildren.toNat then
          (.error (.directoryFull s.cursor s.config.maxChildren.toNat),
            s.note .warn "directory full" (some s.cursor))
        else
          match s.table.allocate { name, kind, parent := s.cursor } with
          | .error e => (.error e, s.note .warn "entry table full" none)
          | .ok (id, table) =>
            (.ok id, { s with table := table.modify s.cursor (·.addChild id) }.note .debug
              s!"created {kind}" (some id))

/-- Makes a file in the current directory. -/
def createFile (s : Store) (path : String) : Except StoreError EntryId × Store :=
  s.create .file path

/-- Makes a directory in the current directory. -/
def createDirectory (s : Store) (path : String) : Except StoreError EntryId × Store :=
  s.create .directory path

/-- Gives a buffer back to the heap.  If the heap refuses, the log says so. -/
def giveBack (s : Store) (id : EntryId) (buffer : Buffer) : Store :=
  match s.heap.release buffer with
  | .ok heap => { s with heap := heap }
  | .error e => s.note .error ("release failed: " ++ e.message) (some id)

/-- Deals with the buffer that an entry held before it was written. -/
def retire (s : Store) (id : EntryId) (buffer : Buffer) : Store :=
  match s.config.writePolicy with
  | .releaseOnReplace => s.giveBack id buffer
  | .leakOnReplace => s.note .warn "previous buffer leaked" (some id)

/-- Replaces the content of a file.  Every write asks for a buffer of its own, with room beyond
the data; if the heap refuses, the old content stays. -/
def write (s : Store) (id : EntryId) (data : List UInt8) : Except StoreError Unit × Store :=
  match s.table.get id with
  | .error e => (.error e, s)
  | .ok entry =>
    if entry.isDirectory then (.error (.notAFile id), s)
    else
      match s.heap.allocate (data.length + s.config.writeSlack.toNat) with
      | .error e =>
        (.error (.allocation e), s.note .warn "content allocation failed" (some id))
      | .ok (buffer, heap) =>
        let s := { s with
          heap := heap
          table := s.table.modify id (·.withContent (buffer.fill data) data.length) }
        let s := match entry.content with
          | some old => s.retire id old
          | none => s
        (.ok (), s.record {
          level := .debug, component
          message := "content written"
          source := some s.id
          fields := [("id", toString id.index), ("size", toString data.length)] })

/-- The whole content of a file. -/
def readAll (s : Store) (id : EntryId) : Except StoreError (List UInt8) :=
  match s.table.get id with
  | .error e => .error e
  | .ok entry => if entry.isDirectory then .error (.notAFile id) else .ok entry.data

/-- Copies the content of a file over the start of `target`, as far as it fits.  The answer is
the number of bytes copied and the target after. -/
def read (s : Store) (id : EntryId) (target : List UInt8) :
    Except StoreError (Nat × List UInt8) :=
  match s.readAll id with
  | .error e => .error e
  | .ok data =>
    let count := min target.length data.length
    .ok (count, data.take count ++ target.drop count)

/-- Gives an entry another name, cut to the longest length.  The root keeps its name, and no
entry takes a sibling's. -/
def rename (s : Store) (id : EntryId) (newName : String) : Except StoreError Unit × Store :=
  match s.table.get id with
  | .error e => (.error e, s)
  | .ok entry =>
    if id.isRoot then (.error .cannotRenameRoot, s)
    else
      match s.normalizeName newName newName with
      | .error e => (.error e, s)
      | .ok name =>
        if name = entry.name then (.ok (), s)
        else if (s.table.findChild? entry.parent name).isSome then
          (.error (.alreadyExists name), s)
        else
          (.ok (), { s with table := s.table.modify id (·.renamed name) }.note .debug "renamed"
            (some id))

/-- The first `max` children of a directory. -/
def listChildren (s : Store) (dir : EntryId) (max : Nat) : Except StoreError (List EntryId) :=
  match s.table.get dir with
  | .error e => .error e
  | .ok entry =>
    if entry.isDirectory then .ok (entry.children.take max) else .error (.notADirectory dir)

/-- The path of an entry from the root, within the store's limits on depth and length. -/
def fullPath (s : Store) (id : EntryId) : Except StoreError String :=
  match s.table.get id with
  | .error e => .error e
  | .ok _ =>
    match s.table.namesUp s.config.maxPathDepth.toNat id with
    | .error e => .error e
    | .ok names => .ok (Path.render s.config.maxPathLength.toNat names.reverse)

/-- An entry and everything below it, parents before children. -/
def walk (s : Store) (id : EntryId) : Except StoreError (List EntryId) :=
  s.table.walk id

@[simp] theorem table_record (s : Store) (r : Record) : (s.record r).table = s.table := rfl

@[simp] theorem cursor_record (s : Store) (r : Record) : (s.record r).cursor = s.cursor := rfl

@[simp] theorem heap_record (s : Store) (r : Record) : (s.record r).heap = s.heap := rfl

@[simp] theorem config_record (s : Store) (r : Record) : (s.record r).config = s.config := rfl

@[simp] theorem table_note (s : Store) (level : Level) (message : String)
    (about : Option EntryId) : (s.note level message about).table = s.table := rfl

@[simp] theorem cursor_note (s : Store) (level : Level) (message : String)
    (about : Option EntryId) : (s.note level message about).cursor = s.cursor := rfl

@[simp] theorem heap_note (s : Store) (level : Level) (message : String)
    (about : Option EntryId) : (s.note level message about).heap = s.heap := rfl

@[simp] theorem config_note (s : Store) (level : Level) (message : String)
    (about : Option EntryId) : (s.note level message about).config = s.config := rfl

end Store

end FileTree
