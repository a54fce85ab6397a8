import FileTree.Store.Delete
import FileTree.Text.Blank
import FileTree.Text.Search

/-!
# Operations by path

The operations of a store as its users know them: entries are named by paths, and files are
made when they are written for the first time.

## Main definitions

* `ByPath.list`, `ByPath.stat`, `ByPath.read`, `ByPath.find`, `ByPath.usage`, `ByPath.current`:
  looking around
* `ByPath.makeDirectory`, `ByPath.makeFile`, `ByPath.write`, `ByPath.remove`, `ByPath.rename`,
  `ByPath.copy`, `ByPath.enter`: changing the tree, and moving the cursor
-/

namespace FileTree

/-- Why an operation by path is refused. -/
inductive OperationError where
  /-- The store refuses. -/
  | store (cause : StoreError)
  /-- A copy would replace a directory. -/
  | copyOntoDirectory (target : String)
  deriving DecidableEq

/-- The text of a refusal. -/
def OperationError.message : OperationError → String
  | .store cause => cause.message
  | .copyOntoDirectory target => s!"Invalid operation: cannot copy onto directory {target}"

/-- One line of a directory listing. -/
structure Listing where
  id : EntryId
  name : String
  kind : EntryKind
  size : Nat
  deriving DecidableEq

/-- What is known of an entry. -/
structure Stat where
  id : EntryId
  name : String
  kind : EntryKind
  size : Nat
  capacity : Nat
  /-- The number of children of a directory. -/
  entryCount : Option Nat
  parent : EntryId
  path : String
  deriving DecidableEq

/-- The space that a subtree takes. -/
structure Usage where
  bytes : Nat := 0
  files : Nat := 0
  directories : Nat := 0
  deriving DecidableEq

/-- The space with one more entry. -/
def Usage.add (u : Usage) (e : Entry) : Usage :=
  match e.kind with
  | .file => { u with files := u.files + 1, bytes := u.bytes + e.size }
  | .directory => { u with directories := u.directories + 1 }

namespace ByPath

/-- An answer of the store as an answer by path. -/
def lift {α : Type} : Except StoreError α → Except OperationError α
  | .ok a => .ok a
  | .error e => .error (.store e)

/-- The entry that a path names, where the empty path is the current directory. -/
def target (s : Store) (path : String) : Except StoreError EntryId :=
  if path.isEmpty then .ok s.cursor else s.resolve path

/-- The entries with the given identifiers. -/
def entries (s : Store) : List EntryId → Except StoreError (List (EntryId × Entry))
  | [] => .ok []
  | id :: rest =>
    match s.entry id with
    | .error e => .error e
    | .ok entry =>
      match entries s rest with
      | .error e => .error e
      | .ok more => .ok ((id, entry) :: more)

/-- The children of a directory. -/
def list (s : Store) (path : String) : Except OperationError (List Listing) :=
  match target s path with
  | .error e => .error (.store e)
  | .ok dir =>
    match s.listChildren dir s.config.maxChildren.toNat with
    | .error e => .error (.store e)
    | .ok children =>
      match entries s children with
      | .error e => .error (.store e)
      | .ok found => .ok (found.map fun p => ⟨p.1, p.2.name, p.2.kind, p.2.size⟩)

/-- What is known of an entry. -/
def stat (s : Store) (path : String) : Except OperationError Stat :=
  match target s path with
  | .error e => .error (.store e)
  | .ok id =>
    match s.entry id with
    | .error e => .error (.store e)
    | .ok entry =>
      match s.fullPath id with
      | .error e => .error (.store e)
      | .ok fullPath => .ok {
          id
          name := entry.name
          kind := entry.kind
          size := entry.size
          capacity := entry.capacity
          entryCount := if entry.isDirectory then some entry.children.length else none
          parent := entry.parent
          path := fullPath }

/-- Makes a directory in the current directory. -/
def makeDirectory (s : Store) (path : String) : Except OperationError EntryId × Store :=
  let (answer, s) := s.createDirectory path
  (lift answer, s)

/-- Makes a file in the current directory. -/
def makeFile (s : Store) (path : String) : Except OperationError EntryId × Store :=
  let (answer, s) := s.createFile path
  (lift answer, s)

/-- The content of a file. -/
def read (s : Store) (path : String) : Except OperationError (List UInt8) :=
  match s.resolve path with
  | .error e => .error (.store e)
  | .ok id => lift (s.readAll id)

/-- The entry that a path names, or a new file in the current directory if it names none. -/
def resolveOrCreate (s : Store) (path : String) : Except StoreError EntryId × Store :=
  match s.resolve path with
  | .ok id => (.ok id, s)
  | .error (.notFound _) => s.createFile path
  | .error e => (.error e, s)

/-- Replaces the content of a file, which is made if there is none. -/
def write (s : Store) (path : String) (data : List UInt8) :
    Except OperationError EntryId × Store :=
  match resolveOrCreate s path with
  | (.error e, s) => (.error (.store e), s)
  | (.ok id, s) =>
    match s.write id data with
    | (.error e, s) => (.error (.store e), s)
    | (.ok (), s) => (.ok id, s)

/-- Takes out an entry and everything below it.  The answer is the number of entries taken
out. -/
def remove (s : Store) (path : String) : Except OperationError Nat × Store :=
  match s.resolve path with
  | .error e => (.error (.store e), s)
  | .ok id =>
    let (answer, s) := s.delete id
    (lift answer, s)

/-- Gives an entry another name, in the place where it is. -/
def rename (s : Store) (path newName : String) : Except OperationError Unit × Store :=
  match s.resolve path with
  | .error e => (.error (.store e), s)
  | .ok id =>
    let (answer, s) := s.rename id (Path.creationName newName)
    (lift answer, s)

/-- Copies the content of a file into a file of the current directory, which is made if there is
none. -/
def copy (s : Store) (source destination : String) : Except OperationError EntryId × Store :=
  match s.resolve source with
  | .error e => (.error (.store e), s)
  | .ok id =>
    match s.readAll id with
    | .error e => (.error (.store e), s)
    | .ok data =>
      match s.createFile destination with
      | (.error e, s) => (.error (.store e), s)
      | (.ok copyId, s) =>
        match s.entry copyId with
        | .error e => (.error (.store e), s)
        | .ok entry =>
          if entry.isDirectory then (.error (.copyOntoDirectory destination), s)
          else
            match s.write copyId data with
            | (.error e, s) => (.error (.store e), s)
            | (.ok (), s) => (.ok copyId, s)

/-- The full paths of the entries. -/
def fullPaths (s : Store) : List EntryId → Except StoreError (List String)
  | [] => .ok []
  | id :: rest =>
    match s.fullPath id with
    | .error e => .error e
    | .ok path =>
      match fullPaths s rest with
      | .error e => .error e
      | .ok more => .ok (path :: more)

/-- The full paths of all entries but the root whose name contains the pattern. -/
def find (s : Store) (pattern : String) : Except OperationError (List String) :=
  match s.walk .root with
  | .error e => .error (.store e)
  | .ok order =>
    match entries s (order.filter (!·.isRoot)) with
    | .error e => .error (.store e)
    | .ok found =>
      lift (fullPaths s ((found.filter fun p => Text.contains p.2.name pattern).map (·.1)))

/-- The space that an entry and everything below it take. -/
def usageOf (s : Store) (id : EntryId) : Except StoreError Usage :=
  match s.walk id with
  | .error e => .error e
  | .ok order =>
    match entries s order with
    | .error e => .error e
    | .ok found => .ok (found.foldl (fun u p => u.add p.2) {})

/-- The space below the entry that a path names. -/
def usage (s : Store) (path : String) : Except OperationError Usage :=
  match target s path with
  | .error e => .error (.store e)
  | .ok id => lift (usageOf s id)

/-- The directory that `cd` goes to: the root for no path, the cursor for one dot, its parent for
two dots, and otherwise the entry that the path names.  Blanks around the path do not count. -/
def destination (s : Store) (path : String) : Except StoreError EntryId :=
  let path := Text.trim path
  if path = "" then .ok .root
  else if path = "." then .ok s.cursor
  else if path = ".." then
    match s.entry s.cursor with
    | .error e => .error e
    | .ok dir => .ok dir.parent
  else s.resolve path

/-- Moves the cursor. -/
def enter (s : Store) (path : String) : Except OperationError EntryId × Store :=
  match destination s path with
  | .error e => (.error (.store e), s)
  | .ok id =>
    match s.changeDirectory id with
    | (.error e, s) => (.error (.store e), s)
    | (.ok (), s) => (.ok id, s)

/-- The full path of the current directory. -/
def current (s : Store) : Except OperationError String :=
  lift (s.fullPath s.cursor)

end ByPath

end FileTree
