import FileTree.Proofs.ByPath.Blame
import FileTree.Proofs.ByPath.CurrentDirectory
import FileTree.Proofs.Store.Checked

/-!
# Operations by path with checked accesses

The operations and questions by path once more, on a store whose accesses are checked. On an orderly
store no access is out of range.

## Main definitions

* `ByPath.checkedPerform`, `ByPath.checkedAsk`: operations and questions with checked accesses

## Main results

* `ByPath.checkedPerform_eq`, `ByPath.checkedAsk_eq`: no access is out of range
-/

namespace FileTree.ByPath

variable {s : Store}

/-- The content of a file. -/
def checkedRead (s : Store) (path : String) : Option (Except OperationError (List UInt8)) :=
  match s.resolve path with
  | .error e => some (.error (.store e))
  | .ok id => (s.checkedReadAll id).map lift

theorem checkedRead_eq (hs : s.Orderly) (path : String) :
    checkedRead s path = some (read s path) := by
  unfold checkedRead read
  cases s.resolve path with
  | error c => rfl
  | ok id =>
    dsimp only
    rw [hs.checkedReadAll_eq, Option.map_some]

/-- The entry that a path names, or a new file in the current directory if it names none. -/
def checkedResolveOrCreate (s : Store) (path : String) :
    Option (Except StoreError EntryId × Store) :=
  match s.resolve path with
  | .ok id => some (.ok id, s)
  | .error (.notFound _) => s.checkedCreate .file path
  | .error e => some (.error e, s)

theorem checkedResolveOrCreate_eq (hs : s.Orderly) (path : String) :
    checkedResolveOrCreate s path = some (resolveOrCreate s path) := by
  unfold checkedResolveOrCreate resolveOrCreate
  cases hp : s.resolve path with
  | ok id => rfl
  | error c =>
    obtain rfl := hs.sound.eq_notFound_of_resolve hp
    exact hs.checkedCreate_eq .file path

/-- Replaces the content of a file, which is made if there is none. -/
def checkedWrite (s : Store) (path : String) (data : List UInt8) :
    Option (Except OperationError EntryId × Store) :=
  (checkedResolveOrCreate s path).bind fun
    | (.error e, s) => some (.error (.store e), s)
    | (.ok id, s) =>
      (s.checkedWrite id data).map fun
        | (.error e, s) => (.error (.store e), s)
        | (.ok (), s) => (.ok id, s)

theorem checkedWrite_eq (hs : s.Orderly) (path : String) (data : List UInt8) :
    checkedWrite s path data = some (write s path data) := by
  have hafter := (works_resolveOrCreate s path).reaches.orderly hs
  rw [checkedWrite, checkedResolveOrCreate_eq hs, Option.bind_some, write]
  generalize resolveOrCreate s path = located at hafter ⊢
  obtain ⟨_ | id, after⟩ := located
  · rfl
  · dsimp only
    rw [Store.checkedWrite_eq hafter.books]
    rfl

/-- Makes a directory in the current directory. -/
def checkedMakeDirectory (s : Store) (path : String) :
    Option (Except OperationError EntryId × Store) :=
  (s.checkedCreate .directory path).map fun o => (lift o.1, o.2)

theorem checkedMakeDirectory_eq (hs : s.Orderly) (path : String) :
    checkedMakeDirectory s path = some (makeDirectory s path) := by
  rw [checkedMakeDirectory, hs.checkedCreate_eq]
  rfl

/-- Makes a file in the current directory. -/
def checkedMakeFile (s : Store) (path : String) : Option (Except OperationError EntryId × Store) :=
  (s.checkedCreate .file path).map fun o => (lift o.1, o.2)

theorem checkedMakeFile_eq (hs : s.Orderly) (path : String) :
    checkedMakeFile s path = some (makeFile s path) := by
  rw [checkedMakeFile, hs.checkedCreate_eq]
  rfl

/-- Takes out an entry and everything below it. -/
def checkedRemove (s : Store) (path : String) : Option (Except OperationError Nat × Store) :=
  match s.resolve path with
  | .error e => some (.error (.store e), s)
  | .ok id => (s.checkedDelete id).map fun o => (lift o.1, o.2)

theorem checkedRemove_eq (hs : s.Orderly) (path : String) :
    checkedRemove s path = some (remove s path) := by
  unfold checkedRemove remove
  cases s.resolve path with
  | error c => rfl
  | ok id =>
    dsimp only
    rw [Store.checkedDelete_eq hs.books, Option.map_some]

/-- Gives an entry another name, in the place where it is. -/
def checkedRename (s : Store) (path newName : String) :
    Option (Except OperationError Unit × Store) :=
  match s.resolve path with
  | .error e => some (.error (.store e), s)
  | .ok id => (s.checkedRename id (Path.creationName newName)).map fun o => (lift o.1, o.2)

theorem checkedRename_eq (s : Store) (path newName : String) :
    checkedRename s path newName = some (rename s path newName) := by
  unfold checkedRename rename
  cases s.resolve path with
  | error c => rfl
  | ok id =>
    dsimp only
    rw [Store.checkedRename_eq, Option.map_some]

/-- Copies the content of a file into a file of the current directory, which is made if there is
none. -/
def checkedCopy (s : Store) (source destination : String) :
    Option (Except OperationError EntryId × Store) :=
  match s.resolve source with
  | .error e => some (.error (.store e), s)
  | .ok id =>
    (s.checkedReadAll id).bind fun
      | .error e => some (.error (.store e), s)
      | .ok data =>
        (s.checkedCreate .file destination).bind fun
          | (.error e, s) => some (.error (.store e), s)
          | (.ok copyId, s) =>
            match s.entry copyId with
            | .error e => some (.error (.store e), s)
            | .ok entry =>
              if entry.isDirectory then some (.error (.copyOntoDirectory destination), s)
              else
                (s.checkedWrite copyId data).map fun
                  | (.error e, s) => (.error (.store e), s)
                  | (.ok (), s) => (.ok copyId, s)

theorem checkedCopy_eq (hs : s.Orderly) (source destination : String) :
    checkedCopy s source destination = some (copy s source destination) := by
  unfold checkedCopy copy
  cases s.resolve source with
  | error c => rfl
  | ok id =>
    dsimp only
    rw [hs.checkedReadAll_eq, Option.bind_some]
    cases s.readAll id with
    | error c => rfl
    | ok data =>
      have hafter := (works_createFile s destination).reaches.orderly hs
      dsimp only
      rw [hs.checkedCreate_eq, Option.bind_some, show s.create .file destination =
        s.createFile destination from rfl]
      generalize s.createFile destination = created at hafter ⊢
      obtain ⟨_ | copyId, after⟩ := created
      · rfl
      dsimp only
      cases after.entry copyId with
      | error c => rfl
      | ok e =>
        dsimp only
        split_ifs
        · rfl
        · rw [Store.checkedWrite_eq hafter.books]
          rfl

/-- The answer to an operation by path, and the store after it. Entering a directory follows links,
which are looked up and never taken to be there. -/
def checkedPerform (s : Store) : Operation → Option (Except OperationError Answer × Store)
  | .makeDirectory path => (checkedMakeDirectory s path).map fun o => (o.1.map .entry, o.2)
  | .makeFile path => (checkedMakeFile s path).map fun o => (o.1.map .entry, o.2)
  | .write path data => (checkedWrite s path data).map fun o => (o.1.map .entry, o.2)
  | .remove path => (checkedRemove s path).map fun o => (o.1.map .removed, o.2)
  | .copy source destination =>
    (checkedCopy s source destination).map fun o => (o.1.map .entry, o.2)
  | .rename path newName =>
    (checkedRename s path newName).map fun o => (o.1.map fun _ => .done, o.2)
  | .enter path => some (perform s (.enter path))

/-- **No operation by path on an orderly store makes an access that is out of range.** -/
theorem checkedPerform_eq (hs : s.Orderly) (op : Operation) :
    checkedPerform s op = some (perform s op) := by
  cases op with
  | makeDirectory path =>
    rw [checkedPerform, checkedMakeDirectory_eq hs]
    rfl
  | makeFile path =>
    rw [checkedPerform, checkedMakeFile_eq hs]
    rfl
  | write path data =>
    rw [checkedPerform, checkedWrite_eq hs]
    rfl
  | remove path =>
    rw [checkedPerform, checkedRemove_eq hs]
    rfl
  | copy source destination =>
    rw [checkedPerform, checkedCopy_eq hs]
    rfl
  | rename path newName =>
    rw [checkedPerform, checkedRename_eq]
    rfl
  | enter path => rfl

/-- The reply to a question by path. Only the content of a file is looked into. -/
def checkedAsk (s : Store) : Query → Option (Except OperationError Reply)
  | .read path => (checkedRead s path).map (·.map .bytes)
  | .list path => some (ask s (.list path))
  | .stat path => some (ask s (.stat path))
  | .find pattern => some (ask s (.find pattern))
  | .usage path => some (ask s (.usage path))
  | .current => some (ask s .current)

/-- **No question by path about an orderly store makes an access that is out of range.** -/
theorem checkedAsk_eq (hs : s.Orderly) (q : Query) : checkedAsk s q = some (ask s q) := by
  cases q with
  | read path =>
    rw [checkedAsk, checkedRead_eq hs]
    rfl
  | list path => rfl
  | stat path => rfl
  | find pattern => rfl
  | usage path => rfl
  | current => rfl

end FileTree.ByPath
