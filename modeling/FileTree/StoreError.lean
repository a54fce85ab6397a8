import FileTree.Config
import FileTree.Heap
import FileTree.Text.Quoted

/-!
# Why a store refuses

Each way in which an operation on the store can fail, and the text that tells it.
-/

namespace FileTree

/-- Why a store refuses an operation. -/
inductive StoreError where
  /-- The identifier is outside the table, or names a free slot. -/
  | invalidId (id : EntryId)
  /-- No slot is free. -/
  | tableFull (capacity : Nat)
  /-- The path leads nowhere. -/
  | notFound (path : String)
  /-- The operation needs a directory. -/
  | notADirectory (id : EntryId)
  /-- The operation needs a file. -/
  | notAFile (id : EntryId)
  /-- The root is permanent. -/
  | cannotDeleteRoot
  /-- The root keeps its name. -/
  | cannotRenameRoot
  /-- The directory holds as many children as it may. -/
  | directoryFull (dir : EntryId) (limit : Nat)
  /-- The name is empty. -/
  | invalidName (name : String)
  /-- A sibling has the name. -/
  | alreadyExists (name : String)
  /-- The heap refuses. -/
  | allocation (cause : HeapError)
  /-- The configuration is unusable. -/
  | config (cause : ConfigError)
  /-- The tree is damaged. -/
  | corrupted (detail : String)
  deriving DecidableEq

/-- The text of a refusal. -/
def StoreError.message : StoreError → String
  | .invalidId id => s!"Invalid entry id: {id}"
  | .tableFull capacity => s!"Entry table full ({capacity} entries)"
  | .notFound path => s!"File not found: {path}"
  | .notADirectory id => s!"Not a directory: {id}"
  | .notAFile id => s!"Not a file: {id}"
  | .cannotDeleteRoot => "Cannot delete the root directory"
  | .cannotRenameRoot => "Cannot rename the root directory"
  | .directoryFull dir limit => s!"Directory {dir} is full ({limit} children)"
  | .invalidName name => "Invalid name: " ++ Text.quote name
  | .alreadyExists name => s!"Already exists: {name}"
  | .allocation cause => "Allocation failed: " ++ cause.message
  | .config cause => "Configuration error: " ++ cause.message
  | .corrupted detail => s!"Store corrupted: {detail}"

end FileTree
