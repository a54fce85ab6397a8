import FileTree.Proofs.ByPath.Refusal
import FileTree.Proofs.Store.Place
import FileTree.Proofs.Store.Work

/-!
# The current directory under operations by path

Entering a directory moves the cursor, and so may removing one. No other operation by path does,
and the full path of the current directory stays what it is, unless the operation renames that
directory or one above it.

## Main definitions

* `ByPath.Operation.mayMove`: the operation may move the cursor

## Main results

* `ByPath.works_perform`, `ByPath.reaches_perform`: operations by path are made of operations of the
  store
* `ByPath.fullPath_cursor_perform`: the full path of the current directory stays what it is
-/

namespace FileTree.ByPath

/-- The operation may move the cursor. -/
def Operation.mayMove : Operation → Bool
  | .remove _ | .enter _ => true
  | _ => false

variable {s : Store}

/-! ## What operations by path are made of -/

/-- A write looks for the file, for which it may make one, and may go on to fill it. -/
theorem store_write_cases (s : Store) (path : String) (data : List UInt8) :
    (write s path data).2 = (resolveOrCreate s path).2 ∨
      ∃ id, (write s path data).2 = ((resolveOrCreate s path).2.write id data).2 := by
  unfold write
  generalize resolveOrCreate s path = located
  obtain ⟨c | id, s₁⟩ := located
  · exact .inl rfl
  refine .inr ⟨id, ?_⟩
  dsimp only
  generalize s₁.write id data = outcome
  obtain ⟨_ | _, s₂⟩ := outcome
  · rfl
  · rfl

/-- A copy may make the file, and may go on to fill it. -/
theorem store_copy_cases (s : Store) (source destination : String) :
    (copy s source destination).2 = s ∨
      (copy s source destination).2 = (s.createFile destination).2 ∨
      ∃ id data, (copy s source destination).2 =
        ((s.createFile destination).2.write id data).2 := by
  unfold copy
  split
  · exact .inl rfl
  split
  · exact .inl rfl
  rename_i data _
  refine .inr ?_
  generalize s.createFile destination = created
  obtain ⟨c | id, s₁⟩ := created
  · exact .inl rfl
  dsimp only
  split
  · exact .inl rfl
  split_ifs
  · exact .inl rfl
  refine .inr ⟨id, data, ?_⟩
  generalize s₁.write id data = outcome
  obtain ⟨_ | _, s₂⟩ := outcome
  · rfl
  · rfl

theorem store_enter_cases (s : Store) (path : String) :
    (enter s path).2 = s ∨ ∃ id, (enter s path).2 = (s.changeDirectory id).2 := by
  unfold enter
  split
  · exact .inl rfl
  rename_i id _
  refine .inr ⟨id, ?_⟩
  generalize s.changeDirectory id = outcome
  obtain ⟨_ | _, s₁⟩ := outcome
  · rfl
  · rfl

theorem works_createFile (s : Store) (path : String) : s.Works (s.createFile path).2 :=
  .perform (.createFile path) .refl

theorem works_write_of_works {s₁ : Store} (h : s.Works s₁) (id : EntryId)
    (data : List UInt8) : s.Works (s₁.write id data).2 :=
  .perform (.write id data) h

theorem works_resolveOrCreate (s : Store) (path : String) :
    s.Works (resolveOrCreate s path).2 := by
  unfold resolveOrCreate
  split
  · exact .refl
  · exact works_createFile s path
  · exact .refl

/-- Operations by path are made of operations of the store. -/
theorem works_perform (s : Store) (op : Operation) : s.Works (perform s op).2 := by
  cases op with
  | makeDirectory path => exact .perform (.createDirectory path) .refl
  | makeFile path => exact works_createFile s path
  | write path data =>
    have hr := works_resolveOrCreate s path
    dsimp only [perform]
    rcases store_write_cases s path data with heq | ⟨id, heq⟩
    · rw [heq]
      exact hr
    · rw [heq]
      exact works_write_of_works hr id data
  | remove path =>
    simp only [perform, remove]
    split
    · exact .refl
    · rename_i id _
      exact .perform (.delete id) .refl
  | rename path newName =>
    simp only [perform, rename]
    split
    · exact .refl
    · rename_i id _
      exact .perform (.rename id (Path.creationName newName)) .refl
  | copy source destination =>
    have hr := works_createFile s destination
    dsimp only [perform]
    rcases store_copy_cases s source destination with heq | heq | ⟨id, data, heq⟩
    · rw [heq]
      exact .refl
    · rw [heq]
      exact hr
    · rw [heq]
      exact works_write_of_works hr id data
  | enter path =>
    dsimp only [perform]
    rcases store_enter_cases s path with heq | ⟨id, heq⟩
    · rw [heq]
      exact .refl
    · rw [heq]
      exact .perform (.changeDirectory id) .refl

theorem reaches_perform (s : Store) (op : Operation) : s.Reaches (perform s op).2 :=
  (works_perform s op).reaches

/-! ## The full path of the current directory -/

theorem keepsPlace_createFile (hs : s.Sound) (path : String) :
    s.KeepsPlace (s.createFile path).2 :=
  (s.created_create .file path).keepsPlace hs

theorem keepsPlace_resolveOrCreate (hs : s.Sound) (path : String) :
    s.KeepsPlace (resolveOrCreate s path).2 := by
  unfold resolveOrCreate
  split
  · exact .refl s
  · exact keepsPlace_createFile hs path
  · exact .refl s

theorem keepsPlace_rename {path newName : String}
    (hr : ¬ s.RenamesPlace (rename s path newName).2) :
    s.KeepsPlace (rename s path newName).2 := by
  unfold rename at hr ⊢
  split at hr
  · exact .refl s
  · exact (s.renamed_rename _ _).keepsPlace hr

/-- Filling a file after a step that keeps the place does not show in the path either. -/
theorem fullPath_cursor_of_keepsPlace_of_write {s₁ : Store} (hs : s.Sound) (hr : s.Reaches s₁)
    (hk : s.KeepsPlace s₁) (id : EntryId) (data : List UInt8) :
    (s₁.write id data).2.fullPath (s₁.write id data).2.cursor = s.fullPath s.cursor := by
  have hw := (s₁.written_write id data).keepsPlace
  calc (s₁.write id data).2.fullPath (s₁.write id data).2.cursor
      = s₁.fullPath s₁.cursor := hw.fullPath_cursor (hr.sound hs)
    _ = s.fullPath s.cursor := hk.fullPath_cursor hs

/-- **The full path of the current directory stays what it is** under an operation that does not
move the cursor, unless it renames that directory or one above it. -/
theorem fullPath_cursor_perform (hs : s.Sound) {op : Operation} (hm : op.mayMove = false)
    (hr : ∀ ⦃path newName⦄, op = .rename path newName → ¬ s.RenamesPlace (perform s op).2) :
    (perform s op).2.fullPath (perform s op).2.cursor = s.fullPath s.cursor := by
  cases op with
  | makeDirectory path =>
    exact ((s.created_create .directory path).keepsPlace hs).fullPath_cursor hs
  | makeFile path => exact (keepsPlace_createFile hs path).fullPath_cursor hs
  | write path data =>
    have hk := keepsPlace_resolveOrCreate hs path
    have hr := (works_resolveOrCreate s path).reaches
    dsimp only [perform]
    rcases store_write_cases s path data with heq | ⟨id, heq⟩
    · rw [heq]
      exact hk.fullPath_cursor hs
    · rw [heq]
      exact fullPath_cursor_of_keepsPlace_of_write hs hr hk id data
  | remove path => cases hm
  | rename path newName => exact (keepsPlace_rename (hr rfl)).fullPath_cursor hs
  | copy source destination =>
    have hk := keepsPlace_createFile hs destination
    have hr := (works_createFile s destination).reaches
    dsimp only [perform]
    rcases store_copy_cases s source destination with heq | heq | ⟨id, data, heq⟩
    · rw [heq]
    · rw [heq]
      exact hk.fullPath_cursor hs
    · rw [heq]
      exact fullPath_cursor_of_keepsPlace_of_write hs hr hk id data
  | enter path => cases hm

end FileTree.ByPath
