import FileTree.ByPath
import FileTree.Proofs.Store.NewFile

/-!
# Refused operations by path

An operation by path that is refused leaves the store as it was, but for the log, unless it is one
that makes a file and then fills it. That is done in two steps, and the heap may refuse the second
when the first is done: then the new file stays, and is empty.

## Main definitions

* `ByPath.Operation`, `ByPath.perform`: a change asked for by path, and what comes of it
* `ByPath.Operation.fills?`: the file that an operation makes if there is none, and fills

## Main results

* `ByPath.located_resolveOrCreate`: the file to be written is there, or is made
* `ByPath.noted_or_gainsFile_of_refused`: what a refused operation leaves
* `ByPath.isUsed_of_refused_write`: a refused operation may change the tree
-/

namespace FileTree.ByPath

/-- A change asked for by path. -/
inductive Operation where
  | makeDirectory (path : String)
  | makeFile (path : String)
  | write (path : String) (data : List UInt8)
  | remove (path : String)
  | rename (path newName : String)
  | copy (source destination : String)
  | enter (path : String)
  deriving DecidableEq

/-- The answer to an operation, and the store after it. -/
def perform (s : Store) : Operation → Except OperationError Answer × Store
  | .makeDirectory path => ((makeDirectory s path).1.map .entry, (makeDirectory s path).2)
  | .makeFile path => ((makeFile s path).1.map .entry, (makeFile s path).2)
  | .write path data => ((write s path data).1.map .entry, (write s path data).2)
  | .remove path => ((remove s path).1.map .removed, (remove s path).2)
  | .rename path newName =>
    ((rename s path newName).1.map fun _ => .done, (rename s path newName).2)
  | .copy source destination =>
    ((copy s source destination).1.map .entry, (copy s source destination).2)
  | .enter path => ((enter s path).1.map .entry, (enter s path).2)

/-- The path of the file that an operation makes if there is none, and then fills. -/
def Operation.fills? : Operation → Option String
  | .write path _ => some path
  | .copy _ destination => some destination
  | _ => none

variable {s s' : Store} {path : String} {cause : OperationError} {config : Config} {heap : Heap}

/-- An operation by path that does one on the store, and is refused, leaves what that one leaves. -/
theorem noted_of_lift {α : Type} {op : FileTree.Operation} {answer : Except StoreError α}
    {f : α → Answer} (hs : s.Sound) (hp : s.perform op = (answer.map f, s'))
    (h : lift answer = .error cause) : s.Noted s' := by
  cases answer with
  | error c =>
    have hn := hs.noted_of_refused (congrArg Prod.fst hp)
    rwa [hp] at hn
  | ok a => cases h

theorem noted_makeDirectory (hs : s.Sound) (h : (makeDirectory s path).1 = .error cause) :
    s.Noted (makeDirectory s path).2 :=
  noted_of_lift hs (show s.perform (.createDirectory path) = _ from rfl) h

theorem noted_makeFile (hs : s.Sound) (h : (makeFile s path).1 = .error cause) :
    s.Noted (makeFile s path).2 :=
  noted_of_lift hs (show s.perform (.createFile path) = _ from rfl) h

theorem noted_remove (hs : s.Sound) (h : (remove s path).1 = .error cause) :
    s.Noted (remove s path).2 := by
  unfold remove at h ⊢
  split at h
  · exact .refl s
  · rename_i id _
    exact noted_of_lift hs (show s.perform (.delete id) = _ from rfl) h

theorem noted_rename (hs : s.Sound) {newName : String}
    (h : (rename s path newName).1 = .error cause) : s.Noted (rename s path newName).2 := by
  unfold rename at h ⊢
  split at h
  · exact .refl s
  · rename_i id _
    exact noted_of_lift hs (show s.perform (.rename id (Path.creationName newName)) = _ from rfl) h

theorem noted_enter (h : (enter s path).1 = .error cause) : s.Noted (enter s path).2 := by
  unfold enter at h ⊢
  split at h
  · exact .refl s
  rename_i id _
  have hm := s.moved_changeDirectory id
  generalize s.changeDirectory id = outcome at h hm ⊢
  obtain ⟨_ | _, s'⟩ := outcome
  · exact .inl hm.eq_of_refused
  · cases h

/-- The file to be written is there, or is made. -/
theorem located_resolveOrCreate (hs : s.Sound) (path : String) :
    s.Located path (resolveOrCreate s path) := by
  unfold resolveOrCreate
  split
  · exact .found _
  · rename_i hmissing
    exact hs.located_createFile hmissing
  · exact .refused (.refl s)

/-- A refused write leaves the store as it was, or the heap refused it and a new file is left. -/
theorem noted_or_gainsFile_write (hs : s.Sound) {data : List UInt8}
    (h : (write s path data).1 = .error cause) :
    s.Noted (write s path data).2 ∨
      ∃ c, cause = .store (.allocation c) ∧ s.GainsFile path (write s path data).2 := by
  have hl := located_resolveOrCreate hs path
  unfold write at h ⊢
  generalize resolveOrCreate s path = located at h hl ⊢
  obtain ⟨c | id, s₁⟩ := located
  · cases hl with
    | refused hn => exact .inl hn
  have hw := s₁.written_write id data
  dsimp only at h ⊢
  generalize s₁.write id data = outcome at h hw ⊢
  obtain ⟨c | _, s₂⟩ := outcome
  · rw [← Except.error.inj h]
    simpa using hw.noted_or_gainsFile hl.foundOrMade
  · cases h

/-- A refused copy leaves the store as it was, or the heap refused it and a new file is left. -/
theorem noted_or_gainsFile_copy (hs : s.Sound) {source destination : String}
    (h : (copy s source destination).1 = .error cause) :
    s.Noted (copy s source destination).2 ∨ ∃ c, cause = .store (.allocation c) ∧
      s.GainsFile destination (copy s source destination).2 := by
  unfold copy at h ⊢
  split at h
  · exact .inl (.refl s)
  split at h
  · exact .inl (.refl s)
  rename_i data _
  have hc : s.Created .file destination (s.createFile destination) := s.created_create .file _
  generalize s.createFile destination = created at h hc ⊢
  obtain ⟨c | id, s₁⟩ := created
  · exact .inl hc.noted
  have hg := hs.foundOrMade hc
  dsimp only at h ⊢
  cases he : s₁.entry id with
  | error c =>
    rcases hg with rfl | ⟨-, e, hf, -⟩
    · exact .inl (.refl s₁)
    · cases (Table.get_of_find? hf).symm.trans he
  | ok e =>
    simp only [he] at h ⊢
    split_ifs at h ⊢ with hdir
    · rcases hg with rfl | ⟨-, e', hf, hk⟩
      · exact .inl (.refl s₁)
      · obtain rfl := Except.ok.inj ((Table.get_of_find? hf).symm.trans he)
        cases hk.symm.trans (Entry.isDirectory_iff.mp hdir)
    have hw := s₁.written_write id data
    generalize s₁.write id data = outcome at h hw ⊢
    obtain ⟨c | _, s₂⟩ := outcome
    · rw [← Except.error.inj h]
      simpa using hw.noted_or_gainsFile hg
    · cases h

/-- **A refused operation by path leaves the store as it was, but for at most one more record in
the log**, or the operation is one that fills a file, the heap has refused to, and the file was
made for it and is left empty. -/
theorem noted_or_gainsFile_of_refused (hs : Store.Reachable config heap s) {op : Operation}
    (h : (perform s op).1 = .error cause) :
    s.Noted (perform s op).2 ∨ ∃ path c, op.fills? = some path ∧
      cause = .store (.allocation c) ∧ s.GainsFile path (perform s op).2 := by
  have hsound := hs.sound
  cases op <;> dsimp only [perform] at h ⊢
  case makeDirectory path => exact .inl (noted_makeDirectory hsound (Store.eq_error_of_map h))
  case makeFile path => exact .inl (noted_makeFile hsound (Store.eq_error_of_map h))
  case write path data =>
    rcases noted_or_gainsFile_write hsound (Store.eq_error_of_map h) with hn | ⟨c, hc, hg⟩
    · exact .inl hn
    · exact .inr ⟨path, c, rfl, hc, hg⟩
  case remove path => exact .inl (noted_remove hsound (Store.eq_error_of_map h))
  case rename path newName => exact .inl (noted_rename hsound (Store.eq_error_of_map h))
  case copy source destination =>
    rcases noted_or_gainsFile_copy hsound (Store.eq_error_of_map h) with hn | ⟨c, hc, hg⟩
    · exact .inl hn
    · exact .inr ⟨destination, c, rfl, hc, hg⟩
  case enter path => exact .inl (noted_enter (Store.eq_error_of_map h))

/-- A copy for which there is no room: the file it was to fill is there, and empty. -/
theorem noted_or_gainsFile_of_refused_copy :
    let config : Config := { maxEntries := 4, writeSlack := 4 }
    let heap : Heap := { limit := some 16 }
    let s := (Store.init ⟨0⟩ config heap).run [.createFile "a", .write ⟨1⟩ [1, 2, 3, 4, 5, 6]]
    let op : Operation := .copy "a" "b"
    (Store.Reachable config heap s ∧
      (perform s op).1 = .error (.store (.allocation (.outOfMemory 10 6)))) ∧
      (s.Noted (perform s op).2 ∨ ∃ path c, op.fills? = some path ∧
        OperationError.store (.allocation (.outOfMemory 10 6)) = .store (.allocation c) ∧
        s.GainsFile path (perform s op).2) := by
  intro config heap s op
  have hs : Store.Reachable config heap s := Store.reachable_run rfl ⟨0⟩ heap _
  have h : (perform s op).1 = .error (.store (.allocation (.outOfMemory 10 6))) := by decide
  exact ⟨⟨hs, h⟩, noted_or_gainsFile_of_refused hs h⟩

/-- A refused operation may change the tree: there is no room for what is to be written to a new
file, and one more slot is in use. -/
theorem isUsed_of_refused_write :
    let config : Config := { maxEntries := 4, logCapacity := 0 }
    let heap : Heap := { limit := some 16 }
    let s := Store.init ⟨0⟩ config heap
    let op : Operation := .write "a" [120]
    Store.Reachable config heap s ∧
      (perform s op).1 = .error (.store (.allocation (.outOfMemory 1025 16))) ∧
      s.table.isUsed ⟨1⟩ = false ∧ (perform s op).2.table.isUsed ⟨1⟩ = true := by
  refine ⟨Store.reachable_run rfl ⟨0⟩ _ [], ?_, ?_, ?_⟩ <;> decide

end FileTree.ByPath
