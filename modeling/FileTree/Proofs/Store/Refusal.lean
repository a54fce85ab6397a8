import FileTree.Proofs.Store.Removal

/-!
# A refused operation changes nothing

An operation looks before it touches anything: what it refuses, it refuses on the store that it
was given. A deletion has the longest way to go, since it takes out many entries, but on a sound
store none of them is refused once the first is out.

## Main results

* `Store.Sound.noted_of_refused`: an operation that a sound store refuses leaves it as it was,
  but for at most one more record in the log
* `Store.perform_eq_of_refused`: so does every reachable store
-/

namespace FileTree.Store

variable {s s' : Store} {cause : StoreError}

theorem Created.noted {kind : EntryKind} {path : String}
    (h : s.Created kind path (.error cause, s')) : s.Noted s' := by
  cases h with
  | refused h => exact h

theorem Written.noted {id : EntryId} {data : List UInt8}
    (h : s.Written id data (.error cause, s')) : s.Noted s' := by
  cases h with
  | refused _ => exact .refl s
  | exhausted _ h => exact h

theorem Renamed.eq_of_refused {id : EntryId} {given : String}
    (h : s.Renamed id given (.error cause, s')) : s' = s := by
  cases h with
  | refused => rfl

theorem Moved.eq_of_refused {id : EntryId} (h : s.Moved id (.error cause, s')) : s' = s := by
  cases h with
  | refused => rfl

theorem Deleted.eq_of_refused {id : EntryId} (h : s.Deleted id (.error cause, s')) : s' = s := by
  cases h with
  | refused _ => rfl

/-- Translating an answer does not hide that it is a refusal. -/
theorem eq_error_of_map {ε α β : Type} {cause : ε} {f : α → β} {answer : Except ε α}
    (h : answer.map f = .error cause) : answer = .error cause := by
  cases answer with
  | error c => exact congrArg Except.error (Except.error.inj h)
  | ok a => cases h

theorem fst_eq_error_of_map {α β : Type} {f : α → β} {outcome : Except StoreError α × Store}
    (h : outcome.1.map f = .error cause) : outcome = (.error cause, outcome.2) :=
  Prod.ext (eq_error_of_map h) rfl

/-- An operation that a sound store refuses leaves it as it was, but for at most one more record
in the log. -/
theorem Sound.noted_of_refused (hs : s.Sound) {op : Operation}
    (h : (s.perform op).1 = .error cause) : s.Noted (s.perform op).2 := by
  cases op with
  | createFile path =>
    have hc := s.created_create .file path
    rw [show s.create .file path = _ from fst_eq_error_of_map h] at hc
    exact hc.noted
  | createDirectory path =>
    have hc := s.created_create .directory path
    rw [show s.create .directory path = _ from fst_eq_error_of_map h] at hc
    exact hc.noted
  | write id data =>
    have hw := s.written_write id data
    rw [fst_eq_error_of_map h] at hw
    exact hw.noted
  | delete id =>
    have hd := hs.deleted_delete id
    rw [fst_eq_error_of_map h] at hd
    exact .inl hd.eq_of_refused
  | rename id name =>
    have hr := s.renamed_rename id name
    rw [fst_eq_error_of_map h] at hr
    exact .inl hr.eq_of_refused
  | changeDirectory id =>
    have hm := s.moved_changeDirectory id
    rw [fst_eq_error_of_map h] at hm
    exact .inl hm.eq_of_refused

/-- **A refused operation changes nothing**: of a reachable store, the entries with their slots
and generations, the cursor and the books of the heap are as before, and the log has gained at
most one record. -/
theorem perform_eq_of_refused {config : Config} {heap : Heap} (hs : Reachable config heap s)
    {op : Operation} (h : (s.perform op).1 = .error cause) :
    (s.perform op).2 = s ∨ ∃ r, (s.perform op).2 = { s with log := s.log.record r } := by
  rcases hs.sound.noted_of_refused h with heq | ⟨r, -, heq⟩
  · exact .inl heq
  · exact .inr ⟨r, heq⟩

/-- A write that the heap refuses, after a write that it granted. -/
theorem perform_eq_of_refused_write :
    let config : Config := { maxEntries := 4, writeSlack := 4 }
    let s := (init ⟨0⟩ config { limit := some 16 }).run [.createFile "a", .write ⟨1⟩ [1, 2, 3]]
    let op : Operation := .write ⟨1⟩ [4, 5, 6, 7, 8, 9]
    (Reachable config { limit := some 16 } s ∧
      (s.perform op).1 = .error (.allocation (.outOfMemory 10 9))) ∧
      ((s.perform op).2 = s ∨ ∃ r, (s.perform op).2 = { s with log := s.log.record r }) := by
  dsimp only
  refine ⟨⟨⟨⟨0⟩, _, fresh_eq_ok_iff.mpr ⟨rfl, rfl⟩, reaches_run _ _⟩, rfl⟩, ?_⟩
  exact perform_eq_of_refused ⟨⟨0⟩, _, fresh_eq_ok_iff.mpr ⟨rfl, rfl⟩, reaches_run _ _⟩ rfl

end FileTree.Store
