import FileTree.Proofs.Store.Alike
import FileTree.Proofs.Store.Removal

/-!
# The content of files

What a file contains is what reading it gives. Over a heap without a limit a file that is written
contains the data, and no other file changes. The other operations change no file: at most some
are new, and empty, and some are gone.

## Main definitions

* `Store.content`: the content of a file
* `Store.Undisturbed`: no file has changed

## Main results

* `Store.content_eq`: the content of a file stands in its entry
* `Store.write_of_content`: a file that is written contains the data
* `Store.Sound.undisturbed_perform`: what is no write changes no file
-/

namespace FileTree

/-- The content of an entry that is a file. -/
def Entry.bytes? (e : Entry) : Option (List UInt8) :=
  if e.isDirectory then none else some e.data

theorem Entry.bytes?_eq_some_iff {e : Entry} {data : List UInt8} :
    e.bytes? = some data ↔ e.kind = .file ∧ e.data = data := by
  unfold bytes?
  split_ifs with hdir
  · have hkind : e.kind ≠ .file := by simp [Entry.isDirectory_iff.mp hdir]
    simp [hkind]
  · simp [Entry.kind_eq_file hdir]

namespace Store

/-- The content of a file: what reading it gives. -/
def content (s : Store) (id : EntryId) : Option (List UInt8) :=
  (s.readAll id).toOption

/-- No file has changed: one that is there has the content that it had, or is new and empty. -/
def Undisturbed (s s' : Store) : Prop :=
  ∀ ⦃id data⦄, s'.content id = some data → data = (s.content id).getD []

variable {s s' : Store} {id x : EntryId} {e : Entry} {data old : List UInt8}

/-- The content of a file stands in its entry. -/
theorem content_eq (s : Store) (id : EntryId) :
    s.content id = (s.table.find? id).bind Entry.bytes? := by
  unfold content readAll Table.get
  cases s.table.find? id with
  | none => rfl
  | some e =>
    rw [Option.bind_some, Entry.bytes?]
    dsimp only
    split_ifs <;> rfl

theorem content_eq_some_iff :
    s.content id = some data ↔ ∃ e, s.table.find? id = some e ∧ e.kind = .file ∧ e.data = data := by
  simp only [content_eq, Option.bind_eq_some_iff, Entry.bytes?_eq_some_iff]

/-- The content of files depends on the table alone. -/
theorem content_congr (h : s'.table = s.table) (id : EntryId) : s'.content id = s.content id := by
  rw [content_eq, content_eq, h]

theorem undisturbed_of_eq (h : ∀ id, s'.content id = s.content id) : s.Undisturbed s' := by
  intro id data hc
  rw [← h id, hc, Option.getD_some]

theorem undisturbed_of_table_eq (h : s'.table = s.table) : s.Undisturbed s' :=
  undisturbed_of_eq (content_congr h)

/-! ## Writing -/

/-- What is no file is not written. -/
theorem content_write_of_eq_none (h : s.content id = none) (data : List UInt8) (x : EntryId) :
    (s.write id data).2.content x = s.content x := by
  have hw := s.written_write id data
  generalize s.write id data = outcome at hw ⊢
  cases hw with
  | refused _ => rfl
  | exhausted _ hn =>
    obtain ⟨log, rfl, -⟩ := hn.exists_log
    rfl
  | filled _ hf hk _ =>
    rw [content_eq_some_iff.mpr ⟨_, hf, hk, rfl⟩] at h
    cases h

/-- Over a heap without a limit, a file that is written contains the data, and no other file
changes. -/
theorem write_of_content (hl : s.heap.limit = none) (h : s.content id = some old)
    (data : List UInt8) : (s.write id data).1 = .ok () ∧
      ∀ x, (s.write id data).2.content x = if x = id then some data else s.content x := by
  obtain ⟨e, hf, hk, -⟩ := content_eq_some_iff.mp h
  obtain ⟨log, hw⟩ := exists_write_eq hl hf hk data
  rw [hw]
  refine ⟨rfl, fun x => ?_⟩
  rw [content_eq]
  show ((Table.modify _ _ _).find? x).bind Entry.bytes? = _
  rw [Table.find?_modify, content_eq]
  by_cases hx : x = id
  · subst hx
    rw [if_pos rfl, if_pos rfl, hf, Option.map_some, Option.bind_some, Entry.bytes?_eq_some_iff]
    exact ⟨hk, e.data_withContent (Nat.le_add_right _ _)⟩
  · rw [if_neg (Ne.symm hx), if_neg hx]

/-! ## The other operations -/

theorem Created.undisturbed {kind : EntryKind} {path : String}
    {outcome : Except StoreError EntryId × Store} (ho : s.Created kind path outcome)
    (hs : s.Sound) : s.Undisturbed outcome.2 := by
  cases ho with
  | refused hn =>
    obtain ⟨log, rfl, -⟩ := hn.exists_log
    exact undisturbed_of_table_eq rfl
  | found _ _ => exact undisturbed_of_table_eq rfl
  | @made name dir id rest _ _ _ _ hdir _ hfree =>
    intro x data hc
    obtain ⟨ex, hx, hk, rfl⟩ := content_eq_some_iff.mp hc
    have ha : s.table.Attachable id { name, kind, parent := s.cursor } dir :=
      hs.attachable hdir hfree
    rcases ha.find?_attach_cases hx with ⟨rfl, rfl⟩ | ⟨rfl, rfl⟩ | ⟨-, -, hold⟩
    · have hnone : s.content x = none := by
        rw [content_eq, ha.free]
        rfl
      rw [hnone]
      rfl
    · rw [content_eq_some_iff.mpr ⟨dir, hdir, hk, rfl⟩]
      rfl
    · rw [content_eq_some_iff.mpr ⟨ex, hold, hk, rfl⟩]
      rfl

theorem Renamed.undisturbed {given : String} {outcome : Except StoreError Unit × Store}
    (ho : s.Renamed x given outcome) : s.Undisturbed outcome.2 := by
  cases ho with
  | refused => exact undisturbed_of_table_eq rfl
  | kept _ _ _ => exact undisturbed_of_table_eq rfl
  | @renamed e name _ _ _ _ _ _ _ =>
    refine undisturbed_of_eq fun id => ?_
    rw [content_eq, content_eq]
    show ((s.table.modify x (·.renamed name)).find? id).bind Entry.bytes? = _
    rw [Table.find?_modify]
    split_ifs
    · cases s.table.find? id <;> rfl
    · rfl

theorem Moved.undisturbed {outcome : Except StoreError Unit × Store}
    (ho : s.Moved x outcome) : s.Undisturbed outcome.2 := by
  cases ho with
  | refused => exact undisturbed_of_table_eq rfl
  | moved _ _ _ => exact undisturbed_of_table_eq rfl

theorem Deleted.undisturbed {outcome : Except StoreError Nat × Store}
    (ho : s.Deleted x outcome) (hs : s.Sound) : s.Undisturbed outcome.2 := by
  cases ho with
  | refused _ => exact undisturbed_of_table_eq rfl
  | @deleted e order s' log _ _ _ _ _ hp =>
    intro id data hc
    have hc : (s'.table.find? id).bind Entry.bytes? = some data := by rwa [← content_eq]
    rw [hp.find? hs] at hc
    split_ifs at hc
    · cases hc
    · have hsame : s.content id = some data := by
        rw [← hc, content_eq]
        cases s.table.find? id <;> rfl
      rw [hsame, Option.getD_some]

/-- **An operation that is no write changes no file.** -/
theorem Sound.undisturbed_perform (hs : s.Sound) {op : Operation}
    (hop : ∀ id data, op ≠ .write id data) : s.Undisturbed (s.perform op).2 := by
  cases op with
  | createFile path => exact (s.created_create .file path).undisturbed hs
  | createDirectory path => exact (s.created_create .directory path).undisturbed hs
  | write id data => exact absurd rfl (hop id data)
  | delete id => exact (hs.deleted_delete id).undisturbed hs
  | rename id name => exact (s.renamed_rename id name).undisturbed
  | changeDirectory id => exact (s.moved_changeDirectory id).undisturbed

end Store

end FileTree
