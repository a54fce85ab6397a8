import FileTree.Proofs.Table.Names
import FileTree.Traversal

/-!
# Tables that look alike

An entry shows everything but the buffer in which its content is kept. Two tables look alike when
they have the same free slots and generations and their entries show the same. Whoever looks
around in such tables sees the same, and the same change leaves them alike.

## Main definitions

* `Entry.View`, `Entry.view`: what an entry shows
* `Table.Alike`: two tables look alike

## Main results

* `Table.Alike.get_cases`, `Table.Alike.findChild?_eq`, `Table.Alike.walk_eq`,
  `Table.Alike.resolve_eq`: looking around in tables that look alike
* `Table.Alike.modify`, `Table.Alike.allocate_cases`, `Table.Alike.release_cases`: changing tables
  that look alike
-/

namespace FileTree

/-- What an entry shows: all but the buffer that holds its content. -/
structure Entry.View where
  name : String
  kind : EntryKind
  parent : EntryId
  children : List EntryId
  size : Nat
  data : List UInt8
  deriving DecidableEq

/-- What the entry shows. -/
def Entry.view (e : Entry) : View where
  name := e.name
  kind := e.kind
  parent := e.parent
  children := e.children
  size := e.size
  data := e.data

theorem Entry.view_addChild (e : Entry) (id : EntryId) :
    (e.addChild id).view = { e.view with children := e.view.children ++ [id] } := rfl

theorem Entry.view_dropChild (e : Entry) (id : EntryId) :
    (e.dropChild id).view = { e.view with children := e.view.children.filter (· != id) } := rfl

theorem Entry.view_renamed (e : Entry) (name : String) :
    (e.renamed name).view = { e.view with name := name } := rfl

theorem Entry.isDirectory_eq_of_view_eq {e e' : Entry} (h : e.view = e'.view) :
    e'.isDirectory = e.isDirectory := by
  rw [isDirectory, isDirectory, show e.kind = e'.kind from congrArg View.kind h]

namespace Table

/-- The tables look alike: the same slots are free, the generations agree, and in the other slots
stand entries that show the same. -/
structure Alike (t t' : Table) : Prop where
  size_eq : t'.slots.size = t.slots.size
  free_eq : t'.free = t.free
  view_eq : ∀ id, (t'.find? id).map Entry.view = (t.find? id).map Entry.view
  generationAt_eq : ∀ id, t'.generationAt id = t.generationAt id

variable {t t' t'' : Table} {id dir : EntryId} {e e' : Entry}

theorem Alike.refl (t : Table) : t.Alike t :=
  ⟨rfl, rfl, fun _ => rfl, fun _ => rfl⟩

theorem Alike.symm (h : t.Alike t') : t'.Alike t where
  size_eq := h.size_eq.symm
  free_eq := h.free_eq.symm
  view_eq id := (h.view_eq id).symm
  generationAt_eq id := (h.generationAt_eq id).symm

theorem Alike.trans (h : t.Alike t') (h' : t'.Alike t'') : t.Alike t'' where
  size_eq := h'.size_eq.trans h.size_eq
  free_eq := h'.free_eq.trans h.free_eq
  view_eq id := (h'.view_eq id).trans (h.view_eq id)
  generationAt_eq id := (h'.generationAt_eq id).trans (h.generationAt_eq id)

/-! ## Looking around -/

/-- A slot is empty in both tables, or holds entries that show the same. -/
theorem Alike.find?_cases (h : t.Alike t') (id : EntryId) :
    (t.find? id = none ∧ t'.find? id = none) ∨
      ∃ e e', t.find? id = some e ∧ t'.find? id = some e' ∧ e.view = e'.view := by
  have hview := h.view_eq id
  cases hf : t.find? id with
  | none =>
    rw [hf, Option.map_none, Option.map_eq_none_iff] at hview
    exact .inl ⟨rfl, hview⟩
  | some e =>
    rw [hf, Option.map_some] at hview
    obtain ⟨e', hf', heq⟩ := Option.map_eq_some_iff.mp hview
    exact .inr ⟨e, e', rfl, hf', heq.symm⟩

/-- Both tables miss an entry for the same reason, or have entries that show the same. -/
theorem Alike.get_cases (h : t.Alike t') (id : EntryId) :
    (∃ cause, t.get id = .error cause ∧ t'.get id = .error cause) ∨
      ∃ e e', t.get id = .ok e ∧ t'.get id = .ok e' ∧ e.view = e'.view := by
  rcases h.find?_cases id with ⟨hf, hf'⟩ | ⟨e, e', hf, hf', heq⟩
  · exact .inl ⟨.invalidId id, get_eq_error_iff.mpr ⟨hf, rfl⟩, get_eq_error_iff.mpr ⟨hf', rfl⟩⟩
  · exact .inr ⟨e, e', get_of_find? hf, get_of_find? hf', heq⟩

theorem Alike.signpost_eq (h : t.Alike t') (id : EntryId) :
    (t'.find? id).map Entry.signpost = (t.find? id).map Entry.signpost := by
  have hview := congrArg (Option.map fun v : Entry.View => (v.name, v.children)) (h.view_eq id)
  rw [Option.map_map, Option.map_map] at hview
  exact hview

/-- A name is found in both tables at the same entry, or in neither. -/
theorem Alike.findChild?_eq (h : t.Alike t') (dir : EntryId) (name : String) :
    t'.findChild? dir name = t.findChild? dir name := by
  rw [findChild?_congr h.signpost_eq]

theorem Alike.walkFrom_eq (h : t.Alike t') (start : EntryId) (room : Nat)
    (stack : List EntryId) : t'.walkFrom start room stack = t.walkFrom start room stack := by
  induction room generalizing stack with
  | zero => cases stack <;> rfl
  | succ room ih =>
    cases stack with
    | nil => rfl
    | cons id stack =>
      rcases h.get_cases id with ⟨cause, hg, hg'⟩ | ⟨e, e', hg, hg', heq⟩
      · simp only [walkFrom, hg, hg']
      · have hchildren : e.children = e'.children := congrArg Entry.View.children heq
        simp only [walkFrom, hg, hg', hchildren, ih]

/-- A walk visits the same entries in both tables. -/
theorem Alike.walk_eq (h : t.Alike t') (id : EntryId) : t'.walk id = t.walk id := by
  rw [walk, walk, show t'.capacity = t.capacity from h.size_eq]
  exact h.walkFrom_eq id _ _

/-- A path names the same entry in both tables, or none in either. -/
theorem Alike.resolve_eq (h : t.Alike t') (base : EntryId) (path : String) :
    t'.resolve base path = t.resolve base path :=
  resolve_congr h.signpost_eq base path

theorem Alike.namesUp_eq (h : t.Alike t') (depth : Nat) (id : EntryId) :
    t'.namesUp depth id = t.namesUp depth id := by
  induction depth generalizing id with
  | zero => rfl
  | succ depth ih =>
    rcases h.get_cases id with ⟨cause, hg, hg'⟩ | ⟨e, e', hg, hg', heq⟩
    · simp only [namesUp, hg, hg']
    · have hname : e.name = e'.name := congrArg Entry.View.name heq
      have hparent : e.parent = e'.parent := congrArg Entry.View.parent heq
      simp only [namesUp, hg, hg', hname, hparent, ih]

theorem Alike.generation_eq (h : t.Alike t') (id : EntryId) :
    t'.generation id = t.generation id := by
  unfold generation
  rw [h.generationAt_eq]
  rcases h.find?_cases id with ⟨hf, hf'⟩ | ⟨e, e', hf, hf', -⟩
  · rw [hf, hf']
  · rw [hf, hf']

/-! ## The same change in both tables -/

/-- The entries of a slot are changed in such a way that they still show the same. -/
theorem Alike.modify (h : t.Alike t') (id : EntryId) (f f' : Entry → Entry)
    (hf : ∀ e e', e.view = e'.view → (f e).view = (f' e').view) :
    (t.modify id f).Alike (t'.modify id f') where
  size_eq := by simpa [Table.modify] using h.size_eq
  free_eq := h.free_eq
  view_eq x := by
    rw [find?_modify, find?_modify]
    split_ifs
    · rcases h.find?_cases x with ⟨hx, hx'⟩ | ⟨e, e', hx, hx', heq⟩
      · rw [hx, hx']
        rfl
      · rw [hx, hx', Option.map_some, Option.map_some, Option.map_some, Option.map_some,
          hf e e' heq]
    · exact h.view_eq x
  generationAt_eq x := by
    rw [generationAt_modify, generationAt_modify]
    exact h.generationAt_eq x

/-- A new entry goes to the same slot in both tables, or finds no room in either. -/
theorem Alike.allocate_cases (h : t.Alike t') (e : Entry) :
    (∃ cause, t.allocate e = .error cause ∧ t'.allocate e = .error cause) ∨
      ∃ id u u', t.allocate e = .ok (id, u) ∧ t'.allocate e = .ok (id, u') ∧ u.Alike u' := by
  unfold allocate
  rw [h.free_eq]
  cases t.free with
  | nil => exact .inl ⟨_, rfl, by rw [show t'.capacity = t.capacity from h.size_eq]⟩
  | cons index rest =>
    refine .inr ⟨⟨index⟩, _, _, rfl, rfl, ?_, rfl, fun x => ?_, fun x => ?_⟩
    · simpa [put] using h.size_eq
    · rw [find?_put, find?_put, show ({ t' with free := rest } : Table).slots.size =
        ({ t with free := rest } : Table).slots.size from h.size_eq]
      split_ifs
      · rfl
      · exact h.view_eq x
    · rw [generationAt_put, generationAt_put]
      exact h.generationAt_eq x

/-- An entry is taken out of its slot in both tables, or in neither. -/
theorem Alike.release_cases (h : t.Alike t') (id : EntryId) :
    (∃ cause, t.release id = .error cause ∧ t'.release id = .error cause) ∨
      ∃ e e' u u', t.release id = .ok (e, u) ∧ t'.release id = .ok (e', u') ∧ u.Alike u' := by
  unfold release
  split_ifs
  · exact .inl ⟨_, rfl, rfl⟩
  rcases h.find?_cases id with ⟨hf, hf'⟩ | ⟨e, e', hf, hf', -⟩
  · exact .inl ⟨.invalidId id, by rw [hf], by rw [hf']⟩
  · refine .inr ⟨e, e', _, _, by rw [hf], by rw [hf'], ?_, ?_, fun x => ?_, fun x => ?_⟩
    · simpa [vacate] using h.size_eq
    · exact congrArg (insertFree id.index) h.free_eq
    · rw [find?_vacate, find?_vacate]
      split_ifs
      · rfl
      · exact h.view_eq x
    · rw [generationAt_vacate, generationAt_vacate, h.size_eq, h.generationAt_eq x]

end Table

end FileTree
