import FileTree.Proofs.Store.FullPath
import FileTree.Proofs.Store.NewFile
import FileTree.Proofs.Store.Transcript
import FileTree.Proofs.Table.Reuse

/-!
# Whose fault a refusal is

Two kinds of refusals tell of something that should not be: an identifier that names nothing, and a
damaged tree. A sound store is not damaged, and every identifier that it goes by itself is in use:
the cursor, the children and the parent of an entry, and what a path leads to. So it refuses an
identifier only when it was given that identifier from outside, and the identifier is not in use.

## Main definitions

* `StoreError.Internal`: a refusal of these kinds
* `StoreError.BlamesGiven`: it is one only for an identifier that was given, and is not in use
* `Operation.given?`, `Query.given?`: the identifier that an operation or a question was given

## Main results

* `Store.Sound.blamesGiven_perform`, `Store.Sound.blamesGiven_ask`: a sound store blames none but
  the identifier that it was given
* `Store.Sound.not_internal_of_resolve`, `Store.Sound.not_internal_of_create`: paths and names are
  never refused so
-/

namespace FileTree

/-- The refusal tells of an identifier that names nothing, or of a damaged tree. -/
def StoreError.Internal : StoreError → Prop
  | .invalidId _ | .corrupted _ => True
  | _ => False

/-- If the refusal is internal, it names the identifier that was given, which is not in use. -/
def StoreError.BlamesGiven (t : Table) (given : Option EntryId) (cause : StoreError) : Prop :=
  cause.Internal → ∃ id, given = some id ∧ cause = .invalidId id ∧ t.isUsed id = false

namespace StoreError.BlamesGiven

variable {t : Table} {given : Option EntryId} {id : EntryId} {e : Entry} {cause : StoreError}

theorem of_not_internal (h : ¬ cause.Internal) : cause.BlamesGiven t given :=
  fun hi => absurd hi h

theorem of_get (h : t.get id = .error cause) : cause.BlamesGiven t (some id) := by
  obtain ⟨hnone, rfl⟩ := Table.get_eq_error_iff.mp h
  exact fun _ => ⟨id, rfl, rfl, Table.isUsed_eq_false_iff.mpr hnone⟩

/-- Where the given identifier is in use there is none to blame. -/
theorem not_internal (h : cause.BlamesGiven t (some id)) (hf : t.find? id = some e) :
    ¬ cause.Internal := by
  intro hi
  obtain ⟨x, hx, -, hunused⟩ := h hi
  obtain rfl := Option.some.inj hx
  rw [Table.isUsed_of_find? hf] at hunused
  cases hunused

end StoreError.BlamesGiven

/-- The identifier that an operation is given. -/
def Operation.given? : Operation → Option EntryId
  | .write id _ | .delete id | .rename id _ | .changeDirectory id => some id
  | .createFile _ | .createDirectory _ => none

/-- The identifier that a question is given. -/
def Query.given? : Query → Option EntryId
  | .entry id | .generation id | .listChildren id _ | .read id _ | .readAll id | .fullPath id
  | .walk id => some id
  | .count | .current | .resolve _ | .verify => none

namespace Store

variable {s : Store} {id : EntryId} {cause : StoreError}

/-! ## Operations -/

/-- A name is refused only for being empty. -/
theorem not_internal_of_normalizeName {name given : String}
    (h : s.normalizeName name given = .error cause) : ¬ cause.Internal := by
  unfold normalizeName at h
  dsimp only at h
  split_ifs at h
  obtain rfl := Except.error.inj h
  exact not_false

/-- An entry is made in the current directory, which is there. -/
theorem Sound.not_internal_of_create (hs : s.Sound) {kind : EntryKind} {path : String}
    (h : (s.create kind path).1 = .error cause) : ¬ cause.Internal := by
  obtain ⟨dir, hdir, -⟩ := hs.cursor
  unfold create at h
  cases hname : s.normalizeName (Path.creationName path) path with
  | error c =>
    rw [hname] at h
    obtain rfl := Except.error.inj h
    exact not_internal_of_normalizeName hname
  | ok name =>
    simp only [hname, Table.get_of_find? hdir] at h
    split at h
    · cases h
    split_ifs at h
    · obtain rfl := Except.error.inj h
      exact not_false
    · cases halloc : s.table.allocate { name, kind, parent := s.cursor } with
      | error c =>
        rw [halloc] at h
        obtain rfl := Except.error.inj h
        obtain ⟨-, rfl⟩ := Table.allocate_eq_error_iff.mp halloc
        exact not_false
      | ok p =>
        rw [halloc] at h
        cases h

theorem blamesGiven_of_write {data : List UInt8} (h : (s.write id data).1 = .error cause) :
    cause.BlamesGiven s.table (some id) := by
  unfold write at h
  cases he : s.table.get id with
  | error c =>
    rw [he] at h
    obtain rfl := Except.error.inj h
    exact .of_get he
  | ok e =>
    rw [he] at h
    dsimp only at h
    split_ifs at h
    · obtain rfl := Except.error.inj h
      exact .of_not_internal not_false
    split at h
    · obtain rfl := Except.error.inj h
      exact .of_not_internal not_false
    · cases h

/-- What is below an entry is found, and taken out. -/
theorem Sound.blamesGiven_of_delete (hs : s.Sound) (h : (s.delete id).1 = .error cause) :
    cause.BlamesGiven s.table (some id) := by
  unfold delete at h
  split_ifs at h with hroot
  · obtain rfl := Except.error.inj h
    exact .of_not_internal not_false
  have hne : id ≠ .root := fun heq => hroot (id.isRoot_iff.mpr heq)
  cases he : s.table.get id with
  | error c =>
    rw [he] at h
    obtain rfl := Except.error.inj h
    exact .of_get he
  | ok e =>
    -- Taken in the order from below, each of them is a leaf when it is taken out.
    obtain ⟨order, hwalk, hpre, -⟩ := hs.linked.exists_walk (Table.get_eq_ok_iff.mp he)
    obtain ⟨s', hs', -⟩ := exists_removeAll hs (hpre.removable_reverse hs.linked hne)
    simp only [he, walk, hwalk, hs'] at h
    cases h

theorem blamesGiven_of_rename {name : String} (h : (s.rename id name).1 = .error cause) :
    cause.BlamesGiven s.table (some id) := by
  unfold rename at h
  cases he : s.table.get id with
  | error c =>
    rw [he] at h
    obtain rfl := Except.error.inj h
    exact .of_get he
  | ok e =>
    rw [he] at h
    dsimp only at h
    split_ifs at h
    · obtain rfl := Except.error.inj h
      exact .of_not_internal not_false
    cases hname : s.normalizeName name name with
    | error c =>
      rw [hname] at h
      obtain rfl := Except.error.inj h
      exact .of_not_internal (not_internal_of_normalizeName hname)
    | ok cut =>
      rw [hname] at h
      dsimp only at h
      split_ifs at h
      obtain rfl := Except.error.inj h
      exact .of_not_internal not_false

theorem blamesGiven_of_changeDirectory (h : (s.changeDirectory id).1 = .error cause) :
    cause.BlamesGiven s.table (some id) := by
  unfold changeDirectory at h
  cases he : s.table.get id with
  | error c =>
    rw [he] at h
    obtain rfl := Except.error.inj h
    exact .of_get he
  | ok e =>
    rw [he] at h
    dsimp only at h
    split_ifs at h
    obtain rfl := Except.error.inj h
    exact .of_not_internal not_false

/-- **An operation on a sound store blames none but the identifier that it was given**, and that one
only if it is not in use. -/
theorem Sound.blamesGiven_perform (hs : s.Sound) {op : Operation}
    (h : (s.perform op).1 = .error cause) : cause.BlamesGiven s.table op.given? := by
  cases op with
  | createFile path => exact .of_not_internal (hs.not_internal_of_create (eq_error_of_map h))
  | createDirectory path => exact .of_not_internal (hs.not_internal_of_create (eq_error_of_map h))
  | write id data => exact blamesGiven_of_write (eq_error_of_map h)
  | delete id => exact hs.blamesGiven_of_delete (eq_error_of_map h)
  | rename id name => exact blamesGiven_of_rename (eq_error_of_map h)
  | changeDirectory id => exact blamesGiven_of_changeDirectory (eq_error_of_map h)

/-- The outcome of looking for an entry is one that is there, or a refusal that is not internal. -/
inductive FindsEntry : Except StoreError EntryId × Store → Prop
  | refused {cause : StoreError} {s : Store} : ¬ cause.Internal → FindsEntry (.error cause, s)
  | found {id : EntryId} {s : Store} {e : Entry} :
    s.table.find? id = some e → FindsEntry (.ok id, s)

/-- An entry that was made, or found in its place, is there. -/
theorem Sound.findsEntry_create (hs : s.Sound) (kind : EntryKind) (path : String) :
    FindsEntry (s.create kind path) := by
  have hc := s.created_create kind path
  have hrefused := fun c (h : (s.create kind path).1 = .error c) => hs.not_internal_of_create h
  generalize s.create kind path = outcome at hc hrefused ⊢
  obtain ⟨c | id, after⟩ := outcome
  · exact .refused (hrefused c rfl)
  · obtain ⟨e, he⟩ := hc.exists_entry hs
    exact .found he

/-! ## Questions -/

/-- A path is refused only when it leads nowhere. -/
theorem Sound.not_internal_of_resolve (hs : s.Sound) {path : String}
    (h : s.resolve path = .error cause) : ¬ cause.Internal := by
  obtain rfl := hs.eq_notFound_of_resolve h
  exact not_false

theorem blamesGiven_of_readAll (h : s.readAll id = .error cause) :
    cause.BlamesGiven s.table (some id) := by
  unfold readAll at h
  cases he : s.table.get id with
  | error c =>
    rw [he] at h
    obtain rfl := Except.error.inj h
    exact .of_get he
  | ok e =>
    rw [he] at h
    dsimp only at h
    split_ifs at h
    obtain rfl := Except.error.inj h
    exact .of_not_internal not_false

theorem blamesGiven_of_read {target : List UInt8} (h : s.read id target = .error cause) :
    cause.BlamesGiven s.table (some id) := by
  unfold read at h
  split at h
  · rename_i c hread
    obtain rfl := Except.error.inj h
    exact blamesGiven_of_readAll hread
  · cases h

theorem blamesGiven_of_listChildren {max : Nat} (h : s.listChildren id max = .error cause) :
    cause.BlamesGiven s.table (some id) := by
  unfold listChildren at h
  cases he : s.table.get id with
  | error c =>
    rw [he] at h
    obtain rfl := Except.error.inj h
    exact .of_get he
  | ok e =>
    rw [he] at h
    dsimp only at h
    split_ifs at h
    obtain rfl := Except.error.inj h
    exact .of_not_internal not_false

/-- The way up from an entry is there. -/
theorem Sound.blamesGiven_of_fullPath (hs : s.Sound) (h : s.fullPath id = .error cause) :
    cause.BlamesGiven s.table (some id) := by
  cases he : s.table.find? id with
  | none =>
    obtain ⟨c, hget⟩ : ∃ c, s.table.get id = .error c :=
      ⟨_, Table.get_eq_error_iff.mpr ⟨he, rfl⟩⟩
    rw [fullPath, hget] at h
    obtain rfl := Except.error.inj h
    exact .of_get hget
  | some e =>
    obtain ⟨path, hpath⟩ := hs.exists_fullPath he
    rw [hpath] at h
    cases h

/-- So is what is below it. -/
theorem Sound.blamesGiven_of_walk (hs : s.Sound) (h : s.walk id = .error cause) :
    cause.BlamesGiven s.table (some id) := by
  cases he : s.table.find? id with
  | none =>
    obtain ⟨c, hget⟩ : ∃ c, s.table.get id = .error c :=
      ⟨_, Table.get_eq_error_iff.mpr ⟨he, rfl⟩⟩
    obtain ⟨r, hr, -⟩ := hs.linked.root
    have hpos : 0 < s.table.capacity := Nat.zero_lt_of_lt (Table.index_lt_of_find? hr)
    obtain ⟨room, hroom⟩ := Nat.exists_eq_add_one_of_ne_zero (Nat.ne_of_gt hpos)
    rw [walk, Table.walk, hroom, Table.walkFrom, hget] at h
    obtain rfl := Except.error.inj h
    exact .of_get hget
  | some e =>
    obtain ⟨order, hwalk, -⟩ := hs.linked.exists_walk he
    rw [walk, hwalk] at h
    cases h

theorem blamesGiven_of_generation (h : s.table.generation id = .error cause) :
    cause.BlamesGiven s.table (some id) := by
  unfold Table.generation at h
  split at h
  · cases h
  · rename_i hnone
    obtain rfl := Except.error.inj h
    exact .of_get (Table.get_eq_error_iff.mpr ⟨hnone, rfl⟩)

/-- **A question about a sound store blames none but the identifier that it was given**, and that
one only if it is not in use. -/
theorem Sound.blamesGiven_ask (hs : s.Sound) {q : Query} (h : s.ask q = .error cause) :
    cause.BlamesGiven s.table q.given? := by
  cases q with
  | entry id => exact .of_get (eq_error_of_map h)
  | generation id => exact blamesGiven_of_generation (eq_error_of_map h)
  | count => cases h
  | current => cases h
  | resolve path => exact .of_not_internal (hs.not_internal_of_resolve (eq_error_of_map h))
  | listChildren dir max => exact blamesGiven_of_listChildren (eq_error_of_map h)
  | read id target => exact blamesGiven_of_read (eq_error_of_map h)
  | readAll id => exact blamesGiven_of_readAll (eq_error_of_map h)
  | fullPath id => exact hs.blamesGiven_of_fullPath (eq_error_of_map h)
  | walk id => exact hs.blamesGiven_of_walk (eq_error_of_map h)
  | verify =>
    rw [ask, hs.verify_eq_ok] at h
    cases h

end Store

end FileTree
