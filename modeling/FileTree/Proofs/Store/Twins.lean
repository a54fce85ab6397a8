import FileTree.Store.Delete
import Mathlib.Tactic.SplitIfs

/-!
# Stores that differ in their log

No operation reads the log, and the identifier of a store only goes into its log. So two stores
that are the same but for these two answer every operation alike, and are still the same but for
these two afterwards.

## Main definitions

* `Store.Twins`: the stores are the same but for their identifier and their log
* `Store.SameOutcome`: two outcomes are the same answer, and twins

## Main results

* `Store.Twins.create`, `Store.Twins.write`, `Store.Twins.rename`, `Store.Twins.changeDirectory`,
  `Store.Twins.delete`: an operation has the same outcome in twins
-/

namespace FileTree.Store

/-- The stores are the same but for their identifier and their log. -/
structure Twins (s t : Store) : Prop where
  config_eq : t.config = s.config
  table_eq : t.table = s.table
  cursor_eq : t.cursor = s.cursor
  heap_eq : t.heap = s.heap

/-- The two outcomes are the same answer, and twins. -/
inductive SameOutcome {α : Type} : α × Store → α × Store → Prop
  | mk {answer : α} {s t : Store} : s.Twins t → SameOutcome (answer, s) (answer, t)

theorem SameOutcome.answer_eq {α : Type} {o o' : α × Store} (h : SameOutcome o o') :
    o'.1 = o.1 := by
  cases h
  rfl

/-- What comes of either outcome can be followed in both at once. -/
theorem SameOutcome.exists_eq {α : Type} {o o' : α × Store} (h : SameOutcome o o') :
    ∃ answer s t, o = (answer, s) ∧ o' = (answer, t) ∧ s.Twins t := by
  obtain @⟨answer, s, t, h⟩ := h
  exact ⟨answer, s, t, rfl, rfl, h⟩

theorem SameOutcome.twins {α : Type} {o o' : α × Store} (h : SameOutcome o o') :
    o.2.Twins o'.2 := by
  cases h with
  | mk h => exact h

namespace Twins

variable {s t : Store}

theorem record (h : s.Twins t) (r r' : Record) : (s.record r).Twins (t.record r') :=
  ⟨h.config_eq, h.table_eq, h.cursor_eq, h.heap_eq⟩

theorem note (h : s.Twins t) (level : Level) (message : String) (about : Option EntryId) :
    (s.note level message about).Twins (t.note level message about) :=
  h.record _ _

theorem withTable (h : s.Twins t) (table : Table) :
    { s with table := table }.Twins { t with table := table } :=
  ⟨h.config_eq, rfl, h.cursor_eq, h.heap_eq⟩

theorem withHeap (h : s.Twins t) (heap : Heap) :
    { s with heap := heap }.Twins { t with heap := heap } :=
  ⟨h.config_eq, h.table_eq, h.cursor_eq, rfl⟩

theorem withCursor (h : s.Twins t) (id : EntryId) :
    { s with cursor := id }.Twins { t with cursor := id } :=
  ⟨h.config_eq, h.table_eq, rfl, h.heap_eq⟩

/-! ## Looking around -/

theorem entry_eq (h : s.Twins t) : t.entry = s.entry := by
  funext id
  rw [entry, entry, h.table_eq]

theorem resolve_eq (h : s.Twins t) : t.resolve = s.resolve := by
  funext path
  rw [resolve, resolve, h.table_eq, h.cursor_eq]

theorem readAll_eq (h : s.Twins t) : t.readAll = s.readAll := by
  funext id
  rw [readAll, readAll, h.table_eq]

theorem listChildren_eq (h : s.Twins t) : t.listChildren = s.listChildren := by
  funext id max
  rw [listChildren, listChildren, h.table_eq]

theorem fullPath_eq (h : s.Twins t) : t.fullPath = s.fullPath := by
  funext id
  rw [fullPath, fullPath, h.table_eq, h.config_eq]

theorem walk_eq (h : s.Twins t) : t.walk = s.walk := by
  funext id
  rw [walk, walk, h.table_eq]

theorem normalizeName_eq (h : s.Twins t) : t.normalizeName = s.normalizeName := by
  funext name given
  rw [normalizeName, normalizeName, h.config_eq]

/-! ## Operations -/

theorem create (h : s.Twins t) (kind : EntryKind) (path : String) :
    SameOutcome (s.create kind path) (t.create kind path) := by
  unfold Store.create
  rw [h.normalizeName_eq, h.cursor_eq, h.config_eq, h.table_eq]
  cases s.normalizeName (Path.creationName path) path with
  | error cause => exact .mk h
  | ok name =>
    dsimp only
    cases s.table.findChild? s.cursor name with
    | some id => exact .mk h
    | none =>
      dsimp only
      cases s.table.get s.cursor with
      | error cause => exact .mk h
      | ok dir =>
        dsimp only
        split_ifs
        · exact .mk (h.note ..)
        cases s.table.allocate { name, kind, parent := s.cursor } with
        | error cause => exact .mk (h.note ..)
        | ok made => exact .mk ⟨rfl, rfl, rfl, h.heap_eq⟩

theorem giveBack (h : s.Twins t) (id : EntryId) (b : Buffer) :
    (s.giveBack id b).Twins (t.giveBack id b) := by
  unfold Store.giveBack
  rw [h.heap_eq]
  cases s.heap.release b with
  | ok heap => exact h.withHeap heap
  | error cause => exact h.note ..

theorem retire (h : s.Twins t) (id : EntryId) (b : Buffer) :
    (s.retire id b).Twins (t.retire id b) := by
  unfold Store.retire
  rw [h.config_eq]
  cases s.config.writePolicy with
  | releaseOnReplace => exact h.giveBack id b
  | leakOnReplace => exact h.note ..

theorem write (h : s.Twins t) (id : EntryId) (data : List UInt8) :
    SameOutcome (s.write id data) (t.write id data) := by
  unfold Store.write
  rw [h.table_eq, h.heap_eq, h.config_eq]
  cases s.table.get id with
  | error cause => exact .mk h
  | ok e =>
    dsimp only
    split_ifs
    · exact .mk h
    cases s.heap.allocate (data.length + s.config.writeSlack.toNat) with
    | error cause => exact .mk (h.note ..)
    | ok lent =>
      obtain ⟨buffer, heap⟩ := lent
      have hfilled := (h.withHeap heap).withTable
        (s.table.modify id (·.withContent (buffer.fill data) data.length))
      rw [h.config_eq] at hfilled
      dsimp only
      cases e.content with
      | none => exact .mk (hfilled.record _ _)
      | some old => exact .mk ((hfilled.retire id old).record _ _)

theorem rename (h : s.Twins t) (id : EntryId) (newName : String) :
    SameOutcome (s.rename id newName) (t.rename id newName) := by
  unfold Store.rename
  rw [h.table_eq, h.normalizeName_eq]
  cases s.table.get id with
  | error cause => exact .mk h
  | ok e =>
    dsimp only
    split_ifs
    · exact .mk h
    cases s.normalizeName newName newName with
    | error cause => exact .mk h
    | ok name =>
      dsimp only
      split_ifs
      · exact .mk h
      · exact .mk h
      · exact .mk ((h.withTable _).note ..)

theorem changeDirectory (h : s.Twins t) (id : EntryId) :
    SameOutcome (s.changeDirectory id) (t.changeDirectory id) := by
  unfold Store.changeDirectory
  rw [h.table_eq]
  cases s.table.get id with
  | error cause => exact .mk h
  | ok e =>
    dsimp only
    split_ifs
    · exact .mk ⟨h.config_eq, rfl, rfl, h.heap_eq⟩
    · exact .mk h

/-! ## Deletions -/

theorem leave (h : s.Twins t) (id : EntryId) : (s.leave id).Twins (t.leave id) := by
  unfold Store.leave
  rw [h.cursor_eq]
  split_ifs
  · exact h.withCursor .root
  · exact h

theorem removeEntry (h : s.Twins t) (id : EntryId) :
    SameOutcome (s.removeEntry id) (t.removeEntry id) := by
  unfold Store.removeEntry
  rw [h.table_eq]
  cases s.table.get id with
  | error cause => exact .mk h
  | ok e =>
    have hstruck := h.withTable (s.table.modify e.parent (·.dropChild id))
    dsimp only
    cases (s.table.modify e.parent (·.dropChild id)).release id with
    | error cause => exact .mk hstruck
    | ok released =>
      obtain ⟨old, table⟩ := released
      dsimp only
      cases old.content with
      | none => exact .mk ((hstruck.withTable table).leave id)
      | some b => exact .mk (((hstruck.withTable table).giveBack id b).leave id)

theorem removeAll (h : s.Twins t) (victims : List EntryId) :
    SameOutcome (s.removeAll victims) (t.removeAll victims) := by
  induction victims generalizing s t with
  | nil => exact .mk h
  | cons id rest ih =>
    obtain ⟨answer, s', t', hs, ht, h'⟩ := (h.removeEntry id).exists_eq
    rw [Store.removeAll, Store.removeAll, hs, ht]
    cases answer with
    | error cause => exact .mk h'
    | ok _ => exact ih h'

theorem delete (h : s.Twins t) (id : EntryId) : SameOutcome (s.delete id) (t.delete id) := by
  unfold Store.delete
  rw [h.table_eq, h.walk_eq, h.cursor_eq]
  split_ifs
  · exact .mk h
  cases s.table.get id with
  | error cause => exact .mk h
  | ok e =>
    dsimp only
    cases s.walk id with
    | error cause => exact .mk h
    | ok order =>
      obtain ⟨answer, s', t', hs, ht, h'⟩ := (h.removeAll order.reverse).exists_eq
      simp only [hs, ht]
      cases answer with
      | error cause => exact .mk h'
      | ok _ =>
        dsimp only
        split_ifs
        · exact .mk ((h'.record _ _).note ..)
        · exact .mk (h'.record _ _)

end Twins

end FileTree.Store
