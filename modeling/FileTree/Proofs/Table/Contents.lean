import FileTree.Proofs.Table.Slots
import Mathlib.Data.List.Perm.Basic

/-!
# The buffers that entries hold

## Main definitions

* `Table.contentAt`: the buffer that an entry holds
* `Table.contents`, `Table.held`: the buffers that some entries hold, and that all of them hold

## Main results

* `Table.held_congr`, `Table.held_perm`: what a table holds depends on what its entries hold, and
  changes by one buffer where one entry changes
-/

namespace FileTree

/-- Where two functions differ at one place only, so do the lists of their values. -/
theorem filterMap_perm_of_update {α β : Type} {f g : α → Option β} {l : List α} {a : α}
    (hnd : l.Nodup) (ha : a ∈ l) (hfg : ∀ x ∈ l, x ≠ a → f x = g x) :
    ((g a).toList ++ l.filterMap f).Perm ((f a).toList ++ l.filterMap g) := by
  obtain ⟨before, after, rfl⟩ := List.append_of_mem ha
  have hne : ∀ x ∈ before ++ after, x ≠ a := by
    rintro x hx rfl
    exact (List.nodup_cons.mp (List.nodup_middle.mp hnd)).1 hx
  have hsame : (before ++ after).filterMap f = (before ++ after).filterMap g := by
    refine List.filterMap_congr fun x hx => hfg x ?_ (hne x hx)
    rw [List.perm_middle.mem_iff]
    exact List.mem_cons_of_mem _ hx
  have split : ∀ k : α → Option β, ((before ++ a :: after).filterMap k).Perm
      ((k a).toList ++ (before ++ after).filterMap k) := by
    intro k
    refine (List.perm_middle.filterMap k).trans ?_
    rw [List.filterMap_cons]
    cases k a <;> exact .refl _
  refine ((split f).append_left _).trans (.trans ?_ ((split g).symm.append_left _))
  rw [hsame, ← List.append_assoc, ← List.append_assoc]
  exact List.perm_append_comm.append_right _

namespace Table

/-- The buffer that an entry holds, if there is such an entry and it holds one. -/
def contentAt (t : Table) (id : EntryId) : Option Buffer :=
  (t.find? id).bind Entry.content

/-- The buffers that the given entries hold. -/
def contents (t : Table) (ids : List EntryId) : List Buffer :=
  ids.filterMap t.contentAt

/-- The buffers that entries hold. -/
def held (t : Table) : List Buffer :=
  t.contents t.ids

variable {t t' : Table} {id : EntryId} {e : Entry} {b : Buffer}

theorem contentAt_of_find? (h : t.find? id = some e) : t.contentAt id = e.content := by
  rw [contentAt, h, Option.bind_some]

theorem isUsed_of_contentAt (h : t.contentAt id = some b) : t.isUsed id = true := by
  obtain ⟨e, he, -⟩ := Option.bind_eq_some_iff.mp h
  exact isUsed_of_find? he

theorem mem_held : b ∈ t.held ↔ ∃ id, t.contentAt id = some b := by
  rw [held, contents, List.mem_filterMap]
  constructor
  · rintro ⟨id, -, h⟩
    exact ⟨id, h⟩
  · rintro ⟨id, h⟩
    exact ⟨id, mem_ids.mpr (isUsed_of_contentAt h), h⟩

/-- Empty slots hold nothing. -/
theorem held_eq (t : Table) :
    t.held = t.contents ((List.range t.slots.size).map EntryId.mk) := by
  rw [held, contents, ids, List.filterMap_filter]
  apply List.filterMap_congr
  intro id _
  cases h : t.contentAt id with
  | none => simp
  | some b => simp [isUsed_of_contentAt h]

theorem held_congr (hs : t'.slots.size = t.slots.size)
    (h : ∀ x, t'.contentAt x = t.contentAt x) : t'.held = t.held := by
  rw [held_eq, held_eq, hs]
  exact List.filterMap_congr fun x _ => h x

/-- Where one entry changes, what a table holds changes by what that entry holds. -/
theorem held_perm (hs : t'.slots.size = t.slots.size) (hid : id.index < t.slots.size)
    (h : ∀ x, x ≠ id → t'.contentAt x = t.contentAt x) :
    ((t'.contentAt id).toList ++ t.held).Perm ((t.contentAt id).toList ++ t'.held) := by
  rw [held_eq, held_eq, hs]
  refine filterMap_perm_of_update (List.nodup_range.map fun _ _ => EntryId.mk.inj) ?_
    fun x _ hx => (h x hx).symm
  exact List.mem_map.mpr ⟨id.index, List.mem_range.mpr hid, rfl⟩

/-- Changing an entry other than in its content leaves what it holds. -/
theorem contentAt_modify (f : Entry → Entry) (hf : ∀ e, (f e).content = e.content)
    (x : EntryId) : (t.modify id f).contentAt x = t.contentAt x := by
  rw [contentAt, contentAt, find?_modify]
  split_ifs
  · cases t.find? x with
    | none => rfl
    | some e => exact hf e
  · rfl

theorem held_modify (f : Entry → Entry) (hf : ∀ e, (f e).content = e.content) :
    (t.modify id f).held = t.held :=
  held_congr (by simp [modify]) (contentAt_modify f hf)

/-- A new entry holds nothing yet. -/
theorem Coherent.held_attach (h : t.Coherent) {rest : List Nat}
    (hf : t.free = id.index :: rest) (hne : id ≠ e.parent) (he : e.content = none) :
    (t.attach rest id e).held = t.held := by
  obtain ⟨hlt, hnone⟩ := h.head_free hf
  apply held_congr (size_slots_attach ..)
  intro x
  rw [contentAt, contentAt, find?_attach hlt hne]
  split_ifs with h₁ h₂
  · rw [h₁, hnone]
    exact he
  · cases t.find? x <;> rfl
  · rfl

/-- An entry taken out takes with it what it holds. -/
theorem contentAt_detach (dir x : EntryId) :
    (t.detach id dir).contentAt x = if x = id then none else t.contentAt x := by
  rw [contentAt, contentAt, find?_detach]
  split_ifs
  · rfl
  · cases t.find? x <;> rfl
  · rfl

theorem held_detach (h : t.find? id = some e) (dir : EntryId) :
    t.held.Perm (e.content.toList ++ (t.detach id dir).held) := by
  have key := held_perm (size_slots_detach t id dir) (index_lt_of_find? h)
    fun x hx => by rw [contentAt_detach, if_neg hx]
  rw [contentAt_detach, if_pos rfl, contentAt_of_find? h] at key
  exact key

theorem contents_cons (h : t.find? id = some e) (ids : List EntryId) :
    t.contents (id :: ids) = e.content.toList ++ t.contents ids := by
  rw [contents, List.filterMap_cons, contentAt_of_find? h]
  cases e.content <;> rfl

theorem contents_detach {ids : List EntryId} (h : id ∉ ids) (dir : EntryId) :
    (t.detach id dir).contents ids = t.contents ids := by
  apply List.filterMap_congr
  intro x hx
  have hne : x ≠ id := fun heq => h (heq ▸ hx)
  rw [contentAt_detach, if_neg hne]

end Table

end FileTree
