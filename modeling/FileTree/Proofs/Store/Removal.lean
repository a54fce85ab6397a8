import FileTree.Proofs.Store.Sound
import FileTree.Proofs.Table.Preorder

/-!
# Taking out a subtree

The reverse of a pre-order lists children before their parents. Entries in such an order can be
taken out one after the other: each has no children left when its turn comes, so nothing can
fail once the first is out, and the store stays sound throughout.

## Main definitions

* `Table.Removable`: the entries can be taken out in the given order
* `Store.Prunes`: entries taken out one after the other
* `Store.Deleted`: what a deletion can come to

## Main results

* `Store.exists_removeAll`: entries that can be taken out are taken out
* `Store.Prunes.find?`, `Store.Prunes.isUsed_iff`, `Store.Prunes.generationAt`: what is left of
  the table
* `Store.Sound.deleted_delete`: a deletion is refused and changes nothing, or takes out the subtree
* `Store.Sound.steps_perform`, `Store.Reaches.sound`: every operation is a row of elementary
  changes, so every store that comes of a sound one is sound
-/

namespace FileTree

namespace Table

variable {t : Table} {id : EntryId} {e : Entry} {victims : List EntryId}

/-- The entries can be taken out one after the other: none is the root, none comes twice, and
children come before their parents. -/
structure Removable (t : Table) (victims : List EntryId) : Prop where
  used : ∀ id ∈ victims, t.isUsed id = true
  ne_root : ∀ id ∈ victims, id ≠ .root
  nodup : victims.Nodup
  children_first : ∀ ⦃before id later e⦄, victims = before ++ id :: later →
    t.find? id = some e → e.children ⊆ before

/-- A subtree can be taken out in the reverse of its pre-order. -/
theorem Preorder.removable_reverse (h : t.Preorder [id] victims) (hl : t.Linked)
    (hid : id ≠ .root) : t.Removable victims.reverse where
  used x hx := h.isUsed (List.mem_reverse.mp hx)
  ne_root x hx := by
    rintro rfl
    obtain ⟨y, hy, hb⟩ := (h.mem_iff hl).mp (List.mem_reverse.mp hx)
    obtain rfl := List.mem_singleton.mp hy
    exact hid (hl.eq_root_of_below hb rfl)
  nodup := List.nodup_reverse.mpr (h.nodup hl (List.pairwise_singleton _ _))
  children_first before x later ex ho hx := by
    have ho' : victims = later.reverse ++ x :: before.reverse := by
      rw [← List.reverse_reverse victims, ho]
      simp
    exact fun y hy => List.mem_reverse.mp (h.children_after ho' hx hy)

/-- The first of the entries has no children. -/
theorem Removable.detachable (h : t.Removable (id :: victims)) (hf : t.find? id = some e) :
    t.Detachable id e where
  found := hf
  ne_root := h.ne_root id (by simp)
  leaf := List.subset_nil.mp (h.children_first (List.nil_append _).symm hf)

/-- Once the first of the entries is out, the others can be taken out. -/
theorem Removable.detach (h : t.Removable (id :: victims)) (hl : t.Linked)
    (hf : t.find? id = some e) : (t.detach id e.parent).Removable victims := by
  have hd := h.detachable hf
  obtain ⟨hnot, hnd⟩ := List.nodup_cons.mp h.nodup
  refine ⟨fun x hx => ?_, fun x hx => h.ne_root x (by simp [hx]), hnd, ?_⟩
  · obtain ⟨ex, hex⟩ := isUsed_iff.mp (h.used x (by simp [hx]))
    have hne : x ≠ id := fun heq => hnot (heq ▸ hx)
    exact isUsed_of_find? (hd.find?_detach_of_ne hl hex hne)
  · intro before x later ex ho hx y hy
    obtain ⟨-, ex₀, hx₀, rfl⟩ := hd.exists_of_find?_detach hl hx
    obtain ⟨hy, hne⟩ := List.mem_filter.mp hy
    have ho' : id :: victims = (id :: before) ++ x :: later := by rw [ho, List.cons_append]
    rcases List.mem_cons.mp (h.children_first ho' hx₀ hy) with rfl | hm
    · simp at hne
    · exact hm

end Table

/-- The entry without some of its children. -/
def Entry.dropChildren (e : Entry) (ids : List EntryId) : Entry :=
  { e with children := e.children.filter (· ∉ ids) }

@[simp] theorem Entry.dropChildren_nil (e : Entry) : e.dropChildren [] = e := by
  simp [dropChildren]

theorem Entry.dropChildren_dropChild (e : Entry) (id : EntryId) (ids : List EntryId) :
    (e.dropChild id).dropChildren ids = e.dropChildren (id :: ids) := by
  simp only [dropChildren, dropChild, List.filter_filter, Entry.mk.injEq, and_self, and_true,
    true_and]
  apply List.filter_congr
  intro x _
  by_cases hx : x = id <;> simp [hx]

namespace Store

variable {s s' : Store} {id : EntryId} {e : Entry} {victims : List EntryId}

/-- Entries without children taken out one after the other. The log stays as it is unless the
heap refuses a buffer. -/
inductive Prunes : Store → List EntryId → Store → Prop
  | nil {s : Store} : Prunes s [] s
  | cons {s s' : Store} {id : EntryId} {e : Entry} {rest : List EntryId} {log : Log} :
      (s.heap.Grants e.content → log = s.log) → s.table.Detachable id e →
      Prunes { s.pruned id e with log := log } rest s' → Prunes s (id :: rest) s'

theorem Prunes.steps (h : s.Prunes victims s') : s.Steps s' := by
  induction h with
  | nil => exact .refl
  | @cons _ _ _ _ _ log _ hd _ ih =>
    exact .head (.prune hd.found hd.ne_root hd.leaf) (.head (.relog log) ih)

/-- Of the table, everything is left but the entries taken out and their listings. -/
theorem Prunes.find? (h : s.Prunes victims s') (hs : s.Sound) (x : EntryId) :
    s'.table.find? x =
      if x ∈ victims then none else (s.table.find? x).map (·.dropChildren victims) := by
  induction h with
  | nil => simp
  | @cons s s' id e rest log _ hd _ ih =>
    rw [ih ((Step.relog log).sound (hs.pruned hd))]
    change (if x ∈ rest then none
      else ((s.table.detach id e.parent).find? x).map (·.dropChildren rest)) = _
    rw [hd.find?_detach_eq hs.linked]
    by_cases hx : x = id
    · simp [hx]
    · simp [hx, Function.comp_def, Entry.dropChildren_dropChild]

/-- What is left is what was there before, but for the entries taken out. -/
theorem Prunes.isUsed_iff (h : s.Prunes victims s') (hs : s.Sound) (x : EntryId) :
    s'.table.isUsed x = true ↔ s.table.isUsed x = true ∧ x ∉ victims := by
  rw [Table.isUsed, Table.isUsed, h.find? hs]
  by_cases hx : x ∈ victims <;> simp [hx]

/-- The slots of the entries taken out advance by one generation, and no other. -/
theorem Prunes.generationAt (h : s.Prunes victims s') (hnd : victims.Nodup) (x : EntryId) :
    s'.table.generationAt x =
      if x ∈ victims then s.table.generationAt x + 1 else s.table.generationAt x := by
  induction h with
  | nil => simp
  | @cons s s' id e rest log _ hd _ ih =>
    obtain ⟨hnot, hnd⟩ := List.nodup_cons.mp hnd
    rw [ih hnd]
    change (if x ∈ rest then (s.table.detach id e.parent).generationAt x + 1
      else (s.table.detach id e.parent).generationAt x) = _
    rw [Table.generationAt_detach _ _ hd.found]
    by_cases hx : x = id
    · subst hx
      simp [hnot]
    · simp [hx]

/-- An entry without children is taken out. -/
theorem exists_removeEntry (hl : s.table.Linked) (hd : s.table.Detachable id e) :
    ∃ log, s.removeEntry id = (.ok (), { s.pruned id e with log := log }) ∧
      (s.heap.Grants e.content → log = s.log) := by
  have hparent : e.parent ≠ id := hd.parent_ne hl hd.found hd.ne_root
  have hfind : (s.table.modify e.parent (·.dropChild id)).find? id = some e := by
    rw [Table.find?_modify, if_neg hparent, hd.found]
  have hroot : id.isRoot = false := Bool.eq_false_iff.mpr fun h => hd.ne_root (id.isRoot_iff.mp h)
  simp only [removeEntry, Table.get_of_find? hd.found, Table.release, hroot, Bool.false_eq_true,
    if_false, hfind]
  cases hc : e.content with
  | none =>
    refine ⟨s.log, ?_, fun _ => rfl⟩
    simp only [pruned, hc, leave]
    split <;> rfl
  | some b =>
    obtain ⟨log, heq, hlog⟩ := exists_log_giveBack
      { s with table := (s.table.modify e.parent (·.dropChild id)).vacate id } id b
    refine ⟨log, ?_, hlog⟩
    simp only [heq, pruned, hc, leave]
    split <;> rfl

/-- Entries that can be taken out are taken out. -/
theorem exists_removeAll (hs : s.Sound) (hv : s.table.Removable victims) :
    ∃ s', s.removeAll victims = (.ok (), s') ∧ s.Prunes victims s' := by
  induction victims generalizing s with
  | nil => exact ⟨s, rfl, .nil⟩
  | cons id rest ih =>
    -- The first has no children; once it is out, the store is sound and the rest can go.
    obtain ⟨e, hf⟩ := Table.isUsed_iff.mp (hv.used id (by simp))
    have hd := hv.detachable hf
    obtain ⟨log, heq, hlog⟩ := exists_removeEntry hs.linked hd
    have hs₁ : { s.pruned id e with log := log }.Sound := (Step.relog log).sound (hs.pruned hd)
    obtain ⟨s', hs', hp⟩ := ih hs₁ (hv.detach hs.linked hf)
    exact ⟨s', by rw [removeAll, heq]; exact hs', .cons hlog hd hp⟩

/-- What a deletion can come to. Only the root and what is no entry are refused. -/
inductive Deleted (s : Store) (id : EntryId) : Except StoreError Nat × Store → Prop
  | refused {cause : StoreError} : (id ≠ .root → s.table.find? id = none) →
      Deleted s id (.error cause, s)
  | deleted {e : Entry} {order : List EntryId} {s' : Store} {log : Log} :
      (s'.log.Quiet → log.Quiet) → s.table.find? id = some e → id ≠ .root →
      s.table.Preorder [id] order → order.Nodup → s.Prunes order.reverse s' →
      Deleted s id (.ok order.length, { s' with log := log })

/-- **A deletion is refused and changes nothing, or takes out the subtree.** -/
theorem Sound.deleted_delete (hs : s.Sound) (id : EntryId) : s.Deleted id (s.delete id) := by
  unfold delete
  split_ifs with hroot
  · exact .refused fun hne => absurd (id.isRoot_iff.mp hroot) hne
  have hne : id ≠ .root := fun heq => hroot (id.isRoot_iff.mpr heq)
  cases hget : s.table.get id with
  | error cause => exact .refused fun _ => (Table.get_eq_error_iff.mp hget).1
  | ok e =>
    have hf := Table.get_eq_ok_iff.mp hget
    obtain ⟨order, hwalk, hpre, hnd, -⟩ := hs.linked.exists_walk hf
    obtain ⟨s', hs', hp⟩ := exists_removeAll hs (hpre.removable_reverse hs.linked hne)
    have key := fun (log : Log) (hq : s'.log.Quiet → log.Quiet) =>
      Deleted.deleted hq hf hne hpre hnd hp
    simp only [walk, hwalk, hs']
    split_ifs
    · exact key _ fun hq => (hq.record (by simp)).record (by simp)
    · exact key _ fun hq => hq.record (by simp)

theorem Sound.steps_delete (hs : s.Sound) (id : EntryId) : s.Steps (s.delete id).2 := by
  have h := hs.deleted_delete id
  generalize s.delete id = outcome at h ⊢
  cases h with
  | refused _ => exact .refl
  | @deleted _ _ _ log _ _ _ _ _ hp => exact hp.steps.tail (.relog log)

/-- Every operation on a sound store is a row of elementary changes. -/
theorem Sound.steps_perform (hs : s.Sound) (op : Operation) : s.Steps (s.perform op).2 := by
  cases op with
  | createFile path => exact steps_create s .file path
  | createDirectory path => exact steps_create s .directory path
  | write id data => exact steps_write s id data
  | delete id => exact hs.steps_delete id
  | rename id name => exact steps_rename s id name
  | changeDirectory id => exact steps_changeDirectory s id

theorem Sound.perform (hs : s.Sound) (op : Operation) : (s.perform op).2.Sound :=
  (hs.steps_perform op).sound hs

/-- What comes of a sound store comes of it by elementary changes. -/
theorem Reaches.steps (h : s.Reaches s') (hs : s.Sound) : s.Steps s' := by
  induction h with
  | refl => exact .refl
  | perform op _ ih => exact ih.trans ((ih.sound hs).steps_perform op)
  | relog log _ ih => exact ih.tail (.relog log)

theorem Reaches.sound (h : s.Reaches s') (hs : s.Sound) : s'.Sound :=
  (h.steps hs).sound hs

/-- Every reachable store is sound. -/
theorem Reachable.sound {config : Config} {heap : Heap} (h : Reachable config heap s) :
    s.Sound := by
  obtain ⟨id, s₀, hs₀, hr⟩ := h
  obtain ⟨hc, rfl⟩ := fresh_eq_ok_iff.mp hs₀
  exact hr.sound (sound_init hc id heap)

end Store

end FileTree
