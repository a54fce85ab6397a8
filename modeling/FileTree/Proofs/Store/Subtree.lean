import FileTree.Proofs.Store.Removal

/-!
# What a deletion leaves

A deletion takes out an entry and everything below it, and nothing else: the slots become free and
advance by one generation, one directory loses one child, and the cursor comes back to the root if
it stood in the subtree. Nothing can go wrong on the way, whatever the heap does with the buffers.

## Main definitions

* `Store.Without`: a store is another one without some entries

## Main results

* `Store.Prunes.ids_perm`, `Store.Prunes.size_eq`, `Store.Prunes.cursor_eq`: what is left when
  entries are taken out
* `Table.Linked.eq_of_child_below`: a subtree is listed from outside at its top only
* `Table.Linked.dropChildren_parent`, `Table.Linked.dropChildren_other`: one list gets shorter
* `Store.Sound.exists_delete_eq`: a deletion takes out the subtree
* `Store.Reachable.delete_subtree`: what a deletion does, whatever is asked for
-/

namespace FileTree

namespace Table

variable {t : Table} {id x : EntryId} {e d : Entry} {gone : List EntryId}

/-- An entry is not below its children, so its parent is not below it. -/
theorem Linked.not_below_parent (h : t.Linked) (hf : t.find? id = some e) (hid : id ≠ .root) :
    ¬ t.Below id e.parent := by
  intro hb
  obtain ⟨dir, hdir, -, hm⟩ := h.listed hf hid
  exact h.ne_of_mem_children hdir hm (h.below_antisymm hb (h.below_child hdir hm))

/-- Of what is below an entry, only the entry itself is listed from outside. -/
theorem Linked.eq_of_child_below (h : t.Linked) {y : EntryId} (hx : t.find? x = some d)
    (hy : y ∈ d.children) (hb : t.Below id y) (hnot : ¬ t.Below id x) : y = id := by
  cases hb with
  | self _ => rfl
  | step hf hb =>
    obtain ⟨-, c, hc, hp⟩ := h.points_back hx hy
    obtain rfl := Option.some.inj (hf.symm.trans hc)
    exact absurd (hp ▸ hb) hnot

section Gone

variable (hgone : ∀ x, x ∈ gone ↔ t.Below id x)

include hgone

/-- Without a subtree, the list of its parent lacks the entry at the top. -/
theorem Linked.dropChildren_parent (h : t.Linked) (hf : t.find? id = some e) (hid : id ≠ .root)
    (hd : t.find? e.parent = some d) :
    d.dropChildren gone = { d with children := d.children.erase id } := by
  have hkeep : ∀ y ∈ d.children, decide (y ∉ gone) = (y != id) := by
    intro y hy
    rw [Bool.eq_iff_iff, decide_eq_true_eq, bne_iff_ne]
    constructor
    · rintro hnot rfl
      exact hnot ((hgone y).mpr (.self hf))
    · intro hne hm
      exact hne (h.eq_of_child_below hd hy ((hgone y).mp hm) (h.not_below_parent hf hid))
  rw [Entry.dropChildren, (h.nodup_children hd).erase_eq_filter, List.filter_congr hkeep]

/-- Every other list is as it was. -/
theorem Linked.dropChildren_other (h : t.Linked) (hf : t.find? id = some e)
    (hd : t.find? x = some d) (hx : x ∉ gone) (hne : x ≠ e.parent) :
    d.dropChildren gone = d := by
  have hkeep : ∀ y ∈ d.children, decide (y ∉ gone) = true := by
    intro y hy
    rw [decide_eq_true_eq]
    intro hm
    obtain rfl := h.eq_of_child_below hd hy ((hgone y).mp hm) fun hb => hx ((hgone x).mpr hb)
    obtain ⟨-, c, hc, hp⟩ := h.points_back hd hy
    obtain rfl := Option.some.inj (hc.symm.trans hf)
    exact hne hp.symm
  rw [Entry.dropChildren, List.filter_eq_self.mpr hkeep]

end Gone

end Table

namespace Store

variable {s s' : Store} {id dir : EntryId} {e : Entry} {gone victims : List EntryId}

/-- The cursor is back at the root if it stood at an entry that was taken out. -/
theorem Prunes.cursor_eq (h : s.Prunes victims s') :
    s'.cursor = if s.cursor ∈ victims then .root else s.cursor := by
  induction h with
  | nil => simp
  | @cons s s' id e rest log _ _ _ ih =>
    rw [ih]
    change (if (if s.cursor = id then .root else s.cursor) ∈ rest then _
      else if s.cursor = id then .root else s.cursor) = _
    by_cases hcur : s.cursor = id
    · simp [hcur]
    · simp [hcur]

theorem Prunes.id_eq (h : s.Prunes victims s') : s'.id = s.id := by
  induction h with
  | nil => rfl
  | cons _ _ _ ih => exact ih

theorem Prunes.size_slots (h : s.Prunes victims s') :
    s'.table.slots.size = s.table.slots.size := by
  induction h with
  | nil => rfl
  | cons _ _ _ ih => exact ih.trans (Table.size_slots_detach _ _ _)

/-- The entries that are left, together with those taken out, are the entries that there were. -/
theorem Prunes.ids_perm (h : s.Prunes victims s') (hs : s.Sound)
    (hv : s.table.Removable victims) :
    (s'.table.ids ++ victims).Perm s.table.ids := by
  have hnd : (s'.table.ids ++ victims).Nodup := by
    refine List.nodup_append.mpr ⟨s'.table.nodup_ids, hv.nodup, ?_⟩
    rintro x hx y hy rfl
    exact ((h.isUsed_iff hs x).mp (Table.mem_ids.mp hx)).2 hy
  refine (List.perm_ext_iff_of_nodup hnd s.table.nodup_ids).mpr fun x => ?_
  rw [List.mem_append, Table.mem_ids, Table.mem_ids, h.isUsed_iff hs]
  constructor
  · rintro (⟨hx, -⟩ | hx)
    · exact hx
    · exact hv.used x hx
  · intro hx
    by_cases hm : x ∈ victims
    · exact .inr hm
    · exact .inl ⟨hx, hm⟩

/-- What was taken out is missing from the number of entries. -/
theorem Prunes.size_eq (h : s.Prunes victims s') (hs : s.Sound)
    (hv : s.table.Removable victims) : s'.table.size + victims.length = s.table.size := by
  have hs' := h.steps.sound hs
  have hlen := (h.ids_perm hs hv).length_eq
  rw [List.length_append] at hlen
  rw [hs.coherent.size_eq, hs'.coherent.size_eq, hlen]

/-- The slots of what was taken out have become free, and no others. -/
theorem Prunes.mem_free_iff (h : s.Prunes victims s') (hs : s.Sound)
    (hv : s.table.Removable victims) (i : Nat) :
    i ∈ s'.table.free ↔ i ∈ s.table.free ∨ ⟨i⟩ ∈ victims := by
  rw [(h.steps.sound hs).coherent.mem_free, hs.coherent.mem_free, h.size_slots, h.find? hs]
  by_cases hi : (⟨i⟩ : EntryId) ∈ victims
  · obtain ⟨ex, hex⟩ := Table.isUsed_iff.mp (hv.used _ hi)
    simp [hi, Table.index_lt_of_find? hex]
  · simp [hi]

/-- The store is another one without the entries `gone`. Of these only `id` was listed by an entry
that stays, the directory `dir`. -/
structure Without (s : Store) (id dir : EntryId) (gone : List EntryId) (s' : Store) : Prop where
  /-- The slots of the entries are free, and can be filled again. -/
  mem_free_iff : ∀ i, i ∈ s'.table.free ↔ i ∈ s.table.free ∨ ⟨i⟩ ∈ gone
  ascending : s'.table.free.Pairwise (· < ·)
  capacity_eq : s'.table.capacity = s.table.capacity
  size_add_length : s'.table.size + gone.length = s.table.size
  isUsed_iff : ∀ x, s'.table.isUsed x = true ↔ s.table.isUsed x = true ∧ x ∉ gone
  /-- Their slots advance by one generation, modulo 2³², and no others. -/
  generationAt_eq : ∀ x, s'.table.generationAt x =
    if x ∈ gone then s.table.generationAt x + 1 else s.table.generationAt x
  /-- What stays has lost at most children, and keeps the others in their order. -/
  find?_eq : ∀ ⦃x e⦄, x ∉ gone → s.table.find? x = some e →
    s'.table.find? x = some { e with children := e.children.filter (· ∉ gone) }
  /-- One directory has lost one child. -/
  find?_dir : ∃ d, s.table.find? dir = some d ∧ dir ∉ gone ∧ id ∈ d.children ∧
    s'.table.find? dir = some { d with children := d.children.erase id }
  find?_other : ∀ x, x ∉ gone → x ≠ dir → s'.table.find? x = s.table.find? x
  cursor_eq : s'.cursor = if s.cursor ∈ gone then .root else s.cursor
  id_eq : s'.id = s.id
  config_eq : s'.config = s.config

theorem Without.withLog (h : s.Without id dir gone s') (log : Log) :
    s.Without id dir gone { s' with log := log } :=
  { h with }

/-- Entries taken out are missing, and nothing else. -/
theorem Prunes.without (h : s.Prunes victims s') (hs : s.Sound)
    (hv : s.table.Removable victims) (hf : s.table.find? id = some e) (hid : id ≠ .root)
    (hmem : ∀ x, x ∈ victims ↔ s.table.Below id x) : s.Without id e.parent victims s' := by
  have hl := hs.linked
  have hleft : ∀ ⦃x d⦄, x ∉ victims → s.table.find? x = some d →
      s'.table.find? x = some (d.dropChildren victims) := by
    intro x d hx hd
    rw [h.find? hs, if_neg hx, hd, Option.map_some]
  obtain ⟨d, hd, -, hlisted⟩ := hl.listed hf hid
  have hdir : e.parent ∉ victims := fun hm => hl.not_below_parent hf hid ((hmem _).mp hm)
  refine {
    mem_free_iff := h.mem_free_iff hs hv
    ascending := (h.steps.sound hs).coherent.ascending
    capacity_eq := h.size_slots
    size_add_length := h.size_eq hs hv
    isUsed_iff := h.isUsed_iff hs
    generationAt_eq := h.generationAt hv.nodup
    find?_eq := hleft
    find?_dir := ⟨d, hd, hdir, hlisted, ?_⟩
    find?_other := fun x hx hne => ?_
    cursor_eq := h.cursor_eq
    id_eq := h.id_eq
    config_eq := h.steps.config_eq }
  · rw [hleft hdir hd, hl.dropChildren_parent hmem hf hid hd]
  · cases hfx : s.table.find? x with
    | none => rw [h.find? hs, if_neg hx, hfx, Option.map_none]
    | some ex => rw [hleft hx hfx, hl.dropChildren_other hmem hf hfx hx hne]

/-- **A deletion takes out an entry and everything below it.** -/
theorem Sound.exists_delete_eq (hs : s.Sound) (hf : s.table.find? id = some e) (hid : id ≠ .root) :
    ∃ gone s', s.delete id = (.ok gone.length, s') ∧ gone.Nodup ∧
      (∀ x, x ∈ gone ↔ s.table.Below id x) ∧ s.Without id e.parent gone s' := by
  have h := hs.deleted_delete id
  generalize s.delete id = outcome at h ⊢
  cases h with
  | refused hnone =>
    rw [hnone hid] at hf
    cases hf
  | @deleted _ order s' log _ _ _ hpre _ hp =>
    have hv := hpre.removable_reverse hs.linked hid
    have hmem : ∀ x, x ∈ order.reverse ↔ s.table.Below id x := fun x => by
      rw [List.mem_reverse, hpre.mem_iff hs.linked]
      simp
    have hw := (hp.without hs hv hf hid hmem).withLog log
    exact ⟨order.reverse, _, by rw [List.length_reverse], hv.nodup, hmem, hw⟩

theorem delete_root (s : Store) : s.delete .root = (.error .cannotDeleteRoot, s) := rfl

/-- What is no entry is refused by its identifier. -/
theorem delete_of_find?_eq_none (hid : id ≠ .root) (h : s.table.find? id = none) :
    s.delete id = (.error (.invalidId id), s) := by
  have hroot : ¬ id.isRoot = true := fun heq => hid (id.isRoot_iff.mp heq)
  rw [delete, if_neg hroot, Table.get_eq_error_iff.mpr ⟨h, rfl⟩]

/-- **What a deletion does, whatever is asked for**: an entry other than the root goes with
everything below it, also when the heap takes no buffer back, and the answer is how many entries
went. The root and what is no entry are refused, and nothing changes. -/
theorem Reachable.delete_subtree {config : Config} {heap : Heap} (hs : Reachable config heap s)
    (id : EntryId) :
    (∀ e, s.table.find? id = some e → id ≠ .root →
      ∃ gone s', s.delete id = (.ok gone.length, s') ∧ gone.Nodup ∧
        (∀ x, x ∈ gone ↔ s.table.Below id x) ∧ s.Without id e.parent gone s') ∧
    (id = .root → s.delete id = (.error .cannotDeleteRoot, s)) ∧
    (s.table.find? id = none → s.delete id = (.error (.invalidId id), s)) := by
  refine ⟨fun e hf hid => hs.sound.exists_delete_eq hf hid, ?_, fun hnone => ?_⟩
  · rintro rfl
    exact s.delete_root
  · refine delete_of_find?_eq_none ?_ hnone
    rintro rfl
    obtain ⟨r, hr, -⟩ := hs.sound.linked.root
    rw [hr] at hnone
    cases hnone

/-- The cursor stands two levels down in the directory that goes, the heap refuses every buffer, and
a slot was used before; a file next to the directory stays. -/
theorem Reachable.delete_subtree_of_refusing_heap :
    let config : Config := { maxEntries := 6, writeSlack := 2 }
    let heap : Heap := { refusesReleases := true }
    let s := (init ⟨0⟩ config heap).run [.createFile "old", .delete ⟨1⟩, .createDirectory "a",
      .createFile "b", .changeDirectory ⟨1⟩, .createFile "x", .write ⟨3⟩ [1, 2],
      .createDirectory "d", .changeDirectory ⟨4⟩, .createFile "y"]
    let e : Entry := { name := "a", kind := .directory, parent := .root, children := [⟨3⟩, ⟨4⟩] }
    (Reachable config heap s ∧ s.table.find? ⟨1⟩ = some e ∧ s.table.find? ⟨9⟩ = none ∧
      s.cursor = ⟨4⟩ ∧ (s.delete ⟨1⟩).1 = .ok 4 ∧ (s.delete ⟨1⟩).2.cursor = .root) ∧
      (∃ gone s', s.delete ⟨1⟩ = (.ok gone.length, s') ∧ gone.Nodup ∧
        (∀ x, x ∈ gone ↔ s.table.Below ⟨1⟩ x) ∧ s.Without ⟨1⟩ .root gone s') ∧
      s.delete .root = (.error .cannotDeleteRoot, s) ∧
      s.delete ⟨9⟩ = (.error (.invalidId ⟨9⟩), s) := by
  intro config heap s e
  have hs : Reachable config heap s := reachable_run rfl ⟨0⟩ heap _
  have hf : s.table.find? ⟨1⟩ = some e := by decide +kernel
  have hnone : s.table.find? ⟨9⟩ = none := by decide +kernel
  have hcursor : s.cursor = ⟨4⟩ := by decide +kernel
  have hcount : (s.delete ⟨1⟩).1 = .ok 4 := by decide +kernel
  have hback : (s.delete ⟨1⟩).2.cursor = .root := by decide +kernel
  exact ⟨⟨hs, hf, hnone, hcursor, hcount, hback⟩,
    (hs.delete_subtree ⟨1⟩).1 e hf (by decide), (hs.delete_subtree .root).2.1 rfl,
    (hs.delete_subtree ⟨9⟩).2.2 hnone⟩

end Store

end FileTree
