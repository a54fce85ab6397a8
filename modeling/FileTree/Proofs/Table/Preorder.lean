import FileTree.Proofs.Table.Tree
import FileTree.Traversal
import Mathlib.Data.Finset.Lattice.Fold

/-!
# The pre-order of a tree

The pre-order of some entries visits each of them, then what is below it, then the entries after
it. In a table whose links form a tree every list of entries has a pre-order, and a walk, which
keeps a stack instead of recursing, finds it and never gives up.

## Main definitions

* `Table.Preorder`: the pre-order, as a relation between entries and the entries visited

## Main results

* `Table.Preorder.walkFrom_append`: a walk visits the pre-order of its stack
* `Table.Preorder.mem_iff`: the pre-order visits what is below the given entries
* `Table.Preorder.children_after`: children come after their parent
* `Table.Linked.exists_walk`: a walk from an entry visits everything below it once
* `Table.Linked.exists_walk_root`: a walk from the root visits every entry once
-/

namespace FileTree.Table

/-- The pre-order of a list of entries: each is followed by the pre-order of its children. -/
inductive Preorder (t : Table) : List EntryId → List EntryId → Prop
  | nil : Preorder t [] []
  | cons {id : EntryId} {e : Entry} {rest under after : List EntryId} :
      t.find? id = some e → Preorder t e.children under → Preorder t rest after →
      Preorder t (id :: rest) (id :: (under ++ after))

variable {t : Table} {ids order : List EntryId} {id : EntryId} {e : Entry}

namespace Preorder

theorem subset (h : t.Preorder ids order) : ids ⊆ order := by
  induction h with
  | nil => exact fun _ h => h
  | cons _ _ _ _ ihr =>
    rw [List.cons_subset]
    exact ⟨by simp, fun x hx => by simp [ihr hx]⟩

/-- Everything visited is an entry. -/
theorem isUsed (h : t.Preorder ids order) {x : EntryId} (hx : x ∈ order) :
    t.isUsed x = true := by
  induction h with
  | nil => simp at hx
  | cons hf _ _ ihu iha =>
    rw [List.mem_cons, List.mem_append] at hx
    rcases hx with rfl | hx | hx
    · exact isUsed_of_find? hf
    · exact ihu hx
    · exact iha hx

/-- A walk visits the pre-order of the top of its stack first. -/
theorem walkFrom_append (h : t.Preorder ids order) (start : EntryId) (room : Nat)
    (stack : List EntryId) :
    t.walkFrom start (order.length + room) (ids ++ stack) =
      (t.walkFrom start room stack).map (order ++ ·) := by
  induction h generalizing room stack with
  | nil =>
    simp only [List.length_nil, Nat.zero_add, List.nil_append]
    cases t.walkFrom start room stack <;> rfl
  | @cons id e rest under after hf _ _ ihu iha =>
    have hroom : (id :: (under ++ after)).length + room =
        (under.length + (after.length + room)) + 1 := by
      simp only [List.length_cons, List.length_append]
      omega
    -- One step pops the entry and pushes its children, which are walked before the rest.
    rw [hroom, List.cons_append, walkFrom, get_of_find? hf]
    simp only [ihu, iha]
    cases t.walkFrom start room stack <;> simp [Except.map]

/-- A walk with enough room visits the pre-order of its stack. -/
theorem walkFrom_eq (h : t.Preorder ids order) (start : EntryId) {room : Nat}
    (hroom : order.length ≤ room) : t.walkFrom start room ids = .ok order := by
  have := h.walkFrom_append start (room - order.length) []
  rw [List.append_nil, Nat.add_sub_cancel' hroom] at this
  rw [this]
  cases room - order.length <;> simp [walkFrom, Except.map]

/-- Children come after their parent. -/
theorem children_after (h : t.Preorder ids order) {before later : List EntryId} {p : EntryId}
    {ep : Entry} (ho : order = before ++ p :: later) (hf : t.find? p = some ep) :
    ep.children ⊆ later := by
  induction h generalizing before later with
  | nil => simp at ho
  | @cons id e rest under after hid hu ha ihu iha =>
    cases before with
    | nil =>
      obtain ⟨rfl, rfl⟩ := List.cons.inj ho
      obtain rfl := Option.some.inj (hf.symm.trans hid)
      exact fun x hx => List.mem_append_left _ (hu.subset hx)
    | cons y before =>
      rcases List.append_eq_append_iff.mp (List.cons.inj ho).2 with ⟨mid, -, ho⟩ | ⟨mid, ho', ho⟩
      · exact iha ho
      · cases mid with
        | nil => exact iha (ho.symm.trans (List.nil_append _).symm)
        | cons z mid =>
          obtain ⟨rfl, rfl⟩ := List.cons.inj ho
          exact fun x hx => List.mem_append_left _ (ihu ho' hx)

variable (hl : t.Linked)

include hl

/-- The pre-order visits what is below the given entries. -/
theorem mem_iff (h : t.Preorder ids order) {x : EntryId} :
    x ∈ order ↔ ∃ id ∈ ids, t.Below id x := by
  induction h with
  | nil => simp
  | cons hf _ _ ihu iha =>
    rw [List.mem_cons, List.mem_append, ihu, iha, List.exists_mem_cons_iff, hl.below_iff hf,
      or_assoc]

/-- Nothing is visited twice, if no given entry is below another one. -/
theorem nodup (h : t.Preorder ids order)
    (hd : ids.Pairwise fun a b => ¬ t.Below a b ∧ ¬ t.Below b a) : order.Nodup := by
  induction h with
  | nil => exact List.nodup_nil
  | @cons id e rest under after hf hu ha ihu iha =>
    obtain ⟨hid, hrest⟩ := List.pairwise_cons.mp hd
    have hchildren : e.children.Pairwise fun a b => ¬ t.Below a b ∧ ¬ t.Below b a :=
      (hl.nodup_children hf).imp_of_mem fun {x y} hx hy hne =>
        ⟨fun hb => hne (hl.eq_of_below_children hf hx hy hb),
          fun hb => hne (hl.eq_of_below_children hf hy hx hb).symm⟩
    rw [List.nodup_cons, List.mem_append, List.nodup_append]
    refine ⟨?_, ihu hchildren, iha hrest, ?_⟩
    · rintro (hm | hm)
      · obtain ⟨child, hc, hb⟩ := (hu.mem_iff hl).mp hm
        obtain rfl := hl.below_antisymm hb (hl.below_child hf hc)
        exact hl.ne_of_mem_children hf hc rfl
      · obtain ⟨y, hy, hb⟩ := (ha.mem_iff hl).mp hm
        exact (hid y hy).2 hb
    · -- Something visited twice would be below that entry and below a later one.
      rintro x hxu y hya rfl
      obtain ⟨child, hc, hb⟩ := (hu.mem_iff hl).mp hxu
      obtain ⟨z, hz, hb'⟩ := (ha.mem_iff hl).mp hya
      rcases ((hl.below_child hf hc).trans hb).linear hb' with hlt | hlt
      · exact (hid z hz).1 hlt
      · exact (hid z hz).2 hlt

end Preorder

namespace Linked

variable (h : t.Linked)

include h

/-- The ranks of the entries of a table are bounded. -/
theorem exists_bounded_rank : ∃ (rank : EntryId → Nat) (bound : Nat),
    (∀ ⦃id e⦄, t.find? id = some e → rank id ≤ bound) ∧
      ∀ ⦃a b⦄, t.Below a b → a ≠ b → rank a < rank b := by
  obtain ⟨rank, hrank⟩ := h.exists_rank
  refine ⟨rank, t.ids.toFinset.sup rank, fun id e hf => ?_, hrank⟩
  have hmem : id ∈ t.ids.toFinset := List.mem_toFinset.mpr (mem_ids.mpr (isUsed_of_find? hf))
  show rank id ≤ _
  exact Finset.le_sup hmem

/-- Every list of entries has a pre-order. -/
theorem exists_preorder (hids : ∀ id ∈ ids, t.isUsed id = true) :
    ∃ order, t.Preorder ids order := by
  obtain ⟨rank, bound, hbound, hrank⟩ := h.exists_bounded_rank
  -- The recursion goes down the tree, where the rank grows towards its bound.
  have key : ∀ (n : Nat) (ids : List EntryId),
      (∀ id ∈ ids, t.isUsed id = true ∧ bound < rank id + n) → ∃ order, t.Preorder ids order := by
    intro n
    induction n with
    | zero =>
      intro ids hids
      cases ids with
      | nil => exact ⟨[], .nil⟩
      | cons id rest =>
        obtain ⟨hu, hlt⟩ := hids id (by simp)
        obtain ⟨e, hf⟩ := isUsed_iff.mp hu
        have := hbound hf
        omega
    | succ n ihn =>
      intro ids hids
      induction ids with
      | nil => exact ⟨[], .nil⟩
      | cons id rest ihr =>
        obtain ⟨hu, hlt⟩ := hids id (by simp)
        obtain ⟨e, hf⟩ := isUsed_iff.mp hu
        obtain ⟨under, hunder⟩ := ihn e.children fun child hc => by
          obtain ⟨-, c, hcf, -⟩ := h.points_back hf hc
          have := hrank (h.below_child hf hc) (h.ne_of_mem_children hf hc).symm
          exact ⟨isUsed_of_find? hcf, by omega⟩
        obtain ⟨after, hafter⟩ := ihr fun x hx => hids x (by simp [hx])
        exact ⟨_, .cons hf hunder hafter⟩
  exact key (bound + 1) ids fun id hid => ⟨hids id hid, by omega⟩

/-- A walk from an entry visits its pre-order, and does not run out of room. -/
theorem walk_eq (ho : t.Preorder [id] order) : t.walk id = .ok order := by
  have hsub : order ⊆ t.ids := fun x hx => mem_ids.mpr (ho.isUsed hx)
  have hlen : order.length ≤ t.capacity :=
    calc order.length
      _ ≤ t.ids.length := ((ho.nodup h (List.pairwise_singleton _ _)).subperm hsub).length_le
      _ ≤ ((List.range t.slots.size).map EntryId.mk).length := List.length_filter_le _ _
      _ = t.capacity := by simp [capacity]
  exact ho.walkFrom_eq id hlen

/-- A walk from an entry visits everything below it once, in pre-order. -/
theorem exists_walk (hf : t.find? id = some e) :
    ∃ order, t.walk id = .ok order ∧ t.Preorder [id] order ∧ order.Nodup ∧
      ∀ x, x ∈ order ↔ t.Below id x := by
  have hids : ∀ x ∈ [id], t.isUsed x = true := by
    intro x hx
    exact List.mem_singleton.mp hx ▸ isUsed_of_find? hf
  obtain ⟨order, ho⟩ := h.exists_preorder hids
  exact ⟨order, h.walk_eq ho, ho, ho.nodup h (List.pairwise_singleton _ _),
    fun x => by simp [ho.mem_iff h]⟩

/-- A walk from the root visits every entry once. -/
theorem exists_walk_root : ∃ order, t.walk .root = .ok order ∧ t.Preorder [.root] order ∧
    order.Perm t.ids := by
  obtain ⟨r, hr, -⟩ := h.root
  obtain ⟨order, hwalk, ho, hnd, hmem⟩ := h.exists_walk hr
  refine ⟨order, hwalk, ho, (List.perm_ext_iff_of_nodup hnd t.nodup_ids).mpr fun x => ?_⟩
  rw [hmem, mem_ids, isUsed_iff]
  exact ⟨Below.exists_entry, fun ⟨ex, hx⟩ => h.below_root hx⟩

end Linked

end FileTree.Table
