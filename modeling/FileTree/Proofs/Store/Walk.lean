import FileTree.Proofs.Store.Removal

/-!
# A walk is the recursive pre-order

A walk keeps a stack of what it has still to visit and counts what it has visited. The pre-order
that it stands for is a recursion: an entry first, then the pre-order of each of its children, one
after the other. In a tree that recursion has one solution only, and a walk from any entry comes
to it before the count runs out.

## Main definitions

* `Table.Recursive`: a list for every entry, made of the lists of its children
* `Table.visited`: what a walk visits
* `Store.Walked`: what a walk from an entry comes to

## Main results

* `Table.Linked.recursive_visited`, `Table.Preorder.eq_flatMap`: the recursion has one solution
* `Table.Preorder.children_sublist`: in a pre-order siblings stand in their order
* `Store.Reachable.exists_walked`: every walk in a reachable store comes to it
-/

namespace FileTree

namespace Table

/-- The list of an entry is the entry followed by the lists of its children, in their order. -/
def Recursive (t : Table) (visit : EntryId → List EntryId) : Prop :=
  ∀ ⦃id e⦄, t.find? id = some e → visit id = id :: e.children.flatMap visit

/-- What a walk from an entry visits. -/
def visited (t : Table) (id : EntryId) : List EntryId :=
  (t.walk id).toOption.getD []

variable {t : Table} {ids order : List EntryId} {id : EntryId} {e : Entry}

/-- A pre-order is what the recursion gives, so the recursion has no other solution. -/
theorem Preorder.eq_flatMap {visit : EntryId → List EntryId} (h : t.Preorder ids order)
    (hv : t.Recursive visit) : order = ids.flatMap visit := by
  induction h with
  | nil => rfl
  | cons hf _ _ ihu iha =>
    rw [List.flatMap_cons, hv hf, ihu, iha, List.cons_append]

theorem Linked.visited_eq (hl : t.Linked) (h : t.Preorder [id] order) : t.visited id = order := by
  rw [visited, hl.walk_eq h]
  rfl

/-- A pre-order falls into what the walks from its entries visit. -/
theorem Linked.eq_flatMap_visited (hl : t.Linked) (h : t.Preorder ids order) :
    order = ids.flatMap t.visited := by
  induction h with
  | nil => rfl
  | @cons id e rest under after hf hu _ _ iha =>
    have hfirst : t.Preorder [id] (id :: (under ++ [])) := .cons hf hu .nil
    rw [List.append_nil] at hfirst
    rw [List.flatMap_cons, hl.visited_eq hfirst, ← iha, List.cons_append]

/-- Walks solve the recursion. -/
theorem Linked.recursive_visited (hl : t.Linked) : t.Recursive t.visited := by
  intro id e hf
  obtain ⟨order, -, ho, -⟩ := hl.exists_walk hf
  rw [hl.visited_eq ho]
  cases ho with
  | cons hf' hu ha =>
    obtain rfl := Option.some.inj (hf'.symm.trans hf)
    cases ha with
    | nil => rw [List.append_nil, hl.eq_flatMap_visited hu]

/-- In a pre-order an entry stands before each of its children. -/
theorem Preorder.pair_sublist {child : EntryId} (h : t.Preorder ids order) (hid : id ∈ order)
    (hf : t.find? id = some e) (hc : child ∈ e.children) : [id, child].Sublist order := by
  obtain ⟨before, later, ho⟩ := List.append_of_mem hid
  have hlater : [child].Sublist later := List.singleton_sublist.mpr (h.children_after ho hf hc)
  rw [ho]
  exact (hlater.cons_cons id).trans (List.sublist_append_right _ _)

/-- A pre-order has the entries that it starts from in their order. -/
theorem Preorder.sublist (h : t.Preorder ids order) : ids.Sublist order := by
  induction h with
  | nil => exact .slnil
  | cons _ _ _ _ iha => exact (iha.trans (List.sublist_append_right _ _)).cons_cons _

/-- In a pre-order the children of an entry stand in their order. -/
theorem Preorder.children_sublist (h : t.Preorder ids order) (hid : id ∈ order)
    (hf : t.find? id = some e) : e.children.Sublist order := by
  induction h with
  | nil => simp at hid
  | @cons first ef rest under after hfirst hu _ ihu iha =>
    rw [List.mem_cons, List.mem_append] at hid
    rcases hid with rfl | hid | hid
    · obtain rfl := Option.some.inj (hf.symm.trans hfirst)
      exact (hu.sublist.trans (List.sublist_append_left _ _)).cons _
    · exact ((ihu hid).trans (List.sublist_append_left _ _)).cons _
    · exact ((iha hid).trans (List.sublist_append_right _ _)).cons _

end Table

namespace Store

/-- What a walk from an entry comes to. -/
structure Walked (s : Store) (id : EntryId) (order : List EntryId) : Prop where
  walk_eq : s.walk id = .ok order
  /-- Whatever solves the recursion gives the same list. -/
  unique : ∀ visit, s.table.Recursive visit → visit id = order
  nodup : order.Nodup
  mem_iff : ∀ x, x ∈ order ↔ s.table.Below id x
  parent_first : ∀ ⦃x e child⦄, x ∈ order → s.table.find? x = some e → child ∈ e.children →
    [x, child].Sublist order
  child_first : ∀ ⦃x e child⦄, x ∈ order → s.table.find? x = some e → child ∈ e.children →
    [child, x].Sublist order.reverse

variable {s : Store} {config : Config} {heap : Heap}

/-- **A walk comes to the recursive pre-order**: the recursion has a solution, which is unique,
and a walk from an entry never gives up and visits what the recursion gives. That is the entry and
everything below it, once, with every parent before its children. -/
theorem Reachable.exists_walked (hs : Reachable config heap s) :
    ∃ visit, s.table.Recursive visit ∧
      ∀ ⦃id e⦄, s.table.find? id = some e → s.Walked id (visit id) := by
  have hl := hs.sound.linked
  refine ⟨s.table.visited, hl.recursive_visited, fun id e hf => ?_⟩
  obtain ⟨order, hwalk, ho, hnd, hmem⟩ := hl.exists_walk hf
  rw [hl.visited_eq ho]
  have hpair : ∀ ⦃x ex child⦄, x ∈ order → s.table.find? x = some ex → child ∈ ex.children →
      [x, child].Sublist order := fun _ _ _ => ho.pair_sublist
  refine ⟨hwalk, fun visit hv => ?_, hnd, hmem, hpair, fun x ex child hx hex hc => ?_⟩
  · rw [ho.eq_flatMap hv, List.flatMap_singleton]
  · exact (hpair hx hex hc).reverse

/-- A directory with a directory and two files in it, one of which stands in a slot that was used
before and so has a smaller number than its older sibling. -/
theorem Reachable.exists_walked_of_reused_slot :
    let s := (init ⟨0⟩ {} {}).run
      [.createFile "x", .createDirectory "a", .createFile "b", .changeDirectory ⟨2⟩,
        .createDirectory "c", .delete ⟨1⟩, .createFile "d"]
    let a : Entry :=
      { name := "a", kind := .directory, parent := .root, children := [⟨4⟩, ⟨1⟩] }
    (Reachable {} {} s ∧ s.table.find? ⟨2⟩ = some a ∧
      s.walk .root = .ok [.root, ⟨2⟩, ⟨4⟩, ⟨1⟩, ⟨3⟩]) ∧
      ∃ visit, s.table.Recursive visit ∧ s.Walked ⟨2⟩ (visit ⟨2⟩) := by
  intro s a
  have hs : Reachable {} {} s := reachable_run rfl ⟨0⟩ {} _
  have ha : s.table.find? ⟨2⟩ = some a := by decide +kernel
  obtain ⟨visit, hvisit, hwalked⟩ := hs.exists_walked
  exact ⟨⟨hs, ha, by decide +kernel⟩, visit, hvisit, hwalked ha⟩

end Store

end FileTree
