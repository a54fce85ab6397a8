import FileTree.Proofs.Store.Removal
import FileTree.Store.Integrity

/-!
# The tree survives every run

Whatever operations a run performs, and whether they succeed, the store it leads to is one tree
below the root, within the limits of its configuration. The integrity check passes on it, and a
walk from the root visits every entry once.

## Main definitions

* `Store.IsTree`: the store is one tree below the root, within the limits of a configuration

## Main results

* `Store.Sound.isTree`, `Store.Sound.verify_eq_ok`: a sound store is such a tree, and the
  integrity check passes on it
* `Store.isTree_run`: every run from a fresh store leads to such a tree
-/

namespace FileTree.Store

/-- The store is one tree below the root, within the limits of the configuration. -/
structure IsTree (config : Config) (s : Store) : Prop where
  root : ∃ e, s.table.find? .root = some e ∧ e.kind = .directory ∧ e.name = "/" ∧
    e.parent = .root
  /-- Every other entry has a directory as parent, which lists it exactly once. -/
  parent : ∀ ⦃id e⦄, s.table.find? id = some e → id ≠ .root →
    ∃ dir, s.table.find? e.parent = some dir ∧ dir.kind = .directory ∧ dir.children.count id = 1
  /-- Every child is an entry and points back. -/
  children : ∀ ⦃id e child⦄, s.table.find? id = some e → child ∈ e.children →
    ∃ c, s.table.find? child = some c ∧ c.parent = id
  /-- The parent links lead from every entry to the root. -/
  below_root : ∀ ⦃id e⦄, s.table.find? id = some e → s.table.Below .root id
  file_children : ∀ ⦃id e⦄, s.table.find? id = some e → e.kind = .file → e.children = []
  length_children_le : ∀ ⦃id e⦄, s.table.find? id = some e → e.kind = .directory →
    e.children.length ≤ config.maxChildren.toNat
  name_ne_empty : ∀ ⦃id e⦄, s.table.find? id = some e → e.name ≠ ""
  length_name_le : ∀ ⦃id e⦄, s.table.find? id = some e →
    e.name.length ≤ config.maxNameLength.toNat
  size_le_capacity : ∀ ⦃id e⦄, s.table.find? id = some e → e.size ≤ e.capacity
  cursor : ∃ e, s.table.find? s.cursor = some e ∧ e.kind = .directory

variable {s : Store} {id : EntryId} {e : Entry}

theorem Sound.isTree (h : s.Sound) : s.IsTree s.config where
  root := h.linked.root
  parent x ex hx hxr := by
    obtain ⟨dir, hdir, hk, hm⟩ := h.linked.listed hx hxr
    exact ⟨dir, hdir, hk, List.count_eq_one_of_mem (h.linked.nodup_children hdir) hm⟩
  children x ex y hx hy := (h.linked.points_back hx hy).2
  below_root x ex hx := h.linked.below_root hx
  file_children := h.linked.file_children
  length_children_le x ex hx _ := (h.fits hx).length_children_le
  name_ne_empty x ex hx := (h.fits hx).name_ne_empty
  length_name_le x ex hx := (h.fits hx).length_name_le
  size_le_capacity x ex hx := (h.fits hx).size_le_capacity
  cursor := h.cursor

/-- A walk from the root visits every entry once. -/
theorem Sound.exists_walk_root (h : s.Sound) : ∃ order, s.walk .root = .ok order ∧ order.Nodup ∧
    ∀ x, x ∈ order ↔ s.table.isUsed x = true := by
  obtain ⟨order, hwalk, -, hperm⟩ := h.linked.exists_walk_root
  exact ⟨order, hwalk, hperm.nodup_iff.mpr s.table.nodup_ids,
    fun x => hperm.mem_iff.trans Table.mem_ids⟩

/-! ## The integrity check -/

theorem demand_of_true {holds : Bool} (h : holds = true) (detail : String) :
    demand holds detail = none := by
  rw [demand, if_pos h]

theorem Sound.rootFault_eq_none (h : s.Sound) : s.rootFault = none := by
  obtain ⟨r, hr, hk, hn, hp⟩ := h.linked.root
  rw [rootFault, Table.get_of_find? hr]
  refine demand_of_true ?_ _
  simp [Entry.isDirectory, hk, hn, hp]

theorem Sound.childFault_eq_none (h : s.Sound) {child : EntryId}
    (hf : s.table.find? id = some e) (hc : child ∈ e.children) : s.childFault id child = none := by
  obtain ⟨-, c, hcf, hp⟩ := h.linked.points_back hf hc
  simp only [childFault, hcf]
  exact demand_of_true (beq_iff_eq.mpr hp) _

theorem Sound.parentFault_eq_none (h : s.Sound) (hf : s.table.find? id = some e) :
    s.parentFault id e = none := by
  unfold parentFault
  split_ifs with hroot
  · rfl
  have hne : id ≠ .root := fun heq => hroot (id.isRoot_iff.mpr heq)
  obtain ⟨dir, hdir, hk, hcount⟩ := h.isTree.parent hf hne
  simp only [hdir]
  exact demand_of_true (by simp [Entry.isDirectory, hk, hcount]) _

theorem Sound.childrenFaults_eq_none (h : s.Sound) (hf : s.table.find? id = some e) :
    ∀ fault ∈ s.childrenFaults id e, fault = none := by
  unfold childrenFaults
  split_ifs with hdir
  · have hlen := (h.fits hf).length_children_le
    simp only [List.mem_cons, List.mem_map, forall_eq_or_imp, forall_exists_index, and_imp,
      forall_apply_eq_imp_iff₂]
    exact ⟨demand_of_true (decide_eq_true hlen) _, fun child hc => h.childFault_eq_none hf hc⟩
  · simp [demand, h.linked.file_children hf (Entry.kind_eq_file hdir)]

theorem Sound.entryFaults_eq_none (h : s.Sound) (id : EntryId) :
    ∀ fault ∈ s.entryFaults id, fault = none := by
  unfold entryFaults
  split
  · simp
  rename_i e hf
  have hfits := h.fits hf
  intro fault hm
  simp only [List.mem_append, List.mem_cons, List.not_mem_nil, or_false] at hm
  rcases hm with ((rfl | rfl) | hm) | rfl
  · exact demand_of_true (by simp [hfits.name_ne_empty]) _
  · exact demand_of_true (decide_eq_true hfits.size_le_capacity) _
  · exact h.childrenFaults_eq_none hf fault hm
  · exact h.parentFault_eq_none hf

theorem Sound.reachFault_eq_none (h : s.Sound) : s.reachFault = none := by
  obtain ⟨order, hwalk, -, hperm⟩ := h.linked.exists_walk_root
  rw [← walk] at hwalk
  simp only [reachFault, hwalk]
  exact demand_of_true (by rw [h.coherent.size_eq, hperm.length_eq, beq_self_eq_true]) _

theorem Sound.cursorFault_eq_none (h : s.Sound) : s.cursorFault = none := by
  obtain ⟨c, hc, hk⟩ := h.cursor
  rw [cursorFault, Table.get_of_find? hc]
  exact demand_of_true (Entry.isDirectory_iff.mpr hk) _

/-- The integrity check passes on a sound store. -/
theorem Sound.verify_eq_ok (h : s.Sound) : s.verify = .ok () := by
  rw [verify, firstFault_eq_ok_iff]
  intro fault hm
  simp only [List.mem_cons, List.mem_append, List.mem_flatMap, List.not_mem_nil, or_false] at hm
  rcases hm with rfl | ⟨id, -, hm⟩ | rfl | rfl
  · exact h.rootFault_eq_none
  · exact h.entryFaults_eq_none id fault hm
  · exact h.reachFault_eq_none
  · exact h.cursorFault_eq_none

/-! ## Runs -/

/-- **Every run from a fresh store leads to one tree below the root**, within the limits of the
configuration, on which the integrity check passes and a walk from the root visits every entry
once. -/
theorem isTree_run {config : Config} (hc : config.check = .ok ()) (id : StoreId) (heap : Heap)
    (ops : List Operation) :
    ∃ s₀, fresh id config heap = .ok s₀ ∧ (s₀.run ops).IsTree config ∧
      (s₀.run ops).verify = .ok () ∧
      ∃ order, (s₀.run ops).walk .root = .ok order ∧ order.Nodup ∧
        ∀ x, x ∈ order ↔ (s₀.run ops).table.isUsed x = true := by
  have hinit := sound_init hc id heap
  have hreach := reaches_run (init id config heap) ops
  have hsound := hreach.sound hinit
  have hconfig : ((init id config heap).run ops).config = config := (hreach.steps hinit).config_eq
  refine ⟨_, fresh_eq_ok_iff.mpr ⟨hc, rfl⟩, ?_, hsound.verify_eq_ok, hsound.exists_walk_root⟩
  have htree := hsound.isTree
  rwa [hconfig] at htree

/-- A run that deletes the directory in which the cursor stands, and fills the slots again. -/
theorem isTree_run_delete_above_cursor :
    let config : Config := { maxEntries := 4, maxChildren := 2, maxNameLength := 3 }
    let ops : List Operation :=
      [.createDirectory "docs", .changeDirectory ⟨1⟩, .createDirectory "a/b", .changeDirectory ⟨2⟩,
        .createFile "note", .write ⟨3⟩ [1, 2, 3], .delete ⟨1⟩, .createFile "x", .write ⟨1⟩ [7],
        .rename ⟨1⟩ "", .delete ⟨0⟩]
    config.check = .ok () ∧
      ∃ s₀, fresh ⟨0⟩ config { limit := some 4096 } = .ok s₀ ∧ (s₀.run ops).IsTree config ∧
        (s₀.run ops).verify = .ok () ∧
        ∃ order, (s₀.run ops).walk .root = .ok order ∧ order.Nodup ∧
          ∀ x, x ∈ order ↔ (s₀.run ops).table.isUsed x = true :=
  ⟨rfl, isTree_run rfl ⟨0⟩ { limit := some 4096 } _⟩

end FileTree.Store
