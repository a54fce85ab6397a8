import FileTree.Proofs.ByPath.Listing
import FileTree.Proofs.Store.Naming
import FileTree.Proofs.Store.Subtree
import FileTree.Proofs.Table.Space

/-!
# The space below an entry

The space that is found out about an entry is that of everything below it, each entry once. So it
adds up over the children of a directory, and below the root it counts every entry of the store.
Taking out an entry answers how many entries were counted below it, and what is found below the root
afterwards is less by just their space.

## Main definitions

* `ByPath.Accounted`: the space that is found out about an entry is accounted for

## Main results

* `ByPath.usageOf_eq`: the space below an entry is that of its pre-order
* `Store.Prunes.space_eq`, `Store.Prunes.space_add`: the space of what is left when entries are
  taken out
* `ByPath.exists_remove`: an entry other than the root is taken out with everything below it
* `ByPath.exists_accounted`: the space found out about every entry of a reachable store is
  accounted for
-/

namespace FileTree

/-! ## What is left when entries are taken out -/

namespace Store.Prunes

variable {s s' : Store} {victims ids : List EntryId} (h : s.Prunes victims s') (hs : s.Sound)

include h hs

/-- What is left takes the space that it took before. -/
theorem space_eq (hids : ∀ x ∈ ids, x ∉ victims) : s'.table.space ids = s.table.space ids := by
  have hfind : ∀ x ∈ ids, s'.table.find? x = (s.table.find? x).map (·.dropChildren victims) :=
    fun x hx => by rw [h.find? hs, if_neg (hids x hx)]
  refine Table.space_congr (fun x hx => ?_) fun x hx => ?_
  · rw [Table.kindAt, hfind x hx, Option.map_map]
    rfl
  · rw [Table.sizeAt, hfind x hx, Option.map_map]
    rfl

/-- The space of the entries that are left and of those taken out is that of the entries that there
were. -/
theorem space_add (hv : s.table.Removable victims) :
    s'.table.space s'.table.ids + s.table.space victims = s.table.space s.table.ids := by
  have hleft : ∀ x ∈ s'.table.ids, x ∉ victims := fun x hx =>
    ((h.isUsed_iff hs x).mp (Table.mem_ids.mp hx)).2
  rw [h.space_eq hs hleft, ← Table.space_append, Table.space_perm (h.ids_perm hs hv)]

end Store.Prunes

namespace ByPath

variable {s : Store} {id : EntryId} {e : Entry} {path : String} {order : List EntryId}

/-! ## The space below an entry -/

/-- The empty path is not a case of its own: followed, it leads to the current directory. -/
theorem target_eq_resolve (hs : s.Sound) (path : String) : target s path = s.resolve path := by
  unfold target
  split_ifs with hempty
  · obtain rfl := String.isEmpty_iff.mp hempty
    exact (hs.resolve_eq "").symm
  · rfl

/-- Paths find out the space below the entries that they lead to. -/
theorem usage_of_resolve (hs : s.Sound) (hp : s.resolve path = .ok id) :
    usage s path = lift (usageOf s id) := by
  simp only [usage, target_eq_resolve hs, hp]

/-- The space below an entry is that of its pre-order. -/
theorem usageOf_eq (hs : s.Sound) (ho : s.table.Preorder [id] order) :
    usageOf s id = .ok (s.table.space order) := by
  obtain ⟨found, hread, hids, hfound⟩ := exists_entries fun x hx => ho.isUsed hx
  have hwalk : s.walk id = .ok order := hs.linked.walk_eq ho
  have hsum := Table.foldl_add hfound 0
  rw [hids, zero_add] at hsum
  simp only [usageOf, hwalk, hread]
  exact congrArg _ hsum

/-- The space below a directory is that of the directory, and of what is below its children. -/
theorem exists_parts (hs : s.Sound) (ho : s.table.Preorder [id] order)
    (hf : s.table.find? id = some e) :
    ∃ parts, List.Forall₂ (fun child part => usageOf s child = .ok part) e.children parts ∧
      s.table.space order = e.usage + parts.sum := by
  obtain ⟨parts, hparts, hsum⟩ := ho.space_eq hf
  refine ⟨parts.map s.table.space, ?_, hsum⟩
  rw [List.forall₂_map_right_iff]
  exact hparts.imp fun _ _ hpart => usageOf_eq hs hpart

/-- Below the root every entry is found. -/
theorem usage_root (hs : s.Sound) : usage s "/" = .ok (s.table.space s.table.ids) := by
  obtain ⟨order, -, ho, hperm⟩ := hs.linked.exists_walk_root
  have hroot : s.resolve "/" = .ok .root := hs.resolve_eq "/"
  rw [usage_of_resolve hs hroot, usageOf_eq hs ho, Table.space_perm hperm]
  rfl

/-- An entry other than the root is taken out with everything below it. -/
theorem exists_remove (hs : s.Sound) (hp : s.resolve path = .ok id)
    (hf : s.table.find? id = some e) (hid : id ≠ .root) :
    ∃ order s' log, s.table.Preorder [id] order ∧ s.Prunes order.reverse s' ∧
      remove s path = (.ok order.length, { s' with log := log }) := by
  have hdeleted := hs.deleted_delete id
  simp only [remove, hp]
  generalize s.delete id = outcome at hdeleted ⊢
  cases hdeleted with
  | refused hnone =>
    rw [hnone hid] at hf
    cases hf
  | deleted _ _ _ ho _ hprunes => exact ⟨_, _, _, ho, hprunes, rfl⟩

/-! ## Accounts of a store -/

/-- The space `u` that is found out about an entry under a path is accounted for. -/
structure Accounted (s : Store) (path : String) (id : EntryId) (e : Entry) (u : Usage) : Prop where
  /-- It is the space of everything below the entry, and of each once. -/
  subtree : ∃ below, below.Nodup ∧ (∀ x, x ∈ below ↔ s.table.Below id x) ∧
    u = s.table.space below
  /-- It is the space of the directory, and what is found out about each of its children. -/
  children : e.kind = .directory → ∃ parts,
    List.Forall₂ (fun child part => usageOf s child = .ok part ∧
      ∀ path, s.resolve path = .ok child → usage s path = .ok part) e.children parts ∧
    u = { directories := 1 } + parts.sum
  /-- What is found out about the root counts the entries of the store. -/
  root : ∃ v, usage s "/" = .ok v ∧ v.files + v.directories = s.table.size
  /-- Taking out the entry takes out what was counted, and gives just its space back. -/
  removed : id ≠ .root → (remove s path).1 = .ok (u.files + u.directories) ∧
    ∃ v w, usage s "/" = .ok v ∧ usage (remove s path).2 "/" = .ok w ∧ w + u = v

/-- Taking out an entry other than the root gives back the space below it. -/
theorem removed_of_usageOf (hs : s.Sound) (hp : s.resolve path = .ok id)
    (hf : s.table.find? id = some e) {u : Usage} (hu : usageOf s id = .ok u) (hid : id ≠ .root) :
    (remove s path).1 = .ok (u.files + u.directories) ∧
      ∃ v w, usage s "/" = .ok v ∧ usage (remove s path).2 "/" = .ok w ∧ w + u = v := by
  obtain ⟨order, s', log, ho, hprunes, hremove⟩ := exists_remove hs hp hf hid
  obtain rfl := Except.ok.inj (hu.symm.trans (usageOf_eq hs ho))
  have hs' : { s' with log := log }.Sound := (Store.Step.relog log).sound (hprunes.steps.sound hs)
  -- The entries are taken out in the reverse of the order in which they were counted.
  have hsum := hprunes.space_add hs (ho.removable_reverse hs.linked hid)
  rw [Table.space_perm order.reverse_perm] at hsum
  rw [hremove, Table.files_add_directories_space fun x hx => ho.isUsed hx]
  exact ⟨rfl, _, _, usage_root hs, usage_root hs', hsum⟩

/-- **The space that is found out about every entry of a reachable store is accounted for**: each
entry below it counts once, it adds up over the children of a directory, and taking the entry out
gives it back. -/
theorem exists_accounted {config : Config} {heap : Heap} (h : Store.Reachable config heap s)
    (hp : s.resolve path = .ok id) :
    ∃ e u, s.table.find? id = some e ∧ usage s path = .ok u ∧ Accounted s path id e u := by
  have hs := h.sound
  obtain ⟨e, hf⟩ := ((hs.resolve_eq_ok_iff h.distinctNames).mp hp).exists_target
  obtain ⟨order, -, ho, hnd, hmem⟩ := hs.linked.exists_walk hf
  have hu := usageOf_eq hs ho
  have husage : ∀ {q x u}, s.resolve q = .ok x → usageOf s x = .ok u → usage s q = .ok u := by
    intro q x u hq hx
    rw [usage_of_resolve hs hq, hx, lift]
  refine ⟨e, _, hf, husage hp hu, ⟨order, hnd, hmem, rfl⟩, fun hk => ?_,
    ⟨_, usage_root hs, ?_⟩, removed_of_usageOf hs hp hf hu⟩
  · obtain ⟨parts, hparts, hsum⟩ := exists_parts hs ho hf
    rw [Entry.usage_of_directory hk] at hsum
    exact ⟨parts, hparts.imp fun _ _ hpart => ⟨hpart, fun _ hq => husage hq hpart⟩, hsum⟩
  · rw [Table.files_add_directories_space fun x hx => Table.mem_ids.mp hx, hs.coherent.size_eq]

/-- A directory with a file, and with a directory that no path names since a separator is in its
name, in a store in which slots were used again. -/
theorem exists_accounted_of_nested :
    let ops : List FileTree.Operation :=
      [.createFile "old", .createDirectory "docs", .createFile "top", .write ⟨3⟩ [9], .delete ⟨1⟩,
        .changeDirectory ⟨2⟩, .createFile "note", .write ⟨1⟩ [1, 2, 3], .createDirectory "in",
        .rename ⟨4⟩ "a/b", .changeDirectory ⟨4⟩, .createFile "x", .write ⟨5⟩ [4, 5],
        .createFile "y"]
    let s := (Store.init ⟨0⟩ {} {}).run ops
    (Store.Reachable {} {} s ∧ s.resolve "/docs" = .ok ⟨2⟩ ∧
      usage s "/docs" = .ok { bytes := 5, files := 3, directories := 2 } ∧
      usage (remove s "/docs").2 "/" = .ok { bytes := 1, files := 1, directories := 1 }) ∧
      ∃ e u, s.table.find? ⟨2⟩ = some e ∧ usage s "/docs" = .ok u ∧
        Accounted s "/docs" ⟨2⟩ e u := by
  intro ops s
  have hs : Store.Reachable {} {} s := Store.reachable_run rfl ⟨0⟩ {} ops
  have hp : s.resolve "/docs" = .ok ⟨2⟩ := by decide +kernel
  exact ⟨⟨hs, hp, by decide +kernel, by decide +kernel⟩, exists_accounted hs hp⟩

end ByPath

end FileTree
