import FileTree.Proofs.Store.Naming
import FileTree.Proofs.Table.Reuse

/-!
# What the making of an entry comes to

Of a path that is to name a new entry, the leading separators are dropped and the rest is cut to the
longest length. What comes of it is decided by four questions, in this order: is anything left, does
the current directory have an entry of that name, is the directory full, is the table full. An entry
that is made stands in the lowest free slot and comes last in the directory.

## Main definitions

* `Store.nameFor`: the name that a path gives a new entry
* `Store.With`: a store is another one with a new entry
* `Store.IsNew`: a path gives a name that no entry of a directory has
* `Store.Making`: what the making of an entry comes to

## Main results

* `Store.Reachable.capacity_eq`: a store has as many slots as its configuration says
* `Store.create_of_free`: where there is room, an entry with a new name is made
* `Table.findChild?_attach`, `Store.findChild?_of_create`: what was made is found under its name, in
  any store
* `Store.Sound.with_attach`: the entry that is made is all that is new
* `Store.Reachable.create_create`: an entry that is made again is found
* `Store.Reachable.exists_making`: what the making of an entry comes to, in every case
-/

namespace FileTree

namespace Table

variable {t : Table} {dir : EntryId} {e : Entry}

/-- What is below the lowest free slot is filled. -/
theorem Coherent.isUsed_of_lt_head (h : t.Coherent) {i : Nat} {rest : List Nat}
    (hf : t.free = i :: rest) {x : EntryId} (hx : x.index < i) : t.isUsed x = true := by
  have hasc := h.ascending
  rw [hf] at hasc
  have hnot : x.index ∉ t.free := by
    rw [hf, List.mem_cons]
    rintro (heq | hm)
    · omega
    · have := (List.pairwise_cons.mp hasc).1 _ hm
      omega
  by_contra hfree
  have hlt : x.index < t.slots.size := Nat.lt_trans hx (h.head_free hf).1
  exact hnot ((h.mem_free _).mpr ⟨hlt, isUsed_eq_false_iff.mp (Bool.eq_false_iff.mpr hfree)⟩)

/-- No slot is free exactly when there are as many entries as slots. -/
theorem Coherent.free_eq_nil_iff (h : t.Coherent) :
    t.free = [] ↔ t.ids.length = t.capacity := by
  have hle := h.length_free_le
  rw [← h.size_eq, size, ← List.length_eq_zero_iff, capacity]
  omega

/-- A name is not found where no child has it. -/
theorem findChild?_eq_none_iff (hf : t.find? dir = some e) {name : String} :
    t.findChild? dir name = none ↔ ∀ child ∈ e.children, t.nameAt child ≠ some name := by
  rw [findChild?_eq_head? hf, List.head?_eq_none_iff, List.filter_eq_nil_iff]
  simp

/-- The only child that has a name is found under it. -/
theorem findChild?_of_only {id : EntryId} {name : String} (hf : t.find? dir = some e)
    (hm : id ∈ e.children) (hname : t.nameAt id = some name)
    (honly : ∀ x ∈ e.children, t.nameAt x = some name → x = id) :
    t.findChild? dir name = some id := by
  have hmem : id ∈ e.children.filter fun x => t.nameAt x = some name :=
    List.mem_filter.mpr ⟨hm, decide_eq_true hname⟩
  have hall : ∀ x ∈ e.children.filter fun x => t.nameAt x = some name, x = id := fun x hx =>
    honly x (List.mem_of_mem_filter hx) (of_decide_eq_true (List.mem_filter.mp hx).2)
  rw [findChild?_eq_head? hf]
  generalize (e.children.filter fun x => t.nameAt x = some name) = found at hmem hall
  cases found with
  | nil => cases hmem
  | cons x rest => rw [List.head?_cons, hall x (List.mem_cons_self ..)]

section Attach

variable {rest : List Nat} {id : EntryId} {new : Entry}

/-- Attaching an entry changes no other name. -/
theorem nameAt_attach (t : Table) (rest : List Nat) (id x : EntryId) (new : Entry) :
    (t.attach rest id new).nameAt x =
      if id = x ∧ id.index < t.slots.size then some new.name else t.nameAt x := by
  have hname : ∀ o : Option Entry, (o.map (·.addChild id)).map Entry.name = o.map Entry.name := by
    rintro (_ | _) <;> rfl
  rw [nameAt, attach, find?_modify, apply_ite (Option.map Entry.name), hname, ite_self, find?_put,
    apply_ite (Option.map Entry.name)]
  rfl

/-- The directory lists the entry that was attached, and else what it listed before. -/
theorem exists_find?_attach_parent (rest : List Nat) (id : EntryId)
    (hf : t.find? new.parent = some e) (hnew : new.children = []) :
    ∃ d, (t.attach rest id new).find? new.parent = some d ∧ id ∈ d.children ∧
      ∀ x ∈ d.children, x ≠ id → x ∈ e.children := by
  have hput : ({ t with free := rest } : Table).find? new.parent = some e := hf
  rw [attach, find?_modify, if_pos rfl, find?_put, hput]
  split_ifs
  · -- in a table that is no tree the slot may be that of the directory, which then holds itself
    exact ⟨_, rfl, by simp [Entry.addChild], by simp [Entry.addChild, hnew]⟩
  · exact ⟨_, rfl, by simp [Entry.addChild], fun x hx hne =>
      (List.mem_append.mp hx).resolve_right fun h => hne (List.mem_singleton.mp h)⟩

/-- What is attached under a new name is found under it, in any table. -/
theorem findChild?_attach (hf : t.find? new.parent = some e)
    (hnone : t.findChild? new.parent new.name = none) (hnew : new.children = [])
    (hid : id.index < t.slots.size) :
    (t.attach rest id new).findChild? new.parent new.name = some id := by
  obtain ⟨d, hd, hmem, hold⟩ := exists_find?_attach_parent rest id hf hnew
  refine findChild?_of_only hd hmem (by rw [nameAt_attach, if_pos ⟨rfl, hid⟩]) fun x hx hname => ?_
  by_contra hne
  rw [nameAt_attach, if_neg fun h => hne h.1.symm] at hname
  exact (findChild?_eq_none_iff hf).mp hnone x (hold x hx hne) hname

end Attach

end Table

namespace Store

variable {s s' : Store} {config : Config} {heap : Heap} {id : EntryId} {kind : EntryKind}
  {path name : String} {dir : Entry} {rest : List Nat}

/-! ## Slots -/

theorem Step.capacity_eq (h : s.Step s') : s'.table.capacity = s.table.capacity := by
  cases h with
  | relog _ => rfl
  | move _ _ => rfl
  | add _ _ _ _ _ _ => exact Table.size_slots_attach _ _ _ _
  | fill _ _ _ => exact Table.capacity_modify _ _ _
  | rename _ _ _ _ _ => exact Table.capacity_modify _ _ _
  | prune _ _ _ => exact Table.size_slots_detach _ _ _

theorem Steps.capacity_eq (h : s.Steps s') : s'.table.capacity = s.table.capacity := by
  induction h with
  | refl => rfl
  | tail _ hstep ih => exact hstep.capacity_eq.trans ih

/-- A store has as many slots as its configuration says. -/
theorem Reachable.capacity_eq (hs : Reachable config heap s) :
    s.table.capacity = s.config.maxEntries.toNat := by
  obtain ⟨id, s₀, hs₀, hr⟩ := hs
  obtain ⟨hc, rfl⟩ := fresh_eq_ok_iff.mp hs₀
  have hsteps := hr.steps (sound_init hc id heap)
  rw [hsteps.capacity_eq, hsteps.config_eq]
  exact (Table.kept_new (Config.positive_of_check hc).1).capacity_eq

/-! ## Names -/

/-- The name that a path gives a new entry: the path without its leading separators, cut to the
longest length. -/
def nameFor (s : Store) (path : String) : String :=
  Record.cut s.config.maxNameLength.toNat (Path.creationName path)

theorem normalizeName_of_nameFor (h : s.nameFor path ≠ "") :
    s.normalizeName (Path.creationName path) path = .ok (s.nameFor path) :=
  normalizeName_eq_ok_iff.mpr ⟨rfl, h⟩

/-! ## The four questions -/

/-- A path of nothing but separators is refused. -/
theorem create_of_nameFor_eq_empty (h : s.nameFor path = "") :
    s.create kind path = (.error (.invalidName path), s) := by
  have hname : s.normalizeName (Path.creationName path) path = .error (.invalidName path) :=
    if_pos (String.isEmpty_iff.mpr h)
  rw [create, hname]

/-- What has the name already is found, whatever it is and however full the store is. -/
theorem create_of_findChild? (hname : s.nameFor path ≠ "")
    (hfound : s.table.findChild? s.cursor (s.nameFor path) = some id) :
    s.create kind path = (.ok id, s) := by
  simp only [create, normalizeName_of_nameFor hname, hfound]

section New

variable (hname : s.nameFor path ≠ "")
  (hnone : s.table.findChild? s.cursor (s.nameFor path) = none)
  (hdir : s.table.find? s.cursor = some dir)

include hname hnone hdir

/-- A new name is refused where the directory is full. -/
theorem create_of_directory_full (hfull : s.config.maxChildren.toNat ≤ dir.children.length) :
    s.create kind path = (.error (.directoryFull s.cursor s.config.maxChildren.toNat),
      s.note .warn "directory full" (some s.cursor)) := by
  simp only [create, normalizeName_of_nameFor hname, hnone, Table.get_of_find? hdir, ge_iff_le,
    if_pos hfull]

variable (hroom : dir.children.length < s.config.maxChildren.toNat)

include hroom

/-- A new name is refused where the table is full. -/
theorem create_of_table_full (hfree : s.table.free = []) :
    s.create kind path = (.error (.tableFull s.table.capacity),
      s.note .warn "entry table full" none) := by
  have halloc : ∀ e, s.table.allocate e = .error (.tableFull s.table.capacity) := fun e =>
    Table.allocate_eq_error_iff.mpr ⟨hfree, rfl⟩
  simp only [create, normalizeName_of_nameFor hname, hnone, Table.get_of_find? hdir, ge_iff_le,
    if_neg (Nat.not_le_of_lt hroom), halloc]

/-- Where there is room for it, an entry with a new name is made. -/
theorem create_of_free (hfree : s.table.free = id.index :: rest) :
    s.create kind path = (.ok id, { s with
      table := s.table.attach rest id { name := s.nameFor path, kind, parent := s.cursor } }.note
        .debug s!"created {kind}" (some id)) := by
  have halloc : ∀ e, s.table.allocate e = .ok (id, { s.table with free := rest }.put id e) :=
    fun e => Table.allocate_eq_ok_iff.mpr ⟨rest, hfree, rfl⟩
  simp only [create, normalizeName_of_nameFor hname, hnone, Table.get_of_find? hdir, ge_iff_le,
    if_neg (Nat.not_le_of_lt hroom), halloc]
  rfl

end New

/-! ## The new entry -/

/-- The store is another one with a new, empty entry in the current directory, and differs from it
in nothing else but the log. -/
structure With (s : Store) (kind : EntryKind) (name : String) (id : EntryId) (s' : Store) :
    Prop where
  /-- The entry stands in the lowest slot that was free. -/
  isUsed_eq : s.table.isUsed id = false
  index_lt : id.index < s.table.capacity
  isUsed_of_lt : ∀ x, x.index < id.index → s.table.isUsed x = true
  free_eq : s.table.free = id.index :: s'.table.free
  find?_new : s'.table.find? id = some { name, kind, parent := s.cursor }
  /-- The current directory lists it last. -/
  find?_cursor : ∃ dir, s.table.find? s.cursor = some dir ∧
    s'.table.find? s.cursor = some { dir with children := dir.children ++ [id] }
  find?_other : ∀ x, x ≠ id → x ≠ s.cursor → s'.table.find? x = s.table.find? x
  generationAt_eq : ∀ x, s'.table.generationAt x = s.table.generationAt x
  capacity_eq : s'.table.capacity = s.table.capacity
  cursor_eq : s'.cursor = s.cursor
  heap_eq : s'.heap = s.heap
  id_eq : s'.id = s.id
  config_eq : s'.config = s.config

theorem Sound.with_attach (hs : s.Sound) (hdir : s.table.find? s.cursor = some dir)
    (hfree : s.table.free = id.index :: rest) (r : Record) :
    s.With kind name id
      ({ s with table := s.table.attach rest id { name, kind, parent := s.cursor } }.record r) := by
  have ha : s.table.Attachable id { name, kind, parent := s.cursor } dir :=
    hs.attachable hdir hfree
  exact {
    isUsed_eq := Table.isUsed_eq_false_iff.mpr ha.free
    index_lt := ha.index_lt
    isUsed_of_lt := fun x hx => hs.coherent.isUsed_of_lt_head hfree hx
    free_eq := hfree
    find?_new := ha.find?_attach_self
    find?_cursor := ⟨dir, hdir, ha.find?_attach_parent⟩
    find?_other := fun x hx hne => ha.find?_attach_other hx hne
    generationAt_eq := fun x => Table.generationAt_attach _ _ _ _ _
    capacity_eq := Table.size_slots_attach _ _ _ _
    cursor_eq := rfl
    heap_eq := rfl
    id_eq := rfl
    config_eq := rfl }

/-- What was found is in a store that did not change, and what was made is new. -/
theorem Sound.eq_or_with_of_create (hs : s.Sound) (h : s.create kind path = (.ok id, s')) :
    (s' = s ∧ s.table.isUsed id = true) ∨ s.With kind (s.nameFor path) id s' := by
  have hc := s.created_create kind path
  rw [h] at hc
  cases hc with
  | found _ hfound =>
    obtain ⟨e, he⟩ := Table.exists_entry_of_findChild? hfound
    exact .inl ⟨rfl, Table.isUsed_of_find? he⟩
  | made _ hname _ hdir _ hfree =>
    obtain ⟨rfl, -⟩ := normalizeName_eq_ok_iff.mp hname
    exact .inr (hs.with_attach hdir hfree _)

/-- Neither finding an entry nor making one moves the cursor or vacates a slot. -/
theorem frame_of_eq_or_with (h : (s' = s ∧ s.table.isUsed id = true) ∨ s.With kind name id s') :
    s'.cursor = s.cursor ∧ s'.config = s.config ∧
      ∀ x, s'.table.generationAt x = s.table.generationAt x := by
  rcases h with ⟨rfl, -⟩ | hwith
  · exact ⟨rfl, rfl, fun _ => rfl⟩
  · exact ⟨hwith.cursor_eq, hwith.config_eq, hwith.generationAt_eq⟩

/-- In any store, what was made or found is found in the current directory under the name that the
path gave it, if it is there. -/
theorem findChild?_of_create (h : s.create kind path = (.ok id, s'))
    (hused : s'.table.isUsed id = true) :
    s.nameFor path ≠ "" ∧ s'.cursor = s.cursor ∧
      s'.table.findChild? s.cursor (s.nameFor path) = some id := by
  have hc := s.created_create kind path
  rw [h] at hc
  cases hc with
  | found hname hfound =>
    obtain ⟨rfl, hne⟩ := normalizeName_eq_ok_iff.mp hname
    exact ⟨hne, rfl, hfound⟩
  | made _ hname hnone hdir _ _ =>
    obtain ⟨rfl, hne⟩ := normalizeName_eq_ok_iff.mp hname
    obtain ⟨e, hf⟩ := Table.isUsed_iff.mp hused
    have hlt := Table.index_lt_of_find? hf
    rw [table_record, Table.size_slots_attach] at hlt
    exact ⟨hne, rfl, Table.findChild?_attach hdir hnone rfl hlt⟩

theorem isUsed_of_eq_or_with (h : (s' = s ∧ s.table.isUsed id = true) ∨ s.With kind name id s') :
    s'.table.isUsed id = true := by
  rcases h with ⟨rfl, hused⟩ | hwith
  · exact hused
  · exact Table.isUsed_of_find? hwith.find?_new

/-- What was made, or found in its place, stands in the current directory under the name that the
path gives. -/
theorem Reachable.findChild?_of_create (hs : Reachable config heap s)
    (h : s.create kind path = (.ok id, s')) :
    s'.nameFor path ≠ "" ∧ s'.table.findChild? s'.cursor (s'.nameFor path) = some id := by
  have hmade := hs.sound.eq_or_with_of_create h
  have hname : s'.nameFor path = s.nameFor path := by
    rw [nameFor, nameFor, (frame_of_eq_or_with hmade).2.1]
  obtain ⟨hne, hcursor, hfound⟩ := Store.findChild?_of_create h (isUsed_of_eq_or_with hmade)
  rw [hname, hcursor]
  exact ⟨hne, hfound⟩

/-- **An entry that is made again is found**, whatever kind is asked for, and nothing changes. -/
theorem Reachable.create_create (hs : Reachable config heap s)
    (h : s.create kind path = (.ok id, s')) (kind' : EntryKind) :
    s'.create kind' path = (.ok id, s') := by
  obtain ⟨hne, hfound⟩ := hs.findChild?_of_create h
  exact create_of_findChild? hne hfound

/-- The path gives a name, and no entry of the directory has it. -/
def IsNew (s : Store) (dir : Entry) (path : String) : Prop :=
  s.nameFor path ≠ "" ∧ ∀ child ∈ dir.children, s.table.nameAt child ≠ some (s.nameFor path)

/-- What the making of an entry comes to, where `dir` is the current directory. -/
structure Making (s : Store) (dir : Entry) (kind : EntryKind) (path : String) : Prop where
  nameless : s.nameFor path = "" → s.create kind path = (.error (.invalidName path), s)
  /-- An entry that has the name is the answer, whatever its kind and however full the store. -/
  found : s.nameFor path ≠ "" → ∀ child ∈ dir.children,
    s.table.nameAt child = some (s.nameFor path) → s.create kind path = (.ok child, s)
  directory_full : s.IsNew dir path → s.config.maxChildren.toNat ≤ dir.children.length →
    s.create kind path = (.error (.directoryFull s.cursor s.config.maxChildren.toNat),
      s.note .warn "directory full" (some s.cursor))
  table_full : s.IsNew dir path → dir.children.length < s.config.maxChildren.toNat →
    s.table.ids.length = s.config.maxEntries.toNat →
    s.create kind path = (.error (.tableFull s.config.maxEntries.toNat),
      s.note .warn "entry table full" none)
  made : s.IsNew dir path → dir.children.length < s.config.maxChildren.toNat →
    s.table.ids.length ≠ s.config.maxEntries.toNat →
    ∃ id s', s.create kind path = (.ok id, s') ∧ s.With kind (s.nameFor path) id s'
  again : ∀ ⦃id s'⦄ kind', s.create kind path = (.ok id, s') → s'.create kind' path = (.ok id, s')

/-- **What the making of an entry comes to, in every case**: the current directory is there, and
the questions are asked in their order. -/
theorem Reachable.exists_making (hs : Reachable config heap s) (kind : EntryKind)
    (path : String) : ∃ dir, s.table.find? s.cursor = some dir ∧ s.Making dir kind path := by
  have hsound := hs.sound
  obtain ⟨dir, hdir, -⟩ := hsound.cursor
  have hnone : s.IsNew dir path → s.table.findChild? s.cursor (s.nameFor path) = none := fun h =>
    (Table.findChild?_eq_none_iff hdir).mpr h.2
  have hfull := hsound.coherent.free_eq_nil_iff
  rw [hs.capacity_eq] at hfull
  refine ⟨dir, hdir, create_of_nameFor_eq_empty, fun hname child hm hchild => ?_,
    fun h => create_of_directory_full h.1 (hnone h) hdir, fun h hroom hlen => ?_,
    fun h hroom hlen => ?_, fun id s' kind' h => hs.create_create h kind'⟩
  · obtain ⟨c, hc, hcname⟩ := Option.map_eq_some_iff.mp hchild
    exact create_of_findChild? hname
      ((Table.findChild?_eq_some_iff hs.distinctNames hsound.linked).mpr
        ⟨dir, c, hdir, hm, hc, hcname⟩)
  · rw [create_of_table_full h.1 (hnone h) hdir hroom (hfull.mpr hlen), hs.capacity_eq]
  · cases hfree : s.table.free with
    | nil => exact absurd (hfull.mp hfree) hlen
    | cons i rest =>
      exact ⟨⟨i⟩, _, create_of_free h.1 (hnone h) hdir hroom hfree,
        hsound.with_attach hdir hfree _⟩

/-- A slot that was used before, a name that is cut, and the name of a directory asked for as a
file. -/
theorem Reachable.exists_making_of_cut_name :
    let config : Config := { maxEntries := 3, maxChildren := 2, maxNameLength := 3 }
    let s := (init ⟨0⟩ config {}).run [.createFile "x", .createDirectory "docs", .delete ⟨1⟩]
    (Reachable config {} s ∧ s.nameFor "/äöüß" = "äöü" ∧
      (s.create .file "/äöüß").1 = .ok ⟨1⟩ ∧
      (s.create .file "/doc/x").1 = .ok ⟨2⟩ ∧
      (s.create .file "//").1 = .error (.invalidName "//")) ∧
      ∀ path, ∃ dir, s.table.find? s.cursor = some dir ∧ s.Making dir .file path := by
  intro config s
  have hs : Reachable config {} s := reachable_run rfl ⟨0⟩ {} _
  refine ⟨⟨hs, ?_, ?_, ?_, ?_⟩, fun path => hs.exists_making .file path⟩
  all_goals decide +kernel

end Store

end FileTree
