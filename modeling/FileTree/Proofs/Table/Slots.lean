import Mathlib.Data.List.Nodup
import Mathlib.Data.List.Perm.Subperm
import FileTree.Table

/-!
# The slots of a table

A table is coherent when its free list names exactly the empty slots, each once and in ascending
order. Filling the lowest free slot and vacating a filled one keep it so.

## Main definitions

* `Table.Coherent`: the free list tells the truth
* `Table.attach`, `Table.detach`: an entry put into a free slot and linked from its directory, and
  an entry unlinked and taken out

## Main results

* `Table.find?_attach`, `Table.find?_detach`: what the two do to every entry
* `Table.Coherent.put`, `Table.Coherent.vacate`: filling the lowest free slot and vacating a
  filled one keep a table coherent
* `Table.Coherent.attach`, `Table.Coherent.detach`: so do linking and unlinking
* `Table.Coherent.size_eq`: a coherent table has as many entries as identifiers
-/

namespace FileTree

theorem Entry.isDirectory_iff {e : Entry} : e.isDirectory = true ↔ e.kind = .directory :=
  beq_iff_eq

/-- What is no directory is a file. -/
theorem Entry.kind_eq_file {e : Entry} (h : ¬ e.isDirectory = true) : e.kind = .file := by
  cases hk : e.kind with
  | file => rfl
  | directory => exact absurd (isDirectory_iff.mpr hk) h

theorem Entry.not_isDirectory {e : Entry} (h : e.kind = .file) : ¬ e.isDirectory = true := by
  simp [isDirectory_iff, h]

namespace Table

variable {t : Table} {id other : EntryId} {e : Entry}

theorem isUsed_iff : t.isUsed id = true ↔ ∃ e, t.find? id = some e :=
  Option.isSome_iff_exists

theorem isUsed_eq_false_iff : t.isUsed id = false ↔ t.find? id = none :=
  Option.isSome_eq_false_iff.trans Option.isNone_iff_eq_none

theorem isUsed_of_find? (h : t.find? id = some e) : t.isUsed id = true :=
  isUsed_iff.mpr ⟨e, h⟩

theorem get_of_find? (h : t.find? id = some e) : t.get id = .ok e := by
  simp [get, h]

theorem get_eq_ok_iff : t.get id = .ok e ↔ t.find? id = some e := by
  unfold get
  cases t.find? id <;> simp

theorem get_eq_error_iff {cause : StoreError} :
    t.get id = .error cause ↔ t.find? id = none ∧ cause = .invalidId id := by
  unfold get
  cases t.find? id <;> simp [eq_comm]

/-- An entry stands in a slot of the table. -/
theorem index_lt_of_find? (h : t.find? id = some e) : id.index < t.slots.size := by
  by_contra hlt
  simp [find?, Array.getElem?_eq_none (Nat.le_of_not_lt hlt)] at h

theorem find?_new (capacity : Nat) (id : EntryId) :
    (new capacity).find? id = if id = .root then some Entry.root else none := by
  obtain ⟨i⟩ := id
  simp only [find?, new, EntryId.root, EntryId.mk.injEq, Array.set!_eq_setIfInBounds,
    Array.getElem?_setIfInBounds, Array.size_replicate, Array.getElem?_replicate]
  by_cases hi : i = 0
  · subst hi
    have hpos : 0 < max capacity 1 := by omega
    simp [hpos]
  · by_cases hc : i < max capacity 1 <;> simp [hi, Ne.symm hi, hc]

@[simp] theorem generationAt_put (t : Table) (id other : EntryId) (e : Entry) :
    (t.put id e).generationAt other = t.generationAt other := by
  simp only [generationAt, put, Array.getElem?_modify]
  split <;> cases t.slots[other.index]? <;> simp

theorem generationAt_vacate (t : Table) (id other : EntryId) :
    (t.vacate id).generationAt other =
      if id = other ∧ id.index < t.slots.size then t.generationAt other + 1
      else t.generationAt other := by
  cases id; cases other
  simp only [generationAt, vacate, Array.getElem?_modify, EntryId.mk.injEq]
  rename_i i j
  by_cases h : i = j
  · subst h
    by_cases hi : i < t.slots.size <;> simp [hi]
  · simp [h]

/-! ## The free list -/

theorem mem_insertFree {n m : Nat} {free : List Nat} :
    m ∈ insertFree n free ↔ m = n ∨ m ∈ free := by
  induction free with
  | nil => simp [insertFree]
  | cons k rest ih =>
    simp only [insertFree]
    split
    · simp
    · simp only [List.mem_cons, ih]
      tauto

/-- A number that is not yet in an ascending list can be put into it. -/
theorem pairwise_insertFree {n : Nat} {free : List Nat} (h : free.Pairwise (· < ·))
    (hn : n ∉ free) : (insertFree n free).Pairwise (· < ·) := by
  induction free with
  | nil => simp [insertFree]
  | cons k rest ih =>
    obtain ⟨hk, hrest⟩ := List.pairwise_cons.mp h
    simp only [List.mem_cons, not_or] at hn
    simp only [insertFree]
    split
    · rename_i hlt
      refine List.pairwise_cons.mpr ⟨fun m hm => ?_, h⟩
      rcases List.mem_cons.mp hm with rfl | hm
      · exact hlt
      · exact Nat.lt_trans hlt (hk m hm)
    · refine List.pairwise_cons.mpr ⟨fun m hm => ?_, ih hrest hn.2⟩
      rcases mem_insertFree.mp hm with rfl | hm
      · omega
      · exact hk m hm

/-- The free list names exactly the empty slots, in ascending order. -/
structure Coherent (t : Table) : Prop where
  ascending : t.free.Pairwise (· < ·)
  mem_free : ∀ i, i ∈ t.free ↔ i < t.slots.size ∧ t.find? ⟨i⟩ = none

theorem coherent_new (capacity : Nat) : (new capacity).Coherent where
  ascending := List.pairwise_lt_range'
  mem_free i := by
    have hs : (new capacity).slots.size = max capacity 1 := by simp [new]
    rw [find?_new, hs]
    simp only [new, List.mem_range', EntryId.root, EntryId.mk.injEq]
    constructor
    · rintro ⟨k, hk, rfl⟩
      refine ⟨by omega, ?_⟩
      rw [if_neg (by omega)]
    · rintro ⟨hi, hz⟩
      split_ifs at hz with h
      exact ⟨i - 1, by omega, by omega⟩

/-- Changing an entry in place keeps a table coherent. -/
theorem Coherent.modify (h : t.Coherent) (id : EntryId) (f : Entry → Entry) :
    (t.modify id f).Coherent where
  ascending := h.ascending
  mem_free i := by
    have hs : (t.modify id f).slots.size = t.slots.size := by simp [Table.modify]
    rw [hs, find?_modify]
    apply (h.mem_free i).trans
    split <;> simp

/-! ## Linking and unlinking -/

/-- The table with an entry in the given slot, which leaves the free list, and listed last by its
parent. -/
def attach (t : Table) (rest : List Nat) (id : EntryId) (e : Entry) : Table :=
  ({ t with free := rest }.put id e).modify e.parent (·.addChild id)

/-- The table with an entry struck off the list of the directory `dir` and taken out of its
slot. -/
def detach (t : Table) (id dir : EntryId) : Table :=
  (t.modify dir (·.dropChild id)).vacate id

@[simp] theorem size_slots_attach (t : Table) (rest : List Nat) (id : EntryId) (e : Entry) :
    (t.attach rest id e).slots.size = t.slots.size := by
  simp [attach, put, modify]

@[simp] theorem size_slots_detach (t : Table) (id dir : EntryId) :
    (t.detach id dir).slots.size = t.slots.size := by
  simp [detach, vacate, modify]

@[simp] theorem generationAt_attach (t : Table) (rest : List Nat) (id other : EntryId)
    (e : Entry) : (t.attach rest id e).generationAt other = t.generationAt other := by
  rw [attach, generationAt_modify, generationAt_put]
  rfl

/-- Taking an entry out advances the generation of its slot only. -/
theorem generationAt_detach (dir other : EntryId) (h : t.find? id = some e) :
    (t.detach id dir).generationAt other =
      if other = id then t.generationAt other + 1 else t.generationAt other := by
  have hlt := index_lt_of_find? h
  have hs : (t.modify dir (·.dropChild id)).slots.size = t.slots.size := by simp [modify]
  rw [detach, generationAt_vacate, generationAt_modify, hs]
  simp [hlt, eq_comm]

/-- A table whose lowest free slot was filled differs from the old one in that slot and in the
list of the new entry's parent. -/
theorem find?_attach {rest : List Nat} (hid : id.index < t.slots.size) (hne : id ≠ e.parent) :
    (t.attach rest id e).find? other =
      if other = id then some e
      else if other = e.parent then (t.find? other).map (·.addChild id)
      else t.find? other := by
  have hput : ∀ x, ({ t with free := rest }.put id e).find? x =
      if x = id then some e else t.find? x := by
    intro x
    rw [find?_put]
    by_cases hx : x = id
    · subst hx
      simp [hid]
    · rw [if_neg hx, if_neg (by simp [Ne.symm hx])]
      rfl
  rw [attach, find?_modify, hput]
  by_cases h₁ : other = id
  · subst h₁
    simp [hne.symm]
  · by_cases h₂ : e.parent = other
    · simp [h₁, h₂]
    · simp [h₁, h₂, Ne.symm h₂]

/-- A table from which an entry was taken out differs from the old one in its slot and in the
list of the directory. -/
theorem find?_detach (t : Table) (id dir other : EntryId) :
    (t.detach id dir).find? other =
      if other = id then none
      else if other = dir then (t.find? other).map (·.dropChild id)
      else t.find? other := by
  rw [detach, find?_vacate, find?_modify]
  by_cases h₁ : other = id
  · simp [h₁]
  · rw [if_neg (Ne.symm h₁), if_neg h₁]
    by_cases h₂ : dir = other
    · subst h₂
      simp
    · simp [h₂, Ne.symm h₂]

/-- The lowest free slot is an empty one of the table. -/
theorem Coherent.head_free (h : t.Coherent) {i : Nat} {rest : List Nat} (hf : t.free = i :: rest) :
    i < t.slots.size ∧ t.find? ⟨i⟩ = none :=
  (h.mem_free i).mp (by simp [hf])

/-- A coherent table has no more free slots than slots. -/
theorem Coherent.length_free_le (h : t.Coherent) : t.free.length ≤ t.slots.size := by
  have hsub : t.free ⊆ List.range t.slots.size := fun i hi =>
    List.mem_range.mpr ((h.mem_free i).mp hi).1
  have hle := (List.subperm_of_subset (h.ascending.imp Nat.ne_of_lt) hsub).length_le
  rwa [List.length_range] at hle

/-- Filling the lowest free slot keeps a table coherent. -/
theorem Coherent.put (h : t.Coherent) {rest : List Nat} (hf : t.free = id.index :: rest)
    (e : Entry) : ({ t with free := rest }.put id e).Coherent := by
  have hasc := h.ascending
  rw [hf] at hasc
  obtain ⟨hlt, hrest⟩ := List.pairwise_cons.mp hasc
  refine ⟨hrest, fun i => ?_⟩
  have hmem := h.mem_free i
  rw [hf, List.mem_cons] at hmem
  have hs : ({ t with free := rest }.put id e).slots.size = t.slots.size := by simp [Table.put]
  rw [hs, find?_put]
  change i ∈ rest ↔ i < t.slots.size ∧
    (if id = ⟨i⟩ ∧ id.index < t.slots.size then some e else t.find? ⟨i⟩) = none
  by_cases hi : i = id.index
  · subst hi
    have hnot : id.index ∉ rest := fun hm => Nat.lt_irrefl _ (hlt _ hm)
    simp [hnot, (h.head_free hf).1]
  · have hne : id ≠ ⟨i⟩ := fun heq => hi (by rw [heq])
    simpa [hi, hne] using hmem

/-- Vacating a filled slot keeps a table coherent. -/
theorem Coherent.vacate (h : t.Coherent) (hid : t.find? id = some e) :
    (t.vacate id).Coherent where
  ascending := by
    apply pairwise_insertFree h.ascending
    intro hm
    rw [((h.mem_free _).mp hm).2] at hid
    cases hid
  mem_free i := by
    have hlt := index_lt_of_find? hid
    have hs : (t.vacate id).slots.size = t.slots.size := by simp [Table.vacate]
    rw [hs, find?_vacate]
    change i ∈ insertFree id.index t.free ↔ _
    rw [mem_insertFree, h.mem_free]
    by_cases hi : i = id.index
    · subst hi
      simp [hlt]
    · have hne : id ≠ ⟨i⟩ := fun heq => hi (by rw [heq])
      simp [hi, hne]

theorem Coherent.attach (h : t.Coherent) {rest : List Nat} (hf : t.free = id.index :: rest)
    (e : Entry) : (t.attach rest id e).Coherent :=
  (h.put hf e).modify _ _

theorem Coherent.detach (h : t.Coherent) (dir : EntryId) (hid : t.find? id = some e) :
    (t.detach id dir).Coherent := by
  have hfound : ∃ e', (t.modify dir (·.dropChild id)).find? id = some e' := by
    rw [find?_modify, hid]
    split_ifs
    · exact ⟨_, rfl⟩
    · exact ⟨e, rfl⟩
  obtain ⟨e', he'⟩ := hfound
  exact (h.modify dir _).vacate he'

/-- Attaching is what allocation does to a table, together with the link from the directory. -/
theorem allocate_eq_ok_iff {t' : Table} :
    t.allocate e = .ok (id, t') ↔
      ∃ rest, t.free = id.index :: rest ∧ t' = { t with free := rest }.put id e := by
  unfold allocate
  cases t.free with
  | nil => simp
  | cons i rest =>
    obtain ⟨j⟩ := id
    simp only [Except.ok.injEq, Prod.mk.injEq, EntryId.mk.injEq, List.cons.injEq]
    constructor
    · rintro ⟨rfl, rfl⟩
      exact ⟨rest, ⟨rfl, rfl⟩, rfl⟩
    · rintro ⟨rest', ⟨rfl, rfl⟩, rfl⟩
      exact ⟨rfl, rfl⟩

/-! ## Counting -/

@[simp] theorem mem_ids : id ∈ t.ids ↔ t.isUsed id = true := by
  simp only [ids, List.mem_filter, List.mem_map, List.mem_range, and_iff_right_iff_imp]
  intro h
  obtain ⟨e, he⟩ := isUsed_iff.mp h
  exact ⟨id.index, index_lt_of_find? he, rfl⟩

theorem nodup_ids (t : Table) : t.ids.Nodup :=
  (List.nodup_range.map fun _ _ h => EntryId.mk.inj h).filter _

/-- A coherent table has as many entries as it has identifiers in use. -/
theorem Coherent.size_eq (h : t.Coherent) : t.size = t.ids.length := by
  have hfree : t.free.length =
      ((List.range t.slots.size).filter fun i => !t.isUsed ⟨i⟩).length := by
    refine List.Perm.length_eq ((List.perm_ext_iff_of_nodup (h.ascending.imp Nat.ne_of_lt)
      (List.nodup_range.filter _)).mpr fun i => ?_)
    rw [h.mem_free]
    simp [isUsed]
  have hids : t.ids.length = ((List.range t.slots.size).filter fun i => t.isUsed ⟨i⟩).length := by
    rw [ids, List.filter_map, List.length_map]
    rfl
  have hall := @List.length_eq_length_filter_add _ (List.range t.slots.size)
    fun i => t.isUsed ⟨i⟩
  rw [List.length_range] at hall
  rw [size, hids, hfree]
  omega

end Table

end FileTree
