import FileTree.Proofs.Table.Slots
import Mathlib.Algebra.Ring.Nat

/-!
# Slots that are used again

A table is used by two calls: one puts an entry into the lowest free slot, and one takes the entry
out of a slot. Whatever calls are made, the slots, their generations and the free list stay in
agreement: the free list names the empty slots, and the generation of a slot tells how often it
was vacated, up to a multiple of 2³².

## Main definitions

* `Table.Call`, `Table.call`, `Table.runCalls`: a call on a table, and what comes of it
* `Table.Called`: what a call can come to
* `Table.vacatings`: how often a row of calls takes an entry out of a slot
* `Table.Kept`: what every call keeps
* `Table.Agrees`: the slots, the free list and the generations are in agreement

## Main results

* `Table.Kept.call`, `Table.Kept.runCalls`: calls keep the table coherent and the root in place
* `Table.generationAt_call`, `Table.generationAt_runCalls`: the generation of a slot advances as
  often as the slot is vacated
* `Table.agrees_runCalls`: every row of calls on a new table leaves it in agreement
-/

namespace FileTree.Table

/-- A call on a table. -/
inductive Call where
  | allocate (e : Entry)
  | release (id : EntryId)
  deriving DecidableEq

/-- The table after a call. One that is refused changes nothing. -/
def call (t : Table) : Call → Table
  | .allocate e =>
    match t.allocate e with
    | .ok (_, t') => t'
    | .error _ => t
  | .release id =>
    match t.release id with
    | .ok (_, t') => t'
    | .error _ => t

/-- The table after calls made in order. -/
def runCalls (t : Table) (calls : List Call) : Table :=
  calls.foldl call t

/-- The call takes an entry out of the slot. -/
def vacates (t : Table) (id : EntryId) : Call → Bool
  | .allocate _ => false
  | .release x => x == id && (t.release x).toBool

/-- How often the calls take an entry out of the slot. -/
def vacatings (t : Table) (id : EntryId) : List Call → Nat
  | [] => 0
  | c :: calls => (t.vacates id c).toNat + (t.call c).vacatings id calls

variable {t t' : Table} {id : EntryId} {e : Entry} {cause : StoreError} {capacity : Nat}

@[simp] theorem runCalls_nil (t : Table) : t.runCalls [] = t := rfl

@[simp] theorem runCalls_cons (t : Table) (c : Call) (calls : List Call) :
    t.runCalls (c :: calls) = (t.call c).runCalls calls := rfl

/-! ## What a call can come to -/

theorem allocate_eq_error_iff :
    t.allocate e = .error cause ↔ t.free = [] ∧ cause = .tableFull t.capacity := by
  unfold allocate
  cases t.free <;> simp [eq_comm]

theorem release_eq_ok_iff :
    t.release id = .ok (e, t') ↔ id ≠ .root ∧ t.find? id = some e ∧ t' = t.vacate id := by
  unfold release
  by_cases hroot : id.isRoot = true
  · have hid : id = .root := id.isRoot_iff.mp hroot
    simp [hid]
  · have hid : id ≠ .root := fun h => hroot (id.isRoot_iff.mpr h)
    rw [if_neg hroot]
    cases t.find? id <;> simp [hid, eq_comm]

/-- Releasing an entry other than the root vacates its slot only. -/
theorem vacates_release (hroot : id ≠ .root) (hf : t.find? id = some e) (x : EntryId) :
    t.vacates x (.release id) = (id == x) := by
  have hr : t.release id = .ok (e, t.vacate id) := release_eq_ok_iff.mpr ⟨hroot, hf, rfl⟩
  rw [vacates, hr, Except.toBool, Bool.and_true]

/-- What a call can come to. -/
inductive Called (t : Table) : Call → Table → Prop
  | refused {c : Call} : (∀ id, t.vacates id c = false) → Called t c t
  | filled {e : Entry} {id : EntryId} {rest : List Nat} : t.free = id.index :: rest →
      Called t (.allocate e) ({ t with free := rest }.put id e)
  | vacated {id : EntryId} {e : Entry} : id ≠ .root → t.find? id = some e →
      Called t (.release id) (t.vacate id)

theorem called_call (t : Table) (c : Call) : t.Called c (t.call c) := by
  cases c with
  | allocate e =>
    cases ha : t.allocate e with
    | error cause =>
      simp only [call, ha]
      exact .refused fun _ => rfl
    | ok made =>
      obtain ⟨id, t'⟩ := made
      obtain ⟨rest, hfree, rfl⟩ := allocate_eq_ok_iff.mp ha
      simp only [call, ha]
      exact .filled hfree
  | release id =>
    cases hr : t.release id with
    | error cause =>
      simp only [call, hr]
      exact .refused fun x => by rw [vacates, hr, Except.toBool, Bool.and_false]
    | ok out =>
      obtain ⟨e, t'⟩ := out
      obtain ⟨hroot, hf, rfl⟩ := release_eq_ok_iff.mp hr
      simp only [call, hr]
      exact .vacated hroot hf

/-! ## What calls keep -/

/-- The table is coherent, has all its slots, and the root as it is at first. -/
structure Kept (capacity : Nat) (t : Table) : Prop where
  coherent : t.Coherent
  capacity_eq : t.capacity = capacity
  root : t.find? .root = some Entry.root

theorem kept_new (h : 1 ≤ capacity) : (new capacity).Kept capacity where
  coherent := coherent_new capacity
  capacity_eq := by
    simp only [Table.capacity, new, Array.set!_eq_setIfInBounds, Array.size_setIfInBounds,
      Array.size_replicate]
    omega
  root := by rw [find?_new, if_pos rfl]

/-- **A call keeps the table coherent and the root in its place.** -/
theorem Kept.call (h : t.Kept capacity) (c : Call) : (t.call c).Kept capacity := by
  have hc := t.called_call c
  generalize t.call c = t' at hc ⊢
  cases hc with
  | refused _ => exact h
  | @filled e id rest hfree =>
    have hne : id ≠ .root := by
      rintro rfl
      have hempty : t.find? .root = none := (h.coherent.head_free hfree).2
      rw [h.root] at hempty
      cases hempty
    refine ⟨h.coherent.put hfree e, ?_, ?_⟩
    · rw [← h.capacity_eq]
      simp [Table.capacity, put]
    · rw [find?_put, if_neg fun hc => hne hc.1]
      exact h.root
  | @vacated id e hroot hf =>
    refine ⟨h.coherent.vacate hf, ?_, ?_⟩
    · rw [← h.capacity_eq]
      simp [Table.capacity, vacate]
    · rw [find?_vacate, if_neg hroot, h.root]

theorem Kept.runCalls (h : t.Kept capacity) (calls : List Call) :
    (t.runCalls calls).Kept capacity := by
  induction calls generalizing t with
  | nil => exact h
  | cons c calls ih => exact ih (h.call c)

/-! ## Generations -/

/-- A call advances the generation of the slot that it vacates, and no other. -/
theorem generationAt_call (t : Table) (c : Call) (id : EntryId) :
    (t.call c).generationAt id = t.generationAt id + UInt32.ofNat (t.vacates id c).toNat := by
  have hc := t.called_call c
  generalize t.call c = t' at hc ⊢
  cases hc with
  | refused hnot => simp [hnot]
  | @filled e x rest _ =>
    rw [generationAt_put]
    exact (UInt32.add_zero _).symm
  | @vacated x e hroot hf =>
    rw [generationAt_vacate, vacates_release hroot hf]
    by_cases hx : x = id
    · subst hx
      simp [index_lt_of_find? hf]
    · simp [hx, beq_eq_false_iff_ne.mpr hx]

/-- The generation of a slot advances as often as the slot is vacated. -/
theorem generationAt_runCalls (t : Table) (calls : List Call) (id : EntryId) :
    (t.runCalls calls).generationAt id =
      t.generationAt id + UInt32.ofNat (t.vacatings id calls) := by
  induction calls generalizing t with
  | nil => simp [vacatings]
  | cons c calls ih =>
    rw [runCalls_cons, ih, generationAt_call, vacatings, UInt32.ofNat_add, UInt32.add_assoc]

/-- The generation of a slot is the same again after a multiple of 2³² vacatings. -/
theorem generationAt_runCalls_eq_iff (t : Table) (calls : List Call) (id : EntryId) :
    (t.runCalls calls).generationAt id = t.generationAt id ↔ 2 ^ 32 ∣ t.vacatings id calls := by
  have hlt := (t.generationAt id).toNat_lt
  rw [generationAt_runCalls, ← UInt32.toNat_inj, UInt32.toNat_add, UInt32.toNat_ofNat']
  omega

theorem generation_of_isUsed (h : t.isUsed id = true) :
    t.generation id = .ok (t.generationAt id) := by
  obtain ⟨e, he⟩ := isUsed_iff.mp h
  simp only [generation, he]

theorem generationAt_new (capacity : Nat) (id : EntryId) : (new capacity).generationAt id = 0 := by
  simp only [generationAt, new, Array.set!_eq_setIfInBounds, Array.getElem?_setIfInBounds,
    Array.getElem?_replicate, Array.size_replicate]
  split_ifs <;> rfl

/-! ## Agreement -/

/-- The slots, the free list and the generations of a table are in agreement, where each slot was
vacated as often as told. -/
structure Agrees (capacity : Nat) (vacated : EntryId → Nat) (t : Table) : Prop where
  capacity_eq : t.capacity = capacity
  /-- The free list names every empty slot once, and nothing else. -/
  nodup_free : t.free.Nodup
  mem_free : ∀ i, i ∈ t.free ↔ i < capacity ∧ t.isUsed ⟨i⟩ = false
  size_eq : t.size = (List.range capacity).countP fun i => t.isUsed ⟨i⟩
  root : t.find? .root = some Entry.root
  /-- An entry goes into the lowest empty slot, and no other slot changes. -/
  allocate_iff : ∀ e id, (∃ t', t.allocate e = .ok (id, t')) ↔
    id.index < capacity ∧ t.isUsed id = false ∧ ∀ i < id.index, t.isUsed ⟨i⟩ = true
  find?_of_allocate : ∀ e id t', t.allocate e = .ok (id, t') →
    ∀ x, t'.find? x = if x = id then some e else t.find? x
  /-- It is refused exactly when there is no empty slot, and then nothing changes. -/
  allocate_error_iff : ∀ e cause, t.allocate e = .error cause ↔
    cause = .tableFull capacity ∧ ∀ i < capacity, t.isUsed ⟨i⟩ = true
  call_of_error : ∀ e cause, t.allocate e = .error cause → t.call (.allocate e) = t
  /-- Every entry but the root can be taken out, and no other slot changes. -/
  release_iff : ∀ id, (∃ e t', t.release id = .ok (e, t')) ↔ t.isUsed id = true ∧ id ≠ .root
  find?_of_release : ∀ id e t', t.release id = .ok (e, t') →
    t.find? id = some e ∧ ∀ x, t'.find? x = if x = id then none else t.find? x
  generation_toNat : ∀ id, t.isUsed id = true →
    ∃ g, t.generation id = .ok g ∧ g.toNat = vacated id % 2 ^ 32
  /-- Two entries that stand in a slot one after the other have the same generation exactly when
  the slot was vacated a multiple of 2³² times between them. -/
  generation_eq_iff : ∀ id calls, t.isUsed id = true → (t.runCalls calls).isUsed id = true →
    ((t.runCalls calls).generation id = t.generation id ↔ 2 ^ 32 ∣ t.vacatings id calls)

namespace Kept

variable (h : t.Kept capacity)

include h

theorem mem_free (i : Nat) : i ∈ t.free ↔ i < capacity ∧ t.isUsed ⟨i⟩ = false := by
  rw [h.coherent.mem_free, isUsed_eq_false_iff, ← h.capacity_eq]
  rfl

/-- The first free slot is the lowest empty one. -/
theorem free_eq_cons_iff : (∃ rest, t.free = id.index :: rest) ↔
    id.index < capacity ∧ t.isUsed id = false ∧ ∀ i < id.index, t.isUsed ⟨i⟩ = true := by
  have hasc := h.coherent.ascending
  constructor
  · rintro ⟨rest, hfree⟩
    rw [hfree, List.pairwise_cons] at hasc
    obtain ⟨hlt, hempty⟩ := (h.mem_free id.index).mp (by simp [hfree])
    refine ⟨hlt, hempty, fun i hi => ?_⟩
    by_contra hnot
    have hm := (h.mem_free i).mpr ⟨Nat.lt_trans hi hlt, Bool.eq_false_iff.mpr hnot⟩
    rw [hfree] at hm
    rcases List.mem_cons.mp hm with rfl | hm
    · exact Nat.lt_irrefl _ hi
    · exact Nat.lt_asymm hi (hasc.1 i hm)
  · rintro ⟨hlt, hempty, hbelow⟩
    have hm := (h.mem_free id.index).mpr ⟨hlt, hempty⟩
    cases hfree : t.free with
    | nil => simp [hfree] at hm
    | cons i rest =>
      rw [hfree] at hasc hm
      rcases List.mem_cons.mp hm with rfl | hm
      · exact ⟨rest, rfl⟩
      · have hlow := (List.pairwise_cons.mp hasc).1 _ hm
        have hi := ((h.mem_free i).mp (by simp [hfree])).2
        rw [hbelow i hlow] at hi
        cases hi

theorem free_eq_nil_iff : t.free = [] ↔ ∀ i < capacity, t.isUsed ⟨i⟩ = true := by
  rw [List.eq_nil_iff_forall_not_mem]
  simp [h.mem_free]

theorem size_eq : t.size = (List.range capacity).countP fun i => t.isUsed ⟨i⟩ := by
  rw [h.coherent.size_eq, ids, List.filter_map, List.length_map, List.countP_eq_length_filter,
    ← h.capacity_eq]
  rfl

theorem allocate_iff : (∃ t', t.allocate e = .ok (id, t')) ↔
    id.index < capacity ∧ t.isUsed id = false ∧ ∀ i < id.index, t.isUsed ⟨i⟩ = true := by
  rw [← h.free_eq_cons_iff]
  constructor
  · rintro ⟨t', ha⟩
    obtain ⟨rest, hfree, -⟩ := allocate_eq_ok_iff.mp ha
    exact ⟨rest, hfree⟩
  · rintro ⟨rest, hfree⟩
    exact ⟨_, allocate_eq_ok_iff.mpr ⟨rest, hfree, rfl⟩⟩

theorem find?_of_allocate (ha : t.allocate e = .ok (id, t')) (x : EntryId) :
    t'.find? x = if x = id then some e else t.find? x := by
  obtain ⟨rest, hfree, rfl⟩ := allocate_eq_ok_iff.mp ha
  rw [find?_put]
  have hlt := (h.coherent.head_free hfree).1
  by_cases hx : x = id
  · subst hx
    simp [hlt]
  · simp only [Ne.symm hx, false_and, if_false, if_neg hx]
    rfl

end Kept

theorem find?_of_release (hr : t.release id = .ok (e, t')) :
    t.find? id = some e ∧ ∀ x, t'.find? x = if x = id then none else t.find? x := by
  obtain ⟨-, hf, rfl⟩ := release_eq_ok_iff.mp hr
  refine ⟨hf, fun x => ?_⟩
  rw [find?_vacate]
  simp only [eq_comm]

theorem release_iff : (∃ e t', t.release id = .ok (e, t')) ↔ t.isUsed id = true ∧ id ≠ .root := by
  simp only [release_eq_ok_iff, isUsed_iff]
  constructor
  · rintro ⟨e, -, hroot, hf, -⟩
    exact ⟨⟨e, hf⟩, hroot⟩
  · rintro ⟨⟨e, hf⟩, hroot⟩
    exact ⟨e, _, hroot, hf, rfl⟩

/-- **Every row of calls on a new table leaves its slots, its free list and its generations in
agreement.** -/
theorem agrees_runCalls (h : 1 ≤ capacity) (calls : List Call) :
    ((new capacity).runCalls calls).Agrees capacity
      fun id => (new capacity).vacatings id calls := by
  have hkept := (kept_new h).runCalls calls
  have hgen := fun id => generationAt_runCalls (new capacity) calls id
  generalize (new capacity).runCalls calls = t at hkept hgen ⊢
  exact {
    capacity_eq := hkept.capacity_eq
    nodup_free := hkept.coherent.ascending.imp Nat.ne_of_lt
    mem_free := hkept.mem_free
    size_eq := hkept.size_eq
    root := hkept.root
    allocate_iff := fun _ _ => hkept.allocate_iff
    find?_of_allocate := fun _ _ _ => hkept.find?_of_allocate
    allocate_error_iff := fun e cause => by
      rw [allocate_eq_error_iff, hkept.capacity_eq, hkept.free_eq_nil_iff, and_comm]
    call_of_error := fun e cause ha => by simp only [call, ha]
    release_iff := fun _ => release_iff
    find?_of_release := fun _ _ _ => find?_of_release
    generation_toNat := fun id hused => by
      refine ⟨_, generation_of_isUsed hused, ?_⟩
      rw [hgen, generationAt_new, UInt32.zero_add, UInt32.toNat_ofNat']
    generation_eq_iff := fun id calls hused hused' => by
      rw [generation_of_isUsed hused, generation_of_isUsed hused', Except.ok.injEq,
        generationAt_runCalls_eq_iff] }

/-- A table is filled up and more is asked of it, an entry is taken out twice, as is the root, and
its slot is filled and vacated again. -/
theorem agrees_runCalls_of_reuse :
    let file (name : String) : Entry := { name, kind := .file, parent := .root }
    let calls : List Call :=
      [.allocate (file "a"), .allocate (file "b"), .allocate (file "c"), .release ⟨1⟩, .release ⟨1⟩,
        .release .root, .allocate (file "d"), .release ⟨2⟩]
    1 ≤ 3 ∧ ((new 3).runCalls calls).Agrees 3 (fun id => (new 3).vacatings id calls) ∧
      ((new 3).runCalls calls).isUsed ⟨1⟩ = true ∧ (new 3).vacatings ⟨1⟩ calls = 1 :=
  ⟨by decide, agrees_runCalls (by decide) _, by decide, by decide⟩

end FileTree.Table
