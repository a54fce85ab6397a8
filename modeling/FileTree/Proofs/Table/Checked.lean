import FileTree.Proofs.Heap.Calls
import FileTree.Proofs.Table.Slots
import Mathlib.Algebra.Order.BigOperators.Group.List
import Mathlib.Algebra.Order.Ring.Nat

/-!
# Checked accesses

The program takes parts of rows of bytes, looks into slots by their number, and counts downwards.
What is checked gives nothing when such an access is out of range. It never is: of a heap that keeps
its books and of a coherent table, whose entries are no larger than their buffers, what is checked
gives what is not checked.

## Main definitions

* `slice?`, `minus?`: a part of a list and a difference, checked
* `Heap.checkedRelease`: taking a buffer back, with the counters checked
* `Buffer.checkedFill`, `Entry.checkedData`: writing and reading content, with its end checked
* `Table.checkedAllocate`, `Table.checkedRelease`, `Table.checkedGeneration`, `Table.checkedSize`:
  the accesses to slots by number, and the number of entries
* `Heap.KeepsBooks`: a heap after calls

## Main results

* `Heap.KeepsBooks.checkedRelease_eq`: no counter of a heap falls below zero
* `Table.Coherent.checkedAllocate_eq`, `Table.checkedRelease_eq`, `Table.checkedGeneration_eq`:
  every slot that is looked into is there
-/

namespace FileTree

section Ranges

variable {α : Type} {l : List α} {a b start stop : Nat}

/-- The part of a list between two places, if they come in this order and the list is as long. -/
def slice? (l : List α) (start stop : Nat) : Option (List α) :=
  if start ≤ stop ∧ stop ≤ l.length then some ((l.drop start).take (stop - start)) else none

theorem slice?_eq (hle : start ≤ stop) (hlen : stop ≤ l.length) :
    slice? l start stop = some ((l.drop start).take (stop - start)) :=
  if_pos ⟨hle, hlen⟩

theorem slice?_zero (hlen : stop ≤ l.length) : slice? l 0 stop = some (l.take stop) :=
  slice?_eq (Nat.zero_le stop) hlen

/-- The difference of two numbers, if it is not below zero. -/
def minus? (a b : Nat) : Option Nat :=
  if b ≤ a then some (a - b) else none

theorem minus?_eq (h : b ≤ a) : minus? a b = some (a - b) :=
  if_pos h

end Ranges

/-! ## Heaps -/

namespace Heap

/-- Takes a buffer back. The counters are checked. -/
def checkedRelease (h : Heap) (b : Buffer) : Option (Except HeapError Heap) :=
  if h.refusesReleases then some (.error (.unknownBuffer b.handle))
  else
    match h.live.lookup b.handle with
    | none => some (.error (.unknownBuffer b.handle))
    | some size =>
      (minus? h.stats.liveBuffers 1).bind fun liveBuffers =>
        (minus? h.stats.bytesInUse size).map fun bytesInUse =>
          .ok { h with
            live := h.live.filter (·.1 != b.handle)
            stats := { h.stats with
              liveBuffers, bytesInUse
              totalReleases := h.stats.totalReleases + 1 } }

/-- The books are kept, under some limit and with some buffers handed out. -/
def KeepsBooks (h : Heap) : Prop :=
  ∃ limit issued, h.Kept limit issued

variable {h h' : Heap} {limit : Option Nat} {issued : List Buffer} {size n : Nat} {b : Buffer}

theorem keepsBooks_run (limit : Option Nat) (calls : List Call) :
    (run { limit := limit } calls).KeepsBooks :=
  ⟨limit, _, kept_run limit calls⟩

theorem KeepsBooks.allocate (hk : h.KeepsBooks) (ha : h.allocate size = .ok (b, h')) :
    h'.KeepsBooks := by
  obtain ⟨limit, issued, hk⟩ := hk
  exact ⟨limit, _, hk.allocate ha⟩

theorem KeepsBooks.release (hk : h.KeepsBooks) (hr : h.release b = .ok h') : h'.KeepsBooks := by
  obtain ⟨limit, issued, hk⟩ := hk
  exact ⟨limit, _, hk.release hr⟩

/-- The counters have counted every handle that is out, with its size. -/
theorem KeepsBooks.counted_of_lookup (hk : h.KeepsBooks) (hl : h.live.lookup n = some size) :
    1 ≤ h.stats.liveBuffers ∧ size ≤ h.stats.bytesInUse := by
  obtain ⟨limit, issued, ⟨out, taken, hb, -⟩, -⟩ := hk
  obtain ⟨b, hmem, heq⟩ := List.mem_map.mp (hb.live.mem_iff.mp (mem_live_of_lookup hl))
  obtain rfl : b.capacity = size := congrArg Prod.snd heq
  rw [hb.liveBuffers_eq, hb.bytesInUse_eq]
  exact ⟨List.length_pos_of_mem hmem, List.le_sum_of_mem (List.mem_map_of_mem hmem)⟩

/-- No counter falls below zero when a buffer is taken back, wherever it comes from. -/
theorem KeepsBooks.checkedRelease_eq (hk : h.KeepsBooks) (b : Buffer) :
    h.checkedRelease b = some (h.release b) := by
  unfold checkedRelease Heap.release
  split_ifs
  · rfl
  cases hl : h.live.lookup b.handle with
  | none => rfl
  | some size =>
    obtain ⟨hone, hsize⟩ := hk.counted_of_lookup hl
    simp only [minus?_eq hone, minus?_eq hsize, Option.bind_some, Option.map_some]

end Heap

/-! ## Content -/

/-- The buffer with `data` written over the part at its start that is as long. -/
def Buffer.checkedFill (b : Buffer) (data : List UInt8) : Option Buffer :=
  (slice? b.bytes 0 data.length).map fun _ => b.fill data

theorem Buffer.checkedFill_eq {b : Buffer} {data : List UInt8} (h : data.length ≤ b.capacity) :
    b.checkedFill data = some (b.fill data) := by
  rw [checkedFill, slice?_zero (b.length_bytes.symm ▸ h), Option.map_some]

/-- The content bytes: the first bytes of the buffer, if it has as many. -/
def Entry.checkedData (e : Entry) : Option (List UInt8) :=
  match e.content with
  | some b => slice? b.bytes 0 e.size
  | none => some []

theorem Entry.checkedData_eq {e : Entry} (h : e.size ≤ e.capacity) :
    e.checkedData = some e.data := by
  unfold checkedData data
  unfold capacity at h
  cases hc : e.content with
  | none => rfl
  | some b =>
    rw [hc] at h
    have hlen : e.size ≤ b.bytes.length := b.length_bytes.symm ▸ h
    simp only [slice?_zero hlen, b.first_eq]

/-! ## Slots -/

namespace Table

/-- Puts an entry into the lowest free slot, which is looked for among the slots. -/
def checkedAllocate (t : Table) (e : Entry) : Option (Except StoreError (EntryId × Table)) :=
  match t.free with
  | [] => some (.error (.tableFull t.capacity))
  | index :: rest =>
    (t.slots[index]?).map fun _ => .ok (⟨index⟩, { t with free := rest }.put ⟨index⟩ e)

/-- Takes an entry out of its slot, whose generation is looked up among the slots. -/
def checkedRelease (t : Table) (id : EntryId) : Option (Except StoreError (Entry × Table)) :=
  if id.isRoot then some (.error .cannotDeleteRoot)
  else
    match t.find? id with
    | none => some (.error (.invalidId id))
    | some e => (t.slots[id.index]?).map fun _ => .ok (e, t.vacate id)

/-- The generation of the slot of an entry, which is looked up among the slots. -/
def checkedGeneration (t : Table) (id : EntryId) : Option (Except StoreError UInt32) :=
  match t.find? id with
  | none => some (.error (.invalidId id))
  | some _ => (t.slots[id.index]?).map fun slot => .ok slot.generation

/-- The number of entries, as the slots that are not free. -/
def checkedSize (t : Table) : Option Nat :=
  minus? t.slots.size t.free.length

variable {t : Table} {id : EntryId} {e : Entry}

/-- The lowest free slot is a slot. -/
theorem Coherent.checkedAllocate_eq (h : t.Coherent) (e : Entry) :
    t.checkedAllocate e = some (t.allocate e) := by
  unfold checkedAllocate allocate
  cases hfree : t.free with
  | nil => rfl
  | cons index rest =>
    simp only [Array.getElem?_eq_getElem (h.head_free hfree).1, Option.map_some]

/-- Filling a slot takes no entry out of its own. -/
theorem exists_find?_of_allocate {t' : Table} {x : EntryId} {new : Entry}
    (ha : t.allocate new = .ok (id, t')) (hf : t.find? x = some e) :
    ∃ e', t'.find? x = some e' := by
  obtain ⟨rest, -, rfl⟩ := allocate_eq_ok_iff.mp ha
  rw [find?_put]
  split_ifs
  · exact ⟨new, rfl⟩
  · exact ⟨e, hf⟩

/-- An entry has a slot. -/
theorem exists_slot (hf : t.find? id = some e) :
    ∃ slot, t.slots[id.index]? = some slot ∧ t.generationAt id = slot.generation := by
  have hlt := index_lt_of_find? hf
  refine ⟨_, Array.getElem?_eq_getElem hlt, ?_⟩
  rw [generationAt, Array.getElem?_eq_getElem hlt, Option.map_some, Option.getD_some]

theorem checkedRelease_eq (t : Table) (id : EntryId) :
    t.checkedRelease id = some (t.release id) := by
  unfold checkedRelease release
  split_ifs
  · rfl
  cases hf : t.find? id with
  | none => rfl
  | some e =>
    obtain ⟨slot, hslot, -⟩ := exists_slot hf
    simp only [hslot, Option.map_some]

theorem checkedGeneration_eq (t : Table) (id : EntryId) :
    t.checkedGeneration id = some (t.generation id) := by
  unfold checkedGeneration generation
  cases hf : t.find? id with
  | none => rfl
  | some e =>
    obtain ⟨slot, hslot, hgeneration⟩ := exists_slot hf
    simp only [hslot, Option.map_some, hgeneration]

theorem Coherent.checkedSize_eq (h : t.Coherent) : t.checkedSize = some t.size :=
  minus?_eq h.length_free_le

end Table

end FileTree
