import FileTree.Proofs.Heap.Calls
import FileTree.Proofs.Store.Ledger

/-!
# What a write leaves

Every write asks the heap for a buffer of its own, longer than the data, before the old buffer is
dealt with. So a write is granted exactly when the limit leaves room for the new buffer beside all
that is out, the old buffer of the file included. Afterwards the file holds the data: what the
buffer has beyond them, and what the file held before, is never read. Nothing else changes.

## Main definitions

* `Store.OnBooks`: what entries hold is out on the books of the heap
* `Store.Rewritten`: a store is another one with the content of one file replaced
* `Store.TakesData`, `Store.RefusesData`: what writing and reading come to on a file, and on a
  directory

## Main results

* `Heap.exists_allocate_iff`: what a heap grants
* `Store.Step.onBooks`: every elementary change keeps the books in agreement with the tree
* `Store.Written.rewritten`: what a write that succeeds leaves
* `Store.Reachable.takesData_or_refusesData`: what writing and reading come to, on every entry
-/

namespace FileTree

/-- A heap grants what its limit leaves. -/
theorem Heap.exists_allocate_iff {h : Heap} {size : Nat} :
    (∃ b h', h.allocate size = .ok (b, h')) ↔
      h.limit = none ∨ ∃ n, h.limit = some n ∧ size ≤ n - h.stats.bytesInUse := by
  cases hl : h.limit with
  | none => simp [allocate_of_limit_none hl]
  | some n =>
    simp only [allocate, available, hl, Option.map_some]
    by_cases hgt : size > n - h.stats.bytesInUse
    · simp [hgt]
    · simp [hgt, Nat.not_lt.mp hgt]

namespace Store

variable {s s' : Store} {id : EntryId} {e : Entry} {data : List UInt8} {limit : Option Nat}
  {config : Config} {heap : Heap}

/-! ## The books -/

/-- What entries hold is out on the books of the heap, perhaps with other buffers: those that have
leaked, and those that were out before the store was made. -/
def OnBooks (s : Store) (limit : Option Nat) : Prop :=
  ∃ others given taken, s.heap.Balances limit (s.table.held ++ others) given taken

/-- The old buffer of a rewritten file is taken back, or is one of the others from now on. -/
theorem exists_balances_retire {policy : WritePolicy} {held others : List Buffer}
    {old : Option Buffer} {given taken : Nat}
    (h : heap.Balances limit (old.toList ++ (held ++ others)) given taken) :
    ∃ others' taken', (heap.retire policy old).Balances limit (held ++ others') given taken' := by
  cases policy with
  | releaseOnReplace => exact ⟨others, _, balances_takeBack h⟩
  | leakOnReplace =>
    have hmove : (old.toList ++ (held ++ others)).Perm (held ++ (old.toList ++ others)) := by
      rw [← List.append_assoc, ← List.append_assoc]
      exact List.perm_append_comm.append_right _
    exact ⟨old.toList ++ others, taken, h.perm (hmove.map _)⟩

/-- Every elementary change keeps the books in agreement with the tree. -/
theorem Step.onBooks (h : s.Step s') (hs : s.Sound) (ha : s.OnBooks limit) :
    s'.OnBooks limit := by
  obtain ⟨others, given, taken, hb⟩ := ha
  cases h with
  | relog _ => exact ⟨others, given, taken, hb⟩
  | move _ _ => exact ⟨others, given, taken, hb⟩
  | @add name kind dir id rest _ _ _ hdir _ hfree =>
    have hheld : (s.table.attach rest id { name, kind, parent := s.cursor }).held =
        s.table.held :=
      hs.coherent.held_attach hfree (hs.attachable hdir hfree).ne_parent rfl
    exact ⟨others, given, taken, by rwa [← hheld] at hb⟩
  | @fill id e data buffer heap hf _ halloc =>
    obtain ⟨others', taken', hb'⟩ := exists_balances_retire
      ((hb.allocate halloc).perm (out_perm_filled hf data buffer heap others))
    exact ⟨others', _, taken', hb'⟩
  | @rename id e name _ _ _ _ _ =>
    have hheld : (s.table.modify id (·.renamed name)).held = s.table.held :=
      Table.held_modify _ fun _ => rfl
    exact ⟨others, given, taken, by rwa [← hheld] at hb⟩
  | @prune id e hf _ _ =>
    exact ⟨others, given, _, balances_takeBack (hb.perm (out_perm_pruned hf others))⟩

/-- Over a heap that was used before, whatever for, the books agree with the tree in every store
that can be reached. -/
theorem Reachable.onBooks {calls : List Heap.Call}
    (hs : Reachable config (Heap.run { limit := limit } calls) s) : s.OnBooks limit := by
  obtain ⟨id, s₀, hs₀, hr⟩ := hs
  obtain ⟨hc, rfl⟩ := fresh_eq_ok_iff.mp hs₀
  have hsound := sound_init hc id (Heap.run { limit := limit } calls)
  have hsteps := hr.steps hsound
  clear hr hs₀
  induction hsteps with
  | refl =>
    obtain ⟨out, taken, hb, -⟩ := (Heap.kept_run limit calls).balances
    exact ⟨out, _, taken, by rw [held_init]; exact hb⟩
  | tail hpast hstep ih => exact hstep.onBooks (Steps.sound hpast hsound) ih

theorem OnBooks.limit_eq (h : s.OnBooks limit) : s.heap.limit = limit := by
  obtain ⟨others, given, taken, hb⟩ := h
  exact hb.limit_eq

/-- The bytes in use are those of the buffers that are out. -/
theorem OnBooks.bytesInUse_eq (h : s.OnBooks limit) :
    s.heap.stats.bytesInUse = (s.heap.live.map Prod.snd).sum := by
  obtain ⟨others, given, taken, hb⟩ := h
  rw [hb.bytesInUse_eq, (hb.live.map Prod.snd).sum_nat, List.map_map]
  rfl

/-- A buffer that an entry holds is out. -/
theorem OnBooks.ticket_mem (h : s.OnBooks limit) {b : Buffer}
    (hf : s.table.find? id = some e) (hb : e.content = some b) : b.ticket ∈ s.heap.live := by
  obtain ⟨others, given, taken, hbal⟩ := h
  have hheld : b ∈ s.table.held :=
    Table.mem_held.mpr ⟨id, (Table.contentAt_of_find? hf).trans hb⟩
  exact hbal.live.mem_iff.mpr (List.mem_map_of_mem (List.mem_append_left _ hheld))

/-! ## Writing and reading -/

/-- A store is another one with the content of one file replaced. -/
structure Rewritten (s : Store) (id : EntryId) (e : Entry) (data : List UInt8) (s' : Store) :
    Prop where
  readAll_eq : s'.readAll id = .ok data
  /-- Reading replaces the start of the target, as far as both go, and leaves the rest of it. -/
  read_eq : ∀ target, ∃ out, s'.read id target = .ok (min target.length data.length, out) ∧
    out.take (min target.length data.length) = data.take (min target.length data.length) ∧
    out.drop (min target.length data.length) = target.drop (min target.length data.length)
  /-- The entry has room beyond the data, and its name, kind and links are as before. -/
  exists_entry : ∃ e', s'.table.find? id = some e' ∧ e'.size = data.length ∧
    e'.capacity = data.length + s.config.writeSlack.toNat ∧
    e' = { e with content := e'.content, size := e'.size }
  others_eq : ∀ x, x ≠ id → s'.table.find? x = s.table.find? x
  generationAt_eq : ∀ x, s'.table.generationAt x = s.table.generationAt x
  free_eq : s'.table.free = s.table.free
  cursor_eq : s'.cursor = s.cursor
  config_eq : s'.config = s.config
  id_eq : s'.id = s.id

/-- Reading copies the start of the content over the start of the target. -/
theorem exists_read_eq (h : s.readAll id = .ok data) (target : List UInt8) :
    ∃ out, s.read id target = .ok (min target.length data.length, out) ∧
      out.take (min target.length data.length) = data.take (min target.length data.length) ∧
      out.drop (min target.length data.length) = target.drop (min target.length data.length) := by
  have hlen : (data.take (min target.length data.length)).length =
      min target.length data.length := by
    rw [List.length_take, Nat.min_assoc, Nat.min_self]
  exact ⟨_, by simp only [read, h], List.take_left' hlen, List.drop_left' hlen⟩

/-- What a write that succeeds leaves. -/
theorem Written.rewritten (h : s.Written id data (.ok (), s')) (hf : s.table.find? id = some e) :
    s.Rewritten id e data s' := by
  cases h with
  | @filled e' buffer heap log _ hf' hk halloc =>
    obtain rfl := Option.some.inj (hf'.symm.trans hf)
    have hcap : buffer.capacity = data.length + s.config.writeSlack.toNat := by
      rw [(Heap.allocate_eq_ok halloc).1]
      rfl
    have hentry : { s.filled id e' data buffer heap with log := log }.table.find? id =
        some (e'.withContent (buffer.fill data) data.length) := by
      show (Table.modify _ _ _).find? id = _
      rw [Table.find?_modify, if_pos rfl, hf, Option.map_some]
    have hread : { s.filled id e' data buffer heap with log := log }.readAll id = .ok data := by
      have hdir : ¬ (e'.withContent (buffer.fill data) data.length).isDirectory = true :=
        Entry.not_isDirectory hk
      simp only [readAll, Table.get_of_find? hentry, if_neg hdir]
      rw [e'.data_withContent (hcap ▸ Nat.le_add_right _ _)]
    exact {
      readAll_eq := hread
      read_eq := exists_read_eq hread
      exists_entry := ⟨_, hentry, rfl, (Buffer.capacity_fill ..).trans hcap, rfl⟩
      others_eq := fun x hx => (Table.find?_modify _ _ _ _).trans (if_neg (Ne.symm hx))
      generationAt_eq := fun x => Table.generationAt_modify _ _ x _
      free_eq := rfl
      cursor_eq := rfl
      config_eq := rfl
      id_eq := rfl }

/-- A write that succeeds replaces the content of a file. -/
theorem exists_rewritten_of_write (h : s.write id data = (.ok (), s')) :
    ∃ e, s.table.find? id = some e ∧ e.kind = .file ∧ s.Rewritten id e data s' := by
  have hw := s.written_write id data
  rw [h] at hw
  cases hw with
  | filled hq hf hk halloc => exact ⟨_, hf, hk, (Written.filled hq hf hk halloc).rewritten hf⟩

/-- What writing and reading come to on a file, over a heap of the given limit. -/
structure TakesData (s : Store) (limit : Option Nat) (id : EntryId) (e : Entry) : Prop where
  /-- The buffer of the file is out, and what is out is in use. -/
  in_use : ∀ old, e.content = some old → old.ticket ∈ s.heap.live
  bytesInUse_eq : s.heap.stats.bytesInUse = (s.heap.live.map Prod.snd).sum
  write_ok_iff : ∀ data, (s.write id data).1 = .ok () ↔ limit = none ∨
    ∃ n, limit = some n ∧
      data.length + s.config.writeSlack.toNat ≤ n - s.heap.stats.bytesInUse
  rewritten : ∀ data, (s.write id data).1 = .ok () → s.Rewritten id e data (s.write id data).2

/-- What writing and reading come to on a directory. -/
structure RefusesData (s : Store) (id : EntryId) : Prop where
  write_eq : ∀ data, s.write id data = (.error (.notAFile id), s)
  read_eq : ∀ target, s.read id target = .error (.notAFile id)
  readAll_eq : s.readAll id = .error (.notAFile id)

theorem refusesData (hf : s.table.find? id = some e) (hk : e.kind = .directory) :
    s.RefusesData id := by
  have hdir : e.isDirectory = true := Entry.isDirectory_iff.mpr hk
  have hread : s.readAll id = .error (.notAFile id) := by
    simp only [readAll, Table.get_of_find? hf, hdir, if_true]
  refine ⟨fun data => ?_, fun target => ?_, hread⟩
  · simp only [write, Table.get_of_find? hf, hdir, if_true]
  · simp only [read, hread]

/-- **What writing and reading come to, on every entry of a reachable store.** A file takes what
the limit leaves room for, and from then on holds exactly that; a directory takes nothing. -/
theorem Reachable.takesData_or_refusesData {calls : List Heap.Call}
    (hs : Reachable config (Heap.run { limit := limit } calls) s)
    (hf : s.table.find? id = some e) :
    (e.kind = .file → s.TakesData limit id e) ∧ (e.kind = .directory → s.RefusesData id) := by
  refine ⟨fun hk => ?_, refusesData hf⟩
  have hbooks := hs.onBooks
  refine ⟨fun old hold => hbooks.ticket_mem hf hold, hbooks.bytesInUse_eq, fun data => ?_,
    fun data hok => ?_⟩
  · rw [write_eq_ok_iff hf hk, Heap.exists_allocate_iff, hbooks.limit_eq]
  · have hw := s.written_write id data
    generalize s.write id data = outcome at hw hok ⊢
    obtain ⟨answer, s'⟩ := outcome
    obtain rfl : answer = .ok () := hok
    exact hw.rewritten hf

/-- One byte was out before the store was made, and the file has a buffer of four. The limit leaves
room for seven more, though the four are to come back: five bytes and the slack fit exactly, and
six do not. -/
theorem Reachable.takesData_or_refusesData_of_exact_fit :
    let config : Config := { maxEntries := 4, writeSlack := 2 }
    let calls : List Heap.Call := [.allocate 1]
    let s := (init ⟨0⟩ config (Heap.run { limit := some 12 } calls)).run
      [.createFile "a", .write ⟨1⟩ [1, 2], .createDirectory "d"]
    let old := (Buffer.zeros 1 4).fill [1, 2]
    let e : Entry := { name := "a", kind := .file, parent := .root, content := old, size := 2 }
    let d : Entry := { name := "d", kind := .directory, parent := .root }
    (Reachable config (Heap.run { limit := some 12 } calls) s ∧
      s.table.find? ⟨1⟩ = some e ∧ s.table.find? ⟨2⟩ = some d ∧
      (s.write ⟨1⟩ [1, 2, 3, 4, 5]).1 = .ok () ∧
      (s.write ⟨1⟩ [1, 2, 3, 4, 5, 6]).1 = .error (.allocation (.outOfMemory 8 7))) ∧
      s.TakesData (some 12) ⟨1⟩ e ∧ s.RefusesData ⟨2⟩ := by
  intro config calls s old e d
  have hs : Reachable config (Heap.run { limit := some 12 } calls) s :=
    reachable_run rfl ⟨0⟩ _ _
  have he : s.table.find? ⟨1⟩ = some e := by decide +kernel
  have hd : s.table.find? ⟨2⟩ = some d := by decide +kernel
  refine ⟨⟨hs, he, hd, ?_, ?_⟩, (hs.takesData_or_refusesData he).1 rfl,
    (hs.takesData_or_refusesData hd).2 rfl⟩
  all_goals decide +kernel

end Store

end FileTree
