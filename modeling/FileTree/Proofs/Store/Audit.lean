import FileTree.Proofs.ByPath.Usage
import FileTree.Proofs.Log.Tally

/-!
# What a store does, and what it puts on record

Every entry that a store makes or takes out and every content that it writes is on record: an
operation that changes the number of entries, or asks the heap for a buffer and gets one, says so in
the log, and says how many entries there were. An operation that changes neither may say something
else.

## Main definitions

* `Log.Adds`: what the records tell that were added to a log
* `Store.Audited`: the records added between two stores tell how they differ

## Main results

* `Store.audited_create`, `Store.audited_write`, `Store.Sound.audited_delete` and the like: one
  operation is on record
* `Store.Sound.audited_perform`: so is every operation on a sound store
-/

namespace FileTree

open Record

/-- Records were added to the log that tell of `made` entries made, `gone` entries taken out and
`written` contents written. -/
def Log.Adds (log log' : Log) (made gone written : Nat) : Prop :=
  ∃ rs, log' = rs.foldl Log.record log ∧ creations rs = made ∧ removals rs = gone ∧
    writes rs = written

namespace Log

variable {log log' log'' : Log} {made gone written made' gone' written' : Nat} {r : Record}

theorem Adds.refl (log : Log) : log.Adds log 0 0 0 :=
  ⟨[], rfl, rfl, rfl, rfl⟩

theorem Adds.trans (h : log.Adds log' made gone written)
    (h' : log'.Adds log'' made' gone' written') :
    log.Adds log'' (made + made') (gone + gone') (written + written') := by
  obtain ⟨rs, rfl, rfl, rfl, rfl⟩ := h
  obtain ⟨rs', rfl, rfl, rfl, rfl⟩ := h'
  exact ⟨rs ++ rs', List.foldl_append.symm, creations_append _ _, removals_append _ _,
    writes_append _ _⟩

/-- A record that does not count adds nothing. -/
theorem adds_plain (log : Log) (hr : r.Plain) : log.Adds (log.record r) 0 0 0 :=
  ⟨[r], rfl, hr.creations_eq, hr.removals_eq, hr.writes_eq⟩

theorem adds_created (log : Log) {kind : EntryKind} (hc : r.component = Store.component)
    (hm : r.message = s!"created {kind}") : log.Adds (log.record r) 1 0 0 := by
  have hone : ofStore [r] = [r] := by simp [ofStore, hc]
  refine ⟨[r], rfl, ?_⟩
  cases kind with
  | file =>
    have hm : r.message = "created file" := hm
    simp [creations, removals, writes, hone, hm]
  | directory =>
    have hm : r.message = "created directory" := hm
    simp [creations, removals, writes, hone, hm]

theorem adds_deleted (log : Log) {count : Nat} (hc : r.component = Store.component)
    (hm : r.message = "deleted") (hf : r.field? "entries" = some (toString count)) :
    log.Adds (log.record r) 0 count 0 := by
  have hone : ofStore [r] = [r] := by simp [ofStore, hc]
  refine ⟨[r], rfl, ?_⟩
  simp [creations, removals, writes, hone, hm, entries_eq hf]

theorem adds_written (log : Log) (hc : r.component = Store.component)
    (hm : r.message = "content written") : log.Adds (log.record r) 0 0 1 := by
  have hone : ofStore [r] = [r] := by simp [ofStore, hc]
  refine ⟨[r], rfl, ?_⟩
  simp [creations, removals, writes, hone, hm]

end Log

/-- A heap counts the buffers that it hands out. -/
theorem Heap.totalAllocations_of_allocate {h h' : Heap} {size : Nat} {b : Buffer}
    (ha : h.allocate size = .ok (b, h')) :
    h'.stats.totalAllocations = h.stats.totalAllocations + 1 := by
  obtain ⟨-, rfl, -⟩ := allocate_eq_ok ha
  rfl

/-- What comes back does not change the number of buffers that were handed out. -/
theorem Heap.totalAllocations_of_release {h h' : Heap} {b : Buffer} (hr : h.release b = .ok h') :
    h'.stats.totalAllocations = h.stats.totalAllocations := by
  obtain ⟨size, -, rfl⟩ := release_eq_ok hr
  rfl

namespace Table

variable {t : Table} {id : EntryId} {e : Entry}

/-- A new table has the root in it and nothing else. -/
theorem size_new (capacity : Nat) : (new capacity).size = 1 := by
  simp only [size, new, Array.set!_eq_setIfInBounds, Array.size_setIfInBounds, Array.size_replicate,
    List.length_range']
  omega

@[simp] theorem size_modify (t : Table) (id : EntryId) (f : Entry → Entry) :
    (t.modify id f).size = t.size := by
  simp [size, modify]

/-- An entry put into a free slot is one more. -/
theorem Coherent.size_attach (h : t.Coherent) {rest : List Nat} (hf : t.free = id.index :: rest)
    (e : Entry) : (t.attach rest id e).size = t.size + 1 := by
  have hle := h.length_free_le
  rw [hf, List.length_cons] at hle
  have hfree : (t.attach rest id e).free = rest := rfl
  rw [size, size, size_slots_attach, hfree, hf, List.length_cons]
  omega

end Table

namespace Store

variable {s s' s'' : Store} {id : EntryId} {victims : List EntryId}

/-- The records that were added between the stores tell how many entries there are more, and how
many buffers the heap handed out. -/
def Audited (s s' : Store) : Prop :=
  ∃ made gone written, s.log.Adds s'.log made gone written ∧
    s.table.size + made = s'.table.size + gone ∧
    s.heap.stats.totalAllocations + written = s'.heap.stats.totalAllocations

theorem Audited.refl (s : Store) : s.Audited s :=
  ⟨0, 0, 0, .refl _, rfl, rfl⟩

theorem Audited.trans (h : s.Audited s') (h' : s'.Audited s'') : s.Audited s'' := by
  obtain ⟨made, gone, written, hlog, hsize, hgiven⟩ := h
  obtain ⟨made', gone', written', hlog', hsize', hgiven'⟩ := h'
  exact ⟨_, _, _, hlog.trans hlog', by omega, by omega⟩

/-- The records that were added between the stores do not count, and the heap handed out nothing. -/
def Remarked (s s' : Store) : Prop :=
  s.log.Adds s'.log 0 0 0 ∧ s'.heap.stats.totalAllocations = s.heap.stats.totalAllocations

theorem Remarked.trans (h : s.Remarked s') (h' : s'.Remarked s'') : s.Remarked s'' :=
  ⟨h.1.trans h'.1, h'.2.trans h.2⟩

theorem Remarked.audited (h : s.Remarked s') (hsize : s'.table.size = s.table.size) :
    s.Audited s' :=
  ⟨0, 0, 0, h.1, by rw [hsize], by rw [h.2, Nat.add_zero]⟩

theorem audited_record {r : Record} (hr : r.Plain) : s.Audited (s.record r) :=
  Remarked.audited ⟨s.log.adds_plain hr, rfl⟩ rfl

theorem audited_note {level : Level} {message : String} {about : Option EntryId}
    (hm : message ∉ counted) : s.Audited (s.note level message about) :=
  audited_record (plain_of_message hm)

/-! ## A fresh store -/

/-- The log of a fresh store has one record, which does not count. -/
theorem exists_log_init (id : StoreId) (config : Config) (heap : Heap) :
    ∃ r : Record, r.Plain ∧
      (init id config heap).log = Log.record { capacity := config.logCapacity.toNat } r := by
  have hm : "store initialized" ∉ counted := by decide
  exact ⟨_, plain_of_message hm, rfl⟩

theorem size_init (id : StoreId) (config : Config) (heap : Heap) :
    (init id config heap).table.size = 1 :=
  Table.size_new _

/-! ## Making an entry, renaming one, moving the cursor -/

theorem audited_create (hs : s.Sound) (kind : EntryKind) (path : String) :
    s.Audited (s.create kind path).2 := by
  unfold create
  split
  · exact .refl s
  split
  · exact .refl s
  split
  · exact .refl s
  split_ifs
  · exact audited_note (by decide)
  split
  · exact audited_note (by decide)
  · rename_i id table halloc
    obtain ⟨rest, hrest, rfl⟩ := Table.allocate_eq_ok_iff.mp halloc
    refine ⟨1, 0, 0, Log.adds_created _ rfl rfl, ?_, rfl⟩
    exact (hs.coherent.size_attach hrest _).symm

theorem audited_rename (s : Store) (id : EntryId) (name : String) :
    s.Audited (s.rename id name).2 := by
  unfold rename
  split
  · exact .refl s
  split_ifs
  · exact .refl s
  split
  · exact .refl s
  split_ifs
  · exact .refl s
  · exact .refl s
  · have hm : "renamed" ∉ counted := by decide
    exact Remarked.audited ⟨Log.adds_plain _ (plain_of_message hm), rfl⟩ (Table.size_modify _ _ _)

theorem audited_changeDirectory (s : Store) (id : EntryId) :
    s.Audited (s.changeDirectory id).2 := by
  unfold changeDirectory
  split
  · exact .refl s
  split_ifs
  · have hm : "cursor moved" ∉ counted := by decide
    exact Remarked.audited ⟨Log.adds_plain _ (plain_of_message hm), rfl⟩ rfl
  · exact .refl s

/-! ## Giving buffers back, and writing -/

/-- What the store says when the heap refuses a buffer does not count. -/
theorem refusal_not_mem_counted (reason : String) : "release failed: " ++ reason ∉ counted := by
  -- The reason is arbitrary, so the texts are told apart by their first letter.
  have hhead : ∀ text ∈ counted, text.toList.head? ≠ some 'r' := by decide
  intro hm
  exact hhead _ hm (by simp)

theorem remarked_giveBack (s : Store) (id : EntryId) (b : Buffer) :
    s.Remarked (s.giveBack id b) := by
  unfold giveBack
  split
  · rename_i heap hr
    exact ⟨.refl _, Heap.totalAllocations_of_release hr⟩
  · exact ⟨Log.adds_plain _ (plain_of_message (refusal_not_mem_counted _)), rfl⟩

theorem table_giveBack (s : Store) (id : EntryId) (b : Buffer) :
    (s.giveBack id b).table = s.table := by
  unfold giveBack
  split <;> rfl

theorem audited_giveBack (s : Store) (id : EntryId) (b : Buffer) :
    s.Audited (s.giveBack id b) :=
  (remarked_giveBack s id b).audited (congrArg Table.size (table_giveBack s id b))

theorem audited_retire (s : Store) (id : EntryId) (b : Buffer) : s.Audited (s.retire id b) := by
  unfold retire
  split
  · exact audited_giveBack s id b
  · exact audited_note (by decide)

/-- A new buffer is on record when the old one has been dealt with. -/
theorem Audited.written {r : Record} (h : s'.Audited s'') (hlog : s'.log = s.log)
    (hsize : s'.table.size = s.table.size)
    (hgiven : s'.heap.stats.totalAllocations = s.heap.stats.totalAllocations + 1)
    (hc : r.component = component) (hm : r.message = "content written") :
    s.Audited (s''.record r) := by
  obtain ⟨made, gone, written, hadds, hentries, hbuffers⟩ := h
  refine ⟨made, gone, written + 1, hlog ▸ hadds.trans (Log.adds_written _ hc hm), ?_, ?_⟩
  · rw [← hsize]
    exact hentries
  · rw [heap_record, ← hbuffers, hgiven]
    omega

theorem audited_write (s : Store) (id : EntryId) (data : List UInt8) :
    s.Audited (s.write id data).2 := by
  unfold write
  split
  · exact .refl s
  rename_i entry _
  split_ifs
  · exact .refl s
  split
  · exact audited_note (by decide)
  rename_i buffer heap ha
  have hone := Heap.totalAllocations_of_allocate ha
  cases entry.content with
  | none => exact (Audited.refl _).written rfl (Table.size_modify _ _ _) hone rfl rfl
  | some old =>
    exact (audited_retire _ id old).written rfl (Table.size_modify _ _ _) hone rfl rfl

/-! ## Deleting -/

theorem remarked_removeEntry (s : Store) (id : EntryId) : s.Remarked (s.removeEntry id).2 := by
  unfold removeEntry
  split
  · exact ⟨.refl _, rfl⟩
  dsimp only
  split
  · exact ⟨.refl _, rfl⟩
  rename_i entry table _
  have hleave : ∀ s' : Store, s'.Remarked (s'.leave id) := by
    intro s'
    unfold leave
    split_ifs <;> exact ⟨.refl _, rfl⟩
  dsimp only
  cases entry.content with
  | none => exact hleave _
  | some b => exact (remarked_giveBack { s with table := table } id b).trans (hleave _)

/-- Entries that are taken out one after the other go without a record that counts. -/
theorem remarked_removeAll (s : Store) (ids : List EntryId) : s.Remarked (s.removeAll ids).2 := by
  induction ids generalizing s with
  | nil => exact ⟨.refl _, rfl⟩
  | cons id rest ih =>
    have hfirst := remarked_removeEntry s id
    rw [removeAll]
    generalize s.removeEntry id = outcome at hfirst ⊢
    obtain ⟨e | _, s₁⟩ := outcome
    · exact hfirst
    · exact hfirst.trans (ih s₁)

/-- A deletion puts one number on record, that of the entries that it takes out. -/
theorem Sound.audited_delete (hs : s.Sound) (id : EntryId) : s.Audited (s.delete id).2 := by
  unfold delete
  split_ifs with hroot
  · exact .refl s
  have hne : id ≠ .root := fun heq => hroot (id.isRoot_iff.mpr heq)
  cases hget : s.table.get id with
  | error cause => exact .refl s
  | ok e =>
    obtain ⟨order, hwalk, hpre, -, -⟩ := hs.linked.exists_walk (Table.get_eq_ok_iff.mp hget)
    have hv := hpre.removable_reverse hs.linked hne
    obtain ⟨s', hs', hp⟩ := exists_removeAll hs hv
    have hremarks := remarked_removeAll s order.reverse
    have hsize := hp.size_eq hs hv
    rw [hs'] at hremarks
    rw [List.length_reverse] at hsize
    have key : ∀ r : Record, r.component = component → r.message = "deleted" →
        r.field? "entries" = some (toString order.length) → s.Audited (s'.record r) := by
      intro r hc hm hf
      refine ⟨0, order.length, 0, ?_, hsize.symm, hremarks.2.symm⟩
      have hadds := hremarks.1.trans (Log.adds_deleted s'.log hc hm hf)
      rw [Nat.zero_add order.length] at hadds
      exact hadds
    simp only [walk, hwalk, hs']
    split_ifs
    · exact (key _ rfl rfl rfl).trans (audited_note (by decide))
    · exact key _ rfl rfl rfl

/-- **Every operation on a sound store is on record.** -/
theorem Sound.audited_perform (hs : s.Sound) (op : Operation) : s.Audited (s.perform op).2 := by
  cases op with
  | createFile path => exact audited_create hs .file path
  | createDirectory path => exact audited_create hs .directory path
  | write id data => exact audited_write s id data
  | delete id => exact hs.audited_delete id
  | rename id name => exact audited_rename s id name
  | changeDirectory id => exact audited_changeDirectory s id

end Store

end FileTree
