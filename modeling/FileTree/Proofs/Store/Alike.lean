import FileTree.Proofs.Heap.Balance
import FileTree.Proofs.Store.Change
import FileTree.Proofs.Table.Alike

/-!
# Stores that look alike

How large the buffers are, what becomes of old ones, whether the heap takes them back and what
stands in the log is not to be seen in the tree. Two stores that differ in these alone, over heaps
without a limit, look alike, and every operation has the same answer in both and leaves them alike.

## Main definitions

* `Config.SameLimits`: configurations agree in what limits the tree
* `Store.Alike`: two stores look alike
* `Store.Unseen`: a change that does not show
* `Store.InStep`: two outcomes are the same answer, and stores that look alike

## Main results

* `Store.exists_write_eq`: without a limit on the heap, a file that is written is filled
* `Store.Alike.perform`: an operation has the same answer in stores that look alike, and leaves
  them alike
-/

namespace FileTree

/-- The limit of a heap stays when a buffer is offered back to it. -/
theorem Heap.limit_takeBack (h : Heap) (old : Option Buffer) :
    (h.takeBack old).limit = h.limit := by
  unfold takeBack release
  cases old with
  | none => rfl
  | some b =>
    dsimp only
    split_ifs
    · rfl
    · cases h.live.lookup b.handle <;> rfl

/-- The limit of a heap stays when the old buffer of a file is dealt with. -/
theorem Heap.limit_retire (h : Heap) (policy : WritePolicy) (old : Option Buffer) :
    (h.retire policy old).limit = h.limit := by
  cases policy with
  | releaseOnReplace => exact h.limit_takeBack old
  | leakOnReplace => rfl

/-- No elementary change touches the limit of the heap. -/
theorem Store.Step.limit_eq {s s' : Store} (h : s.Step s') : s'.heap.limit = s.heap.limit := by
  cases h with
  | @fill _ _ _ buffer heap _ _ halloc =>
    obtain ⟨-, rfl, -⟩ := Heap.allocate_eq_ok halloc
    exact Heap.limit_retire _ _ _
  | prune _ _ _ => exact Heap.limit_takeBack _ _
  | _ => rfl

theorem Store.Steps.limit_eq {s s' : Store} (h : s.Steps s') :
    s'.heap.limit = s.heap.limit := by
  induction h with
  | refl => rfl
  | tail _ hstep ih => exact hstep.limit_eq.trans ih

/-- The configurations agree in what limits the tree. They may differ in the room beyond the
content of a file, in the policy for old buffers, and in the size of the log. -/
structure Config.SameLimits (c c' : Config) : Prop where
  maxEntries_eq : c'.maxEntries = c.maxEntries
  maxChildren_eq : c'.maxChildren = c.maxChildren
  maxNameLength_eq : c'.maxNameLength = c.maxNameLength
  maxPathDepth_eq : c'.maxPathDepth = c.maxPathDepth
  maxPathLength_eq : c'.maxPathLength = c.maxPathLength

theorem Config.SameLimits.refl (c : Config) : c.SameLimits c :=
  ⟨rfl, rfl, rfl, rfl, rfl⟩

theorem Config.SameLimits.symm {c c' : Config} (h : c.SameLimits c') : c'.SameLimits c :=
  ⟨h.maxEntries_eq.symm, h.maxChildren_eq.symm, h.maxNameLength_eq.symm, h.maxPathDepth_eq.symm,
    h.maxPathLength_eq.symm⟩

theorem Config.SameLimits.trans {c c' c'' : Config} (h : c.SameLimits c')
    (h' : c'.SameLimits c'') : c.SameLimits c'' :=
  ⟨h'.maxEntries_eq.trans h.maxEntries_eq, h'.maxChildren_eq.trans h.maxChildren_eq,
    h'.maxNameLength_eq.trans h.maxNameLength_eq, h'.maxPathDepth_eq.trans h.maxPathDepth_eq,
    h'.maxPathLength_eq.trans h.maxPathLength_eq⟩

namespace Store

/-- The stores look alike: their tables do, under the same limits, with the cursor at the same
entry, and their heaps have no limit. -/
structure Alike (s t : Store) : Prop where
  table : s.table.Alike t.table
  cursor_eq : t.cursor = s.cursor
  limits : s.config.SameLimits t.config
  unlimited : s.heap.limit = none
  unlimited' : t.heap.limit = none

/-- The store has changed only where it does not show: in the books of its heap and in its log. -/
structure Unseen (s s' : Store) : Prop where
  table_eq : s'.table = s.table
  cursor_eq : s'.cursor = s.cursor
  config_eq : s'.config = s.config
  limit_eq : s'.heap.limit = s.heap.limit

/-- The two outcomes are the same answer, and stores that look alike. -/
inductive InStep {α : Type} : α × Store → α × Store → Prop
  | mk {answer : α} {s t : Store} : s.Alike t → InStep (answer, s) (answer, t)

variable {s s' t t' u : Store} {id : EntryId}

theorem Alike.symm (h : s.Alike t) : t.Alike s :=
  ⟨h.table.symm, h.cursor_eq.symm, h.limits.symm, h.unlimited', h.unlimited⟩

theorem Alike.trans (h : s.Alike t) (h' : t.Alike u) : s.Alike u :=
  ⟨h.table.trans h'.table, h'.cursor_eq.trans h.cursor_eq, h.limits.trans h'.limits, h.unlimited,
    h'.unlimited'⟩

theorem Alike.refl (h : s.heap.limit = none) : s.Alike s :=
  ⟨.refl _, rfl, .refl _, h, h⟩

/-! ## What does not show -/

theorem Unseen.refl (s : Store) : s.Unseen s :=
  ⟨rfl, rfl, rfl, rfl⟩

theorem Unseen.trans (h : s.Unseen s') (h' : s'.Unseen u) : s.Unseen u :=
  ⟨h'.table_eq.trans h.table_eq, h'.cursor_eq.trans h.cursor_eq, h'.config_eq.trans h.config_eq,
    h'.limit_eq.trans h.limit_eq⟩

theorem unseen_record (s : Store) (r : Record) : s.Unseen (s.record r) :=
  ⟨rfl, rfl, rfl, rfl⟩

theorem unseen_note (s : Store) (level : Level) (message : String) (about : Option EntryId) :
    s.Unseen (s.note level message about) :=
  unseen_record s _

theorem unseen_giveBack (s : Store) (id : EntryId) (b : Buffer) : s.Unseen (s.giveBack id b) := by
  obtain ⟨log, heq, -⟩ := exists_log_giveBack s id b
  rw [heq]
  exact ⟨rfl, rfl, rfl, s.heap.limit_takeBack _⟩

/-- Stores that look alike still do when each has changed where it does not show. -/
theorem Alike.unseen (h : s.Alike t) (hs : s.Unseen s') (ht : t.Unseen t') : s'.Alike t' where
  table := by
    rw [hs.table_eq, ht.table_eq]
    exact h.table
  cursor_eq := by rw [hs.cursor_eq, ht.cursor_eq, h.cursor_eq]
  limits := by
    rw [hs.config_eq, ht.config_eq]
    exact h.limits
  unlimited := hs.limit_eq.trans h.unlimited
  unlimited' := ht.limit_eq.trans h.unlimited'

theorem Alike.withTable (h : s.Alike t) {table table' : Table} (htable : table.Alike table') :
    { s with table := table }.Alike { t with table := table' } :=
  ⟨htable, h.cursor_eq, h.limits, h.unlimited, h.unlimited'⟩

/-! ## Operations in step -/

theorem Alike.normalizeName_eq (h : s.Alike t) (name given : String) :
    t.normalizeName name given = s.normalizeName name given := by
  rw [normalizeName, normalizeName, h.limits.maxNameLength_eq]

theorem Alike.create (h : s.Alike t) (kind : EntryKind) (path : String) :
    InStep (s.create kind path) (t.create kind path) := by
  unfold Store.create
  rw [h.normalizeName_eq, h.cursor_eq, h.limits.maxChildren_eq]
  cases s.normalizeName (Path.creationName path) path with
  | error cause => exact .mk h
  | ok name =>
    dsimp only
    rw [h.table.findChild?_eq]
    cases s.table.findChild? s.cursor name with
    | some id => exact .mk h
    | none =>
      rcases h.table.get_cases s.cursor with ⟨cause, hg, hg'⟩ | ⟨dir, dir', hg, hg', heq⟩
      · simp only [hg, hg']
        exact .mk h
      have hchildren : dir.children = dir'.children := congrArg Entry.View.children heq
      simp only [hg, hg', ← hchildren]
      split_ifs
      · exact .mk (h.unseen (unseen_note ..) (unseen_note ..))
      rcases h.table.allocate_cases { name, kind, parent := s.cursor } with
        ⟨cause, ha, ha'⟩ | ⟨id, table, table', ha, ha', htable⟩
      · simp only [ha, ha']
        exact .mk (h.unseen (unseen_note ..) (unseen_note ..))
      · have hlisted := htable.modify s.cursor (·.addChild id) (·.addChild id)
          fun e e' heq => by rw [e.view_addChild, e'.view_addChild, heq]
        simp only [ha, ha']
        exact .mk ⟨hlisted, rfl, h.limits, h.unlimited, h.unlimited'⟩

/-- The buffer for new content has room for it, and is filled from its start. -/
theorem view_withContent (e : Entry) (handle slack : Nat) (data : List UInt8) :
    (e.withContent ((Buffer.zeros handle (data.length + slack)).fill data) data.length).view =
      { e.view with size := data.length, data := data } := by
  have hroom : data.length ≤ (Buffer.zeros handle (data.length + slack)).capacity :=
    Nat.le_add_right _ _
  have hdata := e.data_withContent hroom
  simp only [Entry.view, hdata]
  rfl

/-- Without a limit on the heap, a file that is written is filled. -/
theorem exists_write_eq {e : Entry} (hl : s.heap.limit = none) (hf : s.table.find? id = some e)
    (hk : e.kind = .file) (data : List UInt8) :
    ∃ log, s.write id data = (.ok (), { s.filled id e data
      (Buffer.zeros s.heap.nextHandle (data.length + s.config.writeSlack.toNat))
      (s.heap.lend (data.length + s.config.writeSlack.toNat)) with log := log }) := by
  have hok : (s.write id data).1 = .ok () :=
    (write_eq_ok_iff hf hk).mpr ⟨_, _, Heap.allocate_of_limit_none hl _⟩
  have hw := s.written_write id data
  generalize s.write id data = outcome at hok hw ⊢
  cases hw with
  | refused _ => cases hok
  | exhausted _ _ => cases hok
  | @filled e' buffer heap log _ hf' _ halloc =>
    obtain rfl := Option.some.inj (hf.symm.trans hf')
    rw [Heap.allocate_of_limit_none hl] at halloc
    cases halloc
    exact ⟨log, rfl⟩

theorem Alike.write (h : s.Alike t) (id : EntryId) (data : List UInt8) :
    InStep (s.write id data) (t.write id data) := by
  rcases h.table.find?_cases id with ⟨hf, hf'⟩ | ⟨e, e', hf, hf', heq⟩
  · simp only [Store.write, Table.get, hf, hf']
    exact .mk h
  by_cases hdir : e.isDirectory = true
  · have hdir' := (Entry.isDirectory_eq_of_view_eq heq).trans hdir
    simp only [Store.write, Table.get_of_find? hf, Table.get_of_find? hf', hdir, hdir', if_true]
    exact .mk h
  have hkind : e.kind = e'.kind := congrArg Entry.View.kind heq
  obtain ⟨log, hs⟩ := exists_write_eq h.unlimited hf (Entry.kind_eq_file hdir) data
  obtain ⟨log', ht⟩ :=
    exists_write_eq h.unlimited' hf' (hkind ▸ Entry.kind_eq_file hdir) data
  rw [hs, ht]
  refine .mk ⟨h.table.modify id _ _ fun e e' heq => ?_, h.cursor_eq, h.limits, ?_, ?_⟩
  · rw [view_withContent, view_withContent, heq]
  · exact (Heap.limit_retire _ _ _).trans h.unlimited
  · exact (Heap.limit_retire _ _ _).trans h.unlimited'

theorem Alike.rename (h : s.Alike t) (id : EntryId) (given : String) :
    InStep (s.rename id given) (t.rename id given) := by
  unfold Store.rename
  rcases h.table.get_cases id with ⟨cause, hg, hg'⟩ | ⟨e, e', hg, hg', heq⟩
  · simp only [hg, hg']
    exact .mk h
  have hname : e.name = e'.name := congrArg Entry.View.name heq
  have hparent : e.parent = e'.parent := congrArg Entry.View.parent heq
  simp only [hg, hg', h.normalizeName_eq, h.table.findChild?_eq, ← hname, ← hparent]
  split_ifs
  · exact .mk h
  cases s.normalizeName given given with
  | error cause => exact .mk h
  | ok name =>
    dsimp only
    split_ifs
    · exact .mk h
    · exact .mk h
    · have hrenamed := h.table.modify id (·.renamed name) (·.renamed name)
        fun e e' heq => by rw [e.view_renamed, e'.view_renamed, heq]
      exact .mk ((h.withTable hrenamed).unseen (unseen_note ..) (unseen_note ..))

theorem Alike.changeDirectory (h : s.Alike t) (id : EntryId) :
    InStep (s.changeDirectory id) (t.changeDirectory id) := by
  unfold Store.changeDirectory
  rcases h.table.get_cases id with ⟨cause, hg, hg'⟩ | ⟨e, e', hg, hg', heq⟩
  · simp only [hg, hg']
    exact .mk h
  simp only [hg, hg', Entry.isDirectory_eq_of_view_eq heq]
  split_ifs
  · exact .mk ⟨h.table, rfl, h.limits, h.unlimited, h.unlimited'⟩
  · exact .mk h

/-! ## Deletions in step -/

theorem Alike.leave (h : s.Alike t) (id : EntryId) : (s.leave id).Alike (t.leave id) := by
  unfold Store.leave
  rw [h.cursor_eq]
  split_ifs
  · exact ⟨h.table, rfl, h.limits, h.unlimited, h.unlimited'⟩
  · exact h

/-- Whether the heap takes the buffer back does not show. -/
theorem Alike.removeEntry (h : s.Alike t) (id : EntryId) :
    InStep (s.removeEntry id) (t.removeEntry id) := by
  unfold Store.removeEntry
  rcases h.table.get_cases id with ⟨cause, hg, hg'⟩ | ⟨e, e', hg, hg', heq⟩
  · simp only [hg, hg']
    exact .mk h
  have hparent : e.parent = e'.parent := congrArg Entry.View.parent heq
  have hstruck := h.table.modify e.parent (·.dropChild id) (·.dropChild id)
    fun e e' heq => by rw [e.view_dropChild, e'.view_dropChild, heq]
  simp only [hg, hg', ← hparent]
  rcases hstruck.release_cases id with
    ⟨cause, hr, hr'⟩ | ⟨old, old', table, table', hr, hr', htable⟩
  · simp only [hr, hr']
    exact .mk (h.withTable hstruck)
  · simp only [hr, hr']
    refine .mk (Alike.leave ((h.withTable htable).unseen ?_ ?_) id)
    · cases old.content with
      | none => exact .refl _
      | some b => exact unseen_giveBack ..
    · cases old'.content with
      | none => exact .refl _
      | some b => exact unseen_giveBack ..

theorem Alike.removeAll (h : s.Alike t) (victims : List EntryId) :
    InStep (s.removeAll victims) (t.removeAll victims) := by
  induction victims generalizing s t with
  | nil => exact .mk h
  | cons id rest ih =>
    have hfirst := h.removeEntry id
    unfold Store.removeAll
    generalize s.removeEntry id = o at hfirst ⊢
    generalize t.removeEntry id = o' at hfirst ⊢
    obtain @⟨answer, s', t', h'⟩ := hfirst
    cases answer with
    | error cause => exact .mk h'
    | ok _ => exact ih h'

theorem Alike.delete (h : s.Alike t) (id : EntryId) : InStep (s.delete id) (t.delete id) := by
  unfold Store.delete
  split_ifs
  · exact .mk h
  rcases h.table.get_cases id with ⟨cause, hg, hg'⟩ | ⟨e, e', hg, hg', -⟩
  · simp only [hg, hg']
    exact .mk h
  simp only [hg, hg', walk, h.table.walk_eq, h.cursor_eq]
  cases s.table.walk id with
  | error cause => exact .mk h
  | ok order =>
    have hall := h.removeAll order.reverse
    dsimp only
    generalize s.removeAll order.reverse = o at hall ⊢
    generalize t.removeAll order.reverse = o' at hall ⊢
    obtain @⟨answer, s', t', h'⟩ := hall
    cases answer with
    | error cause => exact .mk h'
    | ok _ =>
      dsimp only
      split_ifs
      · exact .mk (h'.unseen ((unseen_record ..).trans (unseen_note ..))
          ((unseen_record ..).trans (unseen_note ..)))
      · exact .mk (h'.unseen (unseen_record ..) (unseen_record ..))

/-! ## Any operation in step -/

theorem InStep.map {α β : Type} {o o' : Except StoreError α × Store} (h : InStep o o')
    (f : α → β) : InStep (o.1.map f, o.2) (o'.1.map f, o'.2) := by
  cases h with
  | mk h => exact .mk h

/-- **An operation has the same answer in stores that look alike, and leaves them alike.** -/
theorem Alike.perform (h : s.Alike t) (op : Operation) : InStep (s.perform op) (t.perform op) := by
  cases op with
  | createFile path => exact (h.create .file path).map _
  | createDirectory path => exact (h.create .directory path).map _
  | write id data => exact (h.write id data).map _
  | delete id => exact (h.delete id).map _
  | rename id name => exact (h.rename id name).map _
  | changeDirectory id => exact (h.changeDirectory id).map _

end Store

end FileTree
