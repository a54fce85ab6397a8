import FileTree.Proofs.Store.Operation
import FileTree.Proofs.Table.Slots

/-!
# What an operation can come to

Each operation that does not delete is refused, with at most a record in the log, or makes one
elementary change: the cursor moves, an entry is added, a file is filled, an entry is renamed.
Deleting takes out one entry after the other, which is the fifth elementary change.

## Main definitions

* `Heap.Grants`, `Heap.takeBack`: a buffer offered back
* `Store.pruned`, `Store.filled`: an entry taken out, and a file filled
* `Store.Created`, `Store.Written`, `Store.Renamed`, `Store.Moved`: the outcomes of the operations
* `Store.Step`: an elementary change

## Main results

* `Store.created_create`, `Store.written_write`, `Store.renamed_rename`,
  `Store.moved_changeDirectory`: an operation has one of its outcomes
-/

namespace FileTree

/-- A file filled with `data` has that content. -/
theorem Entry.data_withContent (e : Entry) {b : Buffer} {data : List UInt8}
    (h : data.length ≤ b.capacity) : (e.withContent (b.fill data) data.length).data = data := by
  show (b.fill data).first data.length = data
  rw [Buffer.first_eq, Buffer.bytes_fill, List.take_of_length_le h,
    List.take_append_of_le_length (Nat.le_refl _), List.take_length]

/-- The heap takes the buffer back if it is offered. -/
def Heap.Grants (h : Heap) (old : Option Buffer) : Prop :=
  ∀ b, old = some b → ∃ h', h.release b = .ok h'

/-- The heap after a buffer was offered back to it; a buffer that it refuses changes nothing. -/
def Heap.takeBack (h : Heap) : Option Buffer → Heap
  | none => h
  | some b =>
    match h.release b with
    | .ok h' => h'
    | .error _ => h

/-- The heap after the old buffer of a rewritten file was dealt with. -/
def Heap.retire (h : Heap) (policy : WritePolicy) (old : Option Buffer) : Heap :=
  match policy with
  | .releaseOnReplace => h.takeBack old
  | .leakOnReplace => h

namespace Store

variable {s s' : Store} {id : EntryId} {kind : EntryKind} {path name : String}
  {data : List UInt8}

/-- The store without an entry that has no children: its buffer is offered back to the heap, and
the cursor leaves it. -/
def pruned (s : Store) (id : EntryId) (e : Entry) : Store :=
  { s with
    table := s.table.detach id e.parent
    heap := s.heap.takeBack e.content
    cursor := if s.cursor = id then .root else s.cursor }

/-- The store after a file was filled from a buffer of the given heap. -/
def filled (s : Store) (id : EntryId) (e : Entry) (data : List UInt8) (buffer : Buffer)
    (heap : Heap) : Store :=
  { s with
    table := s.table.modify id (·.withContent (buffer.fill data) data.length)
    heap := heap.retire s.config.writePolicy e.content }

theorem normalizeName_eq_ok_iff {given cut : String} :
    s.normalizeName name given = .ok cut ↔
      cut = Record.cut s.config.maxNameLength.toNat name ∧ cut ≠ "" := by
  unfold normalizeName
  by_cases h : Record.cut s.config.maxNameLength.toNat name = ""
  · rw [if_pos (String.isEmpty_iff.mpr h)]
    constructor
    · intro heq
      cases heq
    · rintro ⟨rfl, hne⟩
      exact absurd h hne
  · rw [if_neg fun hc => h (String.isEmpty_iff.mp hc), Except.ok.injEq]
    constructor
    · rintro rfl
      exact ⟨rfl, h⟩
    · rintro ⟨rfl, -⟩
      rfl

theorem length_cut_le (n : Nat) (text : String) : (Record.cut n text).length ≤ n := by
  rw [Record.cut, String.length_ofList, List.length_take]
  exact Nat.min_le_left _ _

/-! ## Making an entry -/

/-- What the making of an entry can come to. -/
inductive Created (s : Store) (kind : EntryKind) (path : String) :
    Except StoreError EntryId × Store → Prop
  | refused {cause : StoreError} {s' : Store} : s.Noted s' → Created s kind path (.error cause, s')
  | found {name : String} {id : EntryId} :
      s.normalizeName (Path.creationName path) path = .ok name →
      s.table.findChild? s.cursor name = some id → Created s kind path (.ok id, s)
  | made {name : String} {dir : Entry} {id : EntryId} {rest : List Nat} {r : Record} :
      r.level ≠ .error →
      s.normalizeName (Path.creationName path) path = .ok name →
      s.table.findChild? s.cursor name = none →
      s.table.find? s.cursor = some dir →
      dir.children.length < s.config.maxChildren.toNat →
      s.table.free = id.index :: rest →
      Created s kind path (.ok id,
        { s with table := s.table.attach rest id { name, kind, parent := s.cursor } }.record r)

theorem created_create (s : Store) (kind : EntryKind) (path : String) :
    s.Created kind path (s.create kind path) := by
  unfold create
  split
  · exact .refused (.refl s)
  rename_i name hname
  split
  · rename_i id hfound
    exact .found hname hfound
  rename_i hfree
  split
  · exact .refused (.refl s)
  rename_i dir hdir
  split_ifs with hfull
  · exact .refused (noted_note s (by decide) _ _)
  split
  · exact .refused (noted_note s (by decide) _ _)
  rename_i id table halloc
  obtain ⟨rest, hrest, rfl⟩ := Table.allocate_eq_ok_iff.mp halloc
  exact .made (by simp) hname hfree (Table.get_eq_ok_iff.mp hdir) (Nat.lt_of_not_le hfull) hrest

/-! ## Writing -/

/-- What the writing of a file can come to. -/
inductive Written (s : Store) (id : EntryId) (data : List UInt8) :
    Except StoreError Unit × Store → Prop
  | refused {cause : StoreError} : (∀ ⦃e⦄, s.table.find? id = some e → e.kind = .directory) →
      Written s id data (.error cause, s)
  | exhausted {cause : HeapError} {s' : Store} :
      s.heap.allocate (data.length + s.config.writeSlack.toNat) = .error cause → s.Noted s' →
      Written s id data (.error (.allocation cause), s')
  | filled {e : Entry} {buffer : Buffer} {heap : Heap} {log : Log} :
      (heap.Grants e.content → s.log.Quiet → log.Quiet) →
      s.table.find? id = some e → e.kind = .file →
      s.heap.allocate (data.length + s.config.writeSlack.toNat) = .ok (buffer, heap) →
      Written s id data (.ok (), { s.filled id e data buffer heap with log := log })

theorem exists_log_giveBack (s : Store) (id : EntryId) (b : Buffer) :
    ∃ log, s.giveBack id b = { s with heap := s.heap.takeBack (some b), log := log } ∧
      (s.heap.Grants (some b) → log = s.log) := by
  cases h : s.heap.release b with
  | ok heap => exact ⟨s.log, by simp only [giveBack, Heap.takeBack, h], fun _ => rfl⟩
  | error e =>
    refine ⟨_, by simp only [giveBack, Heap.takeBack, h]; rfl, fun hg => ?_⟩
    obtain ⟨heap, hok⟩ := hg b rfl
    rw [h] at hok
    cases hok

theorem exists_log_retire (s : Store) (id : EntryId) (b : Buffer) :
    ∃ log, s.retire id b =
        { s with heap := s.heap.retire s.config.writePolicy (some b), log := log } ∧
      (s.heap.Grants (some b) → s.log.Quiet → log.Quiet) := by
  unfold retire Heap.retire
  cases s.config.writePolicy with
  | releaseOnReplace =>
    obtain ⟨log, heq, hlog⟩ := exists_log_giveBack s id b
    exact ⟨log, heq, fun hg hq => (hlog hg).symm ▸ hq⟩
  | leakOnReplace => exact ⟨_, rfl, fun _ hq => hq.record (by simp)⟩

theorem written_write (s : Store) (id : EntryId) (data : List UInt8) :
    s.Written id data (s.write id data) := by
  unfold write
  split
  · rename_i cause herror
    have hnone := (Table.get_eq_error_iff.mp herror).1
    exact .refused fun e he => by simp [hnone] at he
  rename_i e he
  have hfind := Table.get_eq_ok_iff.mp he
  split_ifs with hdir
  · apply Written.refused
    intro e' he'
    obtain rfl := Option.some.inj (hfind.symm.trans he')
    exact beq_iff_eq.mp hdir
  split
  · rename_i halloc
    exact .exhausted halloc (noted_note s (by decide) _ _)
  rename_i buffer heap halloc
  have hkind := Entry.kind_eq_file hdir
  cases hc : e.content with
  | none =>
    have hheap : heap = heap.retire s.config.writePolicy e.content := by
      rw [hc]
      cases s.config.writePolicy <;> rfl
    have key := fun (r : Record) (hr : r.level ≠ .error) =>
      Written.filled (fun _ hq => Log.Quiet.record hq hr) hfind hkind halloc
    simp only [filled, ← hheap] at key
    exact key _ (by simp)
  | some old =>
    obtain ⟨log, heq, hlog⟩ := exists_log_retire { s with
      heap := heap
      table := s.table.modify id (·.withContent (buffer.fill data) data.length) } id old
    have hlog : heap.Grants e.content → s.log.Quiet → log.Quiet := hc ▸ hlog
    have key := fun (r : Record) (hr : r.level ≠ .error) =>
      Written.filled (fun hg hq => (hlog hg hq).record hr) hfind hkind halloc
    simp only [filled, hc] at key
    simp only [heq]
    exact key _ (by simp)

theorem readAll_of_file {e : Entry} (hf : s.table.find? id = some e) (hk : e.kind = .file) :
    s.readAll id = .ok e.data := by
  simp only [readAll, Table.get_of_find? hf, if_neg (Entry.not_isDirectory hk)]

/-- A write to a file succeeds exactly when the heap grants a buffer. -/
theorem write_eq_ok_iff {e : Entry} (hf : s.table.find? id = some e) (hk : e.kind = .file) :
    (s.write id data).1 = .ok () ↔
      ∃ b h', s.heap.allocate (data.length + s.config.writeSlack.toNat) = .ok (b, h') := by
  simp only [write, Table.get_of_find? hf, if_neg (Entry.not_isDirectory hk)]
  cases s.heap.allocate (data.length + s.config.writeSlack.toNat) with
  | error cause => simp
  | ok p =>
    obtain ⟨b, h'⟩ := p
    simp

/-! ## Renaming and moving -/

/-- What the renaming of an entry can come to. -/
inductive Renamed (s : Store) (id : EntryId) (given : String) :
    Except StoreError Unit × Store → Prop
  | refused {cause : StoreError} : Renamed s id given (.error cause, s)
  | kept {e : Entry} : s.table.find? id = some e → id ≠ .root →
      s.normalizeName given given = .ok e.name → Renamed s id given (.ok (), s)
  | renamed {e : Entry} {name : String} {r : Record} : r.level ≠ .error →
      s.table.find? id = some e → id ≠ .root → s.normalizeName given given = .ok name →
      name ≠ e.name → s.table.findChild? e.parent name = none →
      Renamed s id given (.ok (), { s with table := s.table.modify id (·.renamed name) }.record r)

theorem renamed_rename (s : Store) (id : EntryId) (given : String) :
    s.Renamed id given (s.rename id given) := by
  unfold rename
  split
  · exact .refused
  rename_i e he
  have hfind := Table.get_eq_ok_iff.mp he
  split_ifs with hroot
  · exact .refused
  have hne : id ≠ .root := fun heq => hroot (id.isRoot_iff.mpr heq)
  split
  · exact .refused
  rename_i name hname
  split_ifs with hsame htaken
  · exact .kept hfind hne (hsame ▸ hname)
  · exact .refused
  · exact .renamed (by simp) hfind hne hname hsame (by simpa using htaken)

/-- What moving the cursor can come to. -/
inductive Moved (s : Store) (id : EntryId) : Except StoreError Unit × Store → Prop
  | refused {cause : StoreError} : Moved s id (.error cause, s)
  | moved {e : Entry} {r : Record} : r.level ≠ .error → s.table.find? id = some e →
      e.kind = .directory →
      Moved s id (.ok (), { s with cursor := id }.record r)

theorem moved_changeDirectory (s : Store) (id : EntryId) : s.Moved id (s.changeDirectory id) := by
  unfold changeDirectory
  split
  · exact .refused
  rename_i e he
  split_ifs with hdir
  · exact .moved (by simp) (Table.get_eq_ok_iff.mp he) (beq_iff_eq.mp hdir)
  · exact .refused

/-! ## Elementary changes -/

/-- An elementary change of a store. -/
inductive Step (s : Store) : Store → Prop
  | relog (log : Log) : Step s { s with log := log }
  | move {id : EntryId} {e : Entry} : s.table.find? id = some e → e.kind = .directory →
      Step s { s with cursor := id }
  | add {name : String} {kind : EntryKind} {dir : Entry} {id : EntryId} {rest : List Nat} :
      name ≠ "" → name.length ≤ s.config.maxNameLength.toNat →
      s.table.findChild? s.cursor name = none → s.table.find? s.cursor = some dir →
      dir.children.length < s.config.maxChildren.toNat → s.table.free = id.index :: rest →
      Step s { s with table := s.table.attach rest id { name, kind, parent := s.cursor } }
  | fill {id : EntryId} {e : Entry} {data : List UInt8} {buffer : Buffer} {heap : Heap} :
      s.table.find? id = some e → e.kind = .file →
      s.heap.allocate (data.length + s.config.writeSlack.toNat) = .ok (buffer, heap) →
      Step s (s.filled id e data buffer heap)
  | rename {id : EntryId} {e : Entry} {name : String} :
      s.table.find? id = some e → id ≠ .root → name ≠ "" →
      name.length ≤ s.config.maxNameLength.toNat → s.table.findChild? e.parent name = none →
      Step s { s with table := s.table.modify id (·.renamed name) }
  | prune {id : EntryId} {e : Entry} : s.table.find? id = some e → id ≠ .root →
      e.children = [] → Step s (s.pruned id e)

/-- Elementary changes, one after the other. -/
abbrev Steps : Store → Store → Prop :=
  Relation.ReflTransGen Step

/-- No elementary change touches the configuration. -/
theorem Steps.config_eq (h : s.Steps s') : s'.config = s.config := by
  induction h with
  | refl => rfl
  | tail _ hstep ih => cases hstep <;> exact ih

theorem Noted.steps (h : s.Noted s') : s.Steps s' := by
  obtain ⟨log, rfl, -⟩ := h.exists_log
  exact .single (.relog log)

theorem steps_create (s : Store) (kind : EntryKind) (path : String) :
    s.Steps (s.create kind path).2 := by
  have h := s.created_create kind path
  generalize s.create kind path = outcome at h ⊢
  cases h with
  | refused h => exact h.steps
  | found _ _ => exact .refl
  | made _ hname hnone hdir hroom hfree =>
    obtain ⟨rfl, hne⟩ := normalizeName_eq_ok_iff.mp hname
    exact (Relation.ReflTransGen.single
      (.add hne (length_cut_le _ _) hnone hdir hroom hfree)).tail (.relog _)

theorem steps_write (s : Store) (id : EntryId) (data : List UInt8) :
    s.Steps (s.write id data).2 := by
  have h := s.written_write id data
  generalize s.write id data = outcome at h ⊢
  cases h with
  | refused _ => exact .refl
  | exhausted _ h => exact h.steps
  | filled _ hfind hfile halloc =>
    exact (Relation.ReflTransGen.single (.fill hfind hfile halloc)).tail (.relog _)

theorem steps_rename (s : Store) (id : EntryId) (given : String) :
    s.Steps (s.rename id given).2 := by
  have h := s.renamed_rename id given
  generalize s.rename id given = outcome at h ⊢
  cases h with
  | refused => exact .refl
  | kept _ _ _ => exact .refl
  | renamed _ hfind hne hname _ hnone =>
    obtain ⟨rfl, hempty⟩ := normalizeName_eq_ok_iff.mp hname
    exact (Relation.ReflTransGen.single
      (.rename hfind hne hempty (length_cut_le _ _) hnone)).tail (.relog _)

theorem steps_changeDirectory (s : Store) (id : EntryId) : s.Steps (s.changeDirectory id).2 := by
  have h := s.moved_changeDirectory id
  generalize s.changeDirectory id = outcome at h ⊢
  cases h with
  | refused => exact .refl
  | moved _ hfind hdir => exact (Relation.ReflTransGen.single (.move hfind hdir)).tail (.relog _)

end Store

end FileTree
