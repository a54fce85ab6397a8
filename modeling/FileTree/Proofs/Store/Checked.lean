import FileTree.Proofs.Store.Transcript
import FileTree.Proofs.Table.Checked

/-!
# A store with checked accesses

The operations of a store once more, with every access checked that could be out of range: the slots
looked into, the parts taken of buffers, the counters of the heap. A store whose table is sound and
whose heap keeps its books is left so by every operation, and none of its accesses is out of range.

## Main definitions

* `Store.checkedPerform`, `Store.checkedAsk`: operations and questions with checked accesses
* `Store.Orderly`: a sound store over a heap that keeps its books

## Main results

* `Store.Reaches.orderly`: what comes of an orderly store is orderly
* `Store.Orderly.checkedPerform_eq`, `Store.Orderly.checkedAsk_eq`: on an orderly store no access is
  out of range
-/

namespace FileTree

/-! ## The books of the heap -/

namespace Heap.KeepsBooks

variable {h : Heap}

theorem takeBack (hk : h.KeepsBooks) (old : Option Buffer) : (h.takeBack old).KeepsBooks := by
  cases old with
  | none => exact hk
  | some b =>
    dsimp only [Heap.takeBack]
    cases hr : h.release b with
    | error c => exact hk
    | ok after => exact hk.release hr

theorem retire (hk : h.KeepsBooks) (policy : WritePolicy) (old : Option Buffer) :
    (h.retire policy old).KeepsBooks := by
  cases policy with
  | releaseOnReplace => exact hk.takeBack old
  | leakOnReplace => exact hk

end Heap.KeepsBooks

namespace Store

/-- The store is sound, and its heap keeps its books. -/
structure Orderly (s : Store) : Prop where
  sound : s.Sound
  books : s.heap.KeepsBooks

variable {s s' : Store} {id : EntryId} {config : Config} {heap : Heap}

/-- Every elementary change keeps the books. -/
theorem Step.keepsBooks (h : s.Step s') (hk : s.heap.KeepsBooks) : s'.heap.KeepsBooks := by
  cases h with
  | relog _ => exact hk
  | move _ _ => exact hk
  | add _ _ _ _ _ _ => exact hk
  | fill _ _ halloc => exact (hk.allocate halloc).retire _ _
  | rename _ _ _ _ _ => exact hk
  | prune _ _ _ => exact hk.takeBack _

theorem Steps.orderly (h : s.Steps s') (hs : s.Orderly) : s'.Orderly := by
  refine ⟨h.sound hs.sound, ?_⟩
  induction h with
  | refl => exact hs.books
  | tail _ hstep ih => exact hstep.keepsBooks ih

theorem Reaches.orderly (h : s.Reaches s') (hs : s.Orderly) : s'.Orderly :=
  (h.steps hs.sound).orderly hs

/-- A reachable store is orderly if the heap kept its books when the store was made. -/
theorem Reachable.orderly (hs : Reachable config heap s) (hk : heap.KeepsBooks) : s.Orderly := by
  obtain ⟨id, s₀, hs₀, hr⟩ := hs
  obtain ⟨hc, rfl⟩ := fresh_eq_ok_iff.mp hs₀
  exact hr.orderly ⟨sound_init hc id heap, hk⟩

/-! ## Names -/

/-- A text cut to at most `n` characters. Where there is one too many, the cut is made there, and
its place is checked. -/
def checkedCut (n : Nat) (text : String) : Option String :=
  match text.toList[n]? with
  | some _ => (slice? text.toList 0 n).map String.ofList
  | none => some text

theorem checkedCut_eq (n : Nat) (text : String) : checkedCut n text = some (Record.cut n text) := by
  unfold checkedCut Record.cut
  cases hn : text.toList[n]? with
  | some c =>
    obtain ⟨hlt, -⟩ := List.getElem?_eq_some_iff.mp hn
    simp only [slice?_zero hlt.le, Option.map_some]
  | none =>
    rw [List.take_of_length_le (List.getElem?_eq_none_iff.mp hn), String.ofList_toList]

/-- A name cut to the longest length. An empty name is refused under the text `given`. -/
def checkedNormalizeName (s : Store) (name given : String) : Option (Except StoreError String) :=
  (checkedCut s.config.maxNameLength.toNat name).map fun cut =>
    if cut.isEmpty then .error (.invalidName given) else .ok cut

theorem checkedNormalizeName_eq (s : Store) (name given : String) :
    s.checkedNormalizeName name given = some (s.normalizeName name given) := by
  rw [checkedNormalizeName, checkedCut_eq]
  rfl

/-! ## Making an entry -/

/-- Makes an entry in the current directory. The slot is checked, and the directory is looked up
again once the entry is in it. -/
def checkedCreate (s : Store) (kind : EntryKind) (path : String) :
    Option (Except StoreError EntryId × Store) :=
  (s.checkedNormalizeName (Path.creationName path) path).bind fun
    | .error e => some (.error e, s)
    | .ok name =>
      match s.table.findChild? s.cursor name with
      | some existing => some (.ok existing, s)
      | none =>
        match s.table.get s.cursor with
        | .error e => some (.error e, s)
        | .ok dir =>
          if dir.children.length ≥ s.config.maxChildren.toNat then
            some (.error (.directoryFull s.cursor s.config.maxChildren.toNat),
              s.note .warn "directory full" (some s.cursor))
          else
            (s.table.checkedAllocate { name, kind, parent := s.cursor }).map fun
              | .error e => (.error e, s.note .warn "entry table full" none)
              | .ok (id, table) =>
                match table.get s.cursor with
                | .error e => (.error e, { s with table := table })
                | .ok _ =>
                  (.ok id, { s with table := table.modify s.cursor (·.addChild id) }.note .debug
                    s!"created {kind}" (some id))

theorem Orderly.checkedCreate_eq (hs : s.Orderly) (kind : EntryKind) (path : String) :
    s.checkedCreate kind path = some (s.create kind path) := by
  rw [checkedCreate, checkedNormalizeName_eq, Option.bind_some, create]
  cases s.normalizeName (Path.creationName path) path with
  | error c => rfl
  | ok name =>
    dsimp only
    cases s.table.findChild? s.cursor name with
    | some existing => rfl
    | none =>
      dsimp only
      cases hdir : s.table.get s.cursor with
      | error c => rfl
      | ok dir =>
        dsimp only
        split_ifs
        · rfl
        rw [hs.sound.coherent.checkedAllocate_eq, Option.map_some]
        cases halloc : s.table.allocate { name, kind, parent := s.cursor } with
        | error c => rfl
        | ok p =>
          obtain ⟨id, table⟩ := p
          obtain ⟨dir', hdir'⟩ :=
            Table.exists_find?_of_allocate halloc (Table.get_eq_ok_iff.mp hdir)
          simp only [Table.get_of_find? hdir']

/-! ## Content -/

/-- Gives a buffer back to the heap. The counters are checked. -/
def checkedGiveBack (s : Store) (id : EntryId) (buffer : Buffer) : Option Store :=
  (s.heap.checkedRelease buffer).map fun
    | .ok heap => { s with heap := heap }
    | .error e => s.note .error ("release failed: " ++ e.message) (some id)

theorem checkedGiveBack_eq (hk : s.heap.KeepsBooks) (id : EntryId) (b : Buffer) :
    s.checkedGiveBack id b = some (s.giveBack id b) := by
  rw [checkedGiveBack, hk.checkedRelease_eq]
  rfl

/-- Deals with the buffer that an entry held before it was written. -/
def checkedRetire (s : Store) (id : EntryId) (buffer : Buffer) : Option Store :=
  match s.config.writePolicy with
  | .releaseOnReplace => s.checkedGiveBack id buffer
  | .leakOnReplace => some (s.note .warn "previous buffer leaked" (some id))

theorem checkedRetire_eq (hk : s.heap.KeepsBooks) (id : EntryId) (b : Buffer) :
    s.checkedRetire id b = some (s.retire id b) := by
  unfold checkedRetire retire
  cases s.config.writePolicy with
  | releaseOnReplace => exact checkedGiveBack_eq hk id b
  | leakOnReplace => rfl

/-- Replaces the content of a file. The part of the new buffer that is written is checked, the file
is looked up again once there is a buffer for it, and the old buffer is dealt with so. -/
def checkedWrite (s : Store) (id : EntryId) (data : List UInt8) :
    Option (Except StoreError Unit × Store) :=
  match s.table.get id with
  | .error e => some (.error e, s)
  | .ok entry =>
    if entry.isDirectory then some (.error (.notAFile id), s)
    else
      match s.heap.allocate (data.length + s.config.writeSlack.toNat) with
      | .error e =>
        some (.error (.allocation e), s.note .warn "content allocation failed" (some id))
      | .ok (buffer, heap) =>
        (buffer.checkedFill data).bind fun filled =>
          match s.table.get id with
          | .error e => some (.error e, { s with heap := heap })
          | .ok entry =>
            let s := { s with
              heap := heap
              table := s.table.modify id (·.withContent filled data.length) }
            let retired := match entry.content with
              | some old => s.checkedRetire id old
              | none => some s
            retired.map fun s =>
              (.ok (), s.record {
                level := .debug, component
                message := "content written"
                source := some s.id
                fields := [("id", toString id.index), ("size", toString data.length)] })

theorem checkedWrite_eq (hk : s.heap.KeepsBooks) (id : EntryId) (data : List UInt8) :
    s.checkedWrite id data = some (s.write id data) := by
  unfold checkedWrite write
  cases s.table.get id with
  | error c => rfl
  | ok e =>
    dsimp only
    split_ifs
    · rfl
    cases halloc : s.heap.allocate (data.length + s.config.writeSlack.toNat) with
    | error c => rfl
    | ok p =>
      obtain ⟨buffer, after⟩ := p
      have hroom : data.length ≤ buffer.capacity := by
        obtain ⟨rfl, -, -⟩ := Heap.allocate_eq_ok halloc
        exact Nat.le_add_right _ _
      -- The old buffer goes back to the heap that has just handed out the new one.
      have hbooks := hk.allocate halloc
      simp only [Buffer.checkedFill_eq hroom, Option.bind_some]
      cases e.content with
      | none => rfl
      | some old =>
        dsimp only
        rw [checkedRetire_eq hbooks, Option.map_some]

/-- The whole content of a file. Its end is checked. -/
def checkedReadAll (s : Store) (id : EntryId) : Option (Except StoreError (List UInt8)) :=
  match s.table.get id with
  | .error e => some (.error e)
  | .ok entry =>
    if entry.isDirectory then some (.error (.notAFile id)) else entry.checkedData.map .ok

theorem Orderly.checkedReadAll_eq (hs : s.Orderly) (id : EntryId) :
    s.checkedReadAll id = some (s.readAll id) := by
  unfold checkedReadAll readAll
  cases he : s.table.get id with
  | error c => rfl
  | ok e =>
    have hfits := hs.sound.fits (Table.get_eq_ok_iff.mp he)
    dsimp only
    split_ifs
    · rfl
    · rw [Entry.checkedData_eq hfits.size_le_capacity, Option.map_some]

/-- Copies the content of a file over the start of `target`. The parts copied from and to are
checked. -/
def checkedRead (s : Store) (id : EntryId) (target : List UInt8) :
    Option (Except StoreError (Nat × List UInt8)) :=
  (s.checkedReadAll id).bind fun
    | .error e => some (.error e)
    | .ok data =>
      let count := min target.length data.length
      (slice? data 0 count).bind fun part =>
        (slice? target 0 count).map fun _ => .ok (count, part ++ target.drop count)

theorem Orderly.checkedRead_eq (hs : s.Orderly) (id : EntryId) (target : List UInt8) :
    s.checkedRead id target = some (s.read id target) := by
  rw [checkedRead, hs.checkedReadAll_eq, Option.bind_some, read]
  cases s.readAll id with
  | error e => rfl
  | ok data =>
    simp only [slice?_zero (Nat.min_le_left target.length data.length),
      slice?_zero (Nat.min_le_right target.length data.length), Option.bind_some, Option.map_some]

/-! ## Taking out entries -/

/-- Takes one entry out of its parent's list and its slot, and gives its buffer back. -/
def checkedRemoveEntry (s : Store) (id : EntryId) : Option (Except StoreError Unit × Store) :=
  match s.table.get id with
  | .error e => some (.error e, s)
  | .ok entry =>
    let s := { s with table := s.table.modify entry.parent (·.dropChild id) }
    (s.table.checkedRelease id).bind fun
      | .error e => some (.error e, s)
      | .ok (entry, table) =>
        let s := { s with table := table }
        let emptied := match entry.content with
          | some buffer => s.checkedGiveBack id buffer
          | none => some s
        emptied.map fun s => (.ok (), s.leave id)

theorem checkedRemoveEntry_eq (hk : s.heap.KeepsBooks) (id : EntryId) :
    s.checkedRemoveEntry id = some (s.removeEntry id) := by
  have hgive := fun table buffer => checkedGiveBack_eq (s := { s with table := table }) hk id buffer
  unfold checkedRemoveEntry removeEntry
  cases s.table.get id with
  | error c => rfl
  | ok e =>
    dsimp only
    rw [Table.checkedRelease_eq, Option.bind_some]
    cases (s.table.modify e.parent (·.dropChild id)).release id with
    | error c => rfl
    | ok p =>
      obtain ⟨e, table⟩ := p
      dsimp only
      cases e.content with
      | none => rfl
      | some b => simp only [hgive, Option.map_some]

/-- Taking out an entry keeps the books. -/
theorem keepsBooks_removeEntry (hk : s.heap.KeepsBooks) (id : EntryId) :
    (s.removeEntry id).2.heap.KeepsBooks := by
  have hleave : ∀ s : Store, (s.leave id).heap = s.heap := by
    intro s
    unfold leave
    split_ifs <;> rfl
  unfold removeEntry
  split
  · exact hk
  dsimp only
  split
  · exact hk
  rename_i e table _
  rw [hleave]
  cases e.content with
  | none => exact hk
  | some b =>
    obtain ⟨log, heq, -⟩ := exists_log_giveBack
      { s with table := table } id b
    dsimp only
    rw [heq]
    exact hk.takeBack (some b)

/-- Takes out the entries one after the other, up to the first that cannot be taken out. -/
def checkedRemoveAll (s : Store) : List EntryId → Option (Except StoreError Unit × Store)
  | [] => some (.ok (), s)
  | id :: rest =>
    (s.checkedRemoveEntry id).bind fun
      | (.error e, s) => some (.error e, s)
      | (.ok (), s) => s.checkedRemoveAll rest

theorem checkedRemoveAll_eq (hk : s.heap.KeepsBooks) (victims : List EntryId) :
    s.checkedRemoveAll victims = some (s.removeAll victims) := by
  induction victims generalizing s with
  | nil => rfl
  | cons id rest ih =>
    -- The books are what carries the induction: the rest is taken out of the store after.
    have hbooks := keepsBooks_removeEntry hk id
    rw [checkedRemoveAll, checkedRemoveEntry_eq hk, Option.bind_some, removeAll]
    generalize s.removeEntry id = outcome at hbooks ⊢
    obtain ⟨_ | _, after⟩ := outcome
    · rfl
    · exact ih hbooks

/-- Takes out an entry and everything below it. -/
def checkedDelete (s : Store) (id : EntryId) : Option (Except StoreError Nat × Store) :=
  if id.isRoot then some (.error .cannotDeleteRoot, s)
  else
    match s.table.get id with
    | .error e => some (.error e, s)
    | .ok _ =>
      match s.walk id with
      | .error e => some (.error e, s)
      | .ok order =>
        (s.checkedRemoveAll order.reverse).map fun
          | (.error e, after) => (.error e, after)
          | (.ok (), after) =>
            let after := after.record {
              level := .info, component
              message := "deleted"
              source := some s.id
              fields := [("id", toString id.index), ("entries", toString order.length)] }
            let after :=
              if order.contains s.cursor then
                after.note .debug "cursor reset to root" (some .root)
              else after
            (.ok order.length, after)

theorem checkedDelete_eq (hk : s.heap.KeepsBooks) (id : EntryId) :
    s.checkedDelete id = some (s.delete id) := by
  unfold checkedDelete delete
  split_ifs
  · rfl
  cases s.table.get id with
  | error c => rfl
  | ok e =>
    dsimp only
    cases s.walk id with
    | error c => rfl
    | ok order =>
      dsimp only
      rw [checkedRemoveAll_eq hk]
      rfl

/-! ## Renaming -/

/-- Gives an entry another name. The entry is looked up again once the name is known to be free. -/
def checkedRename (s : Store) (id : EntryId) (newName : String) :
    Option (Except StoreError Unit × Store) :=
  match s.table.get id with
  | .error e => some (.error e, s)
  | .ok entry =>
    if id.isRoot then some (.error .cannotRenameRoot, s)
    else
      (s.checkedNormalizeName newName newName).map fun
        | .error e => (.error e, s)
        | .ok name =>
          if name = entry.name then (.ok (), s)
          else if (s.table.findChild? entry.parent name).isSome then
            (.error (.alreadyExists name), s)
          else
            match s.table.get id with
            | .error e => (.error e, s)
            | .ok _ =>
              (.ok (), { s with table := s.table.modify id (·.renamed name) }.note .debug "renamed"
                (some id))

theorem checkedRename_eq (s : Store) (id : EntryId) (newName : String) :
    s.checkedRename id newName = some (s.rename id newName) := by
  unfold checkedRename rename
  cases hget : s.table.get id with
  | error c => rfl
  | ok e =>
    dsimp only
    split_ifs
    · rfl
    rw [checkedNormalizeName_eq]
    cases s.normalizeName newName newName with
    | error c => rfl
    | ok name => rfl

/-! ## Operations and questions -/

/-- The answer to an operation, and the store after it. Moving the cursor makes no access that could
be out of range. -/
def checkedPerform (s : Store) : Operation → Option (Except StoreError Answer × Store)
  | .createFile path => (s.checkedCreate .file path).map fun o => (o.1.map .entry, o.2)
  | .createDirectory path => (s.checkedCreate .directory path).map fun o => (o.1.map .entry, o.2)
  | .write id data => (s.checkedWrite id data).map fun o => (o.1.map fun _ => .done, o.2)
  | .delete id => (s.checkedDelete id).map fun o => (o.1.map .removed, o.2)
  | .rename id name => (s.checkedRename id name).map fun o => (o.1.map fun _ => .done, o.2)
  | .changeDirectory id => some (s.perform (.changeDirectory id))

/-- **No operation on an orderly store makes an access that is out of range.** -/
theorem Orderly.checkedPerform_eq (hs : s.Orderly) (op : Operation) :
    s.checkedPerform op = some (s.perform op) := by
  cases op with
  | createFile path =>
    rw [checkedPerform, hs.checkedCreate_eq]
    rfl
  | createDirectory path =>
    rw [checkedPerform, hs.checkedCreate_eq]
    rfl
  | write id data =>
    rw [checkedPerform, checkedWrite_eq hs.books]
    rfl
  | delete id =>
    rw [checkedPerform, checkedDelete_eq hs.books]
    rfl
  | rename id name =>
    rw [checkedPerform, checkedRename_eq]
    rfl
  | changeDirectory id => rfl

/-- The reply to a question. The integrity check counts the entries too. The other questions follow
links, which are looked up and never taken to be there. -/
def checkedAsk (s : Store) : Query → Option (Except StoreError Reply)
  | .generation id => (s.table.checkedGeneration id).map (·.map .generation)
  | .count => s.table.checkedSize.map fun n => .ok (.count n)
  | .read id target => (s.checkedRead id target).map (·.map fun r => .copied r.1 r.2)
  | .readAll id => (s.checkedReadAll id).map (·.map .bytes)
  | .verify => s.table.checkedSize.map fun _ => s.ask .verify
  | .entry id => some (s.ask (.entry id))
  | .current => some (s.ask .current)
  | .resolve path => some (s.ask (.resolve path))
  | .listChildren dir max => some (s.ask (.listChildren dir max))
  | .fullPath id => some (s.ask (.fullPath id))
  | .walk id => some (s.ask (.walk id))

/-- **No question about an orderly store makes an access that is out of range.** -/
theorem Orderly.checkedAsk_eq (hs : s.Orderly) (q : Query) : s.checkedAsk q = some (s.ask q) := by
  cases q with
  | generation id =>
    rw [checkedAsk, Table.checkedGeneration_eq]
    rfl
  | count =>
    rw [checkedAsk, hs.sound.coherent.checkedSize_eq]
    rfl
  | read id target =>
    rw [checkedAsk, hs.checkedRead_eq]
    rfl
  | readAll id =>
    rw [checkedAsk, hs.checkedReadAll_eq]
    rfl
  | verify =>
    rw [checkedAsk, hs.sound.coherent.checkedSize_eq, Option.map_some]
  | entry id => rfl
  | current => rfl
  | resolve path => rfl
  | listChildren dir max => rfl
  | fullPath id => rfl
  | walk id => rfl

end Store

end FileTree
