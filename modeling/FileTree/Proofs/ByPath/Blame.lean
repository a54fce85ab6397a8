import FileTree.Proofs.ByPath.Refusal
import FileTree.Proofs.ByPath.Usage
import FileTree.Proofs.Store.Blame

/-!
# Refusals by path

Whatever a path leads to is there, and so is all that is below it and on the way up from it. So a
sound store that is asked by path refuses nothing for an identifier that is not in use, nor for a
damaged tree.

## Main definitions

* `OperationError.Internal`: a refusal by path is internal
* `ByPath.Query`, `ByPath.ask`: a question by path, and the reply

## Main results

* `ByPath.not_internal_of_perform`: no operation by path is refused internally
* `ByPath.exists_find`: a search is never refused
* `ByPath.not_internal_of_ask`: no question by path is refused internally
-/

namespace FileTree

/-- The store refuses, and its refusal is internal. -/
def OperationError.Internal : OperationError → Prop
  | .store cause => cause.Internal
  | .copyOntoDirectory _ => False

namespace ByPath

variable {s : Store} {id : EntryId} {e : Entry} {path : String} {cause : OperationError}

/-! ## Refused operations -/

/-- What is refused by path is refused by the store. -/
theorem not_internal_of_lift {α : Type} {answer : Except StoreError α}
    (ha : ∀ c, answer = .error c → ¬ c.Internal) (h : lift answer = .error cause) :
    ¬ cause.Internal := by
  cases answer with
  | error c =>
    obtain rfl := Except.error.inj h
    exact ha c rfl
  | ok a => cases h

theorem not_internal_of_makeDirectory (hs : s.Sound)
    (h : (makeDirectory s path).1 = .error cause) : ¬ cause.Internal :=
  not_internal_of_lift (fun _ => hs.not_internal_of_create) h

theorem not_internal_of_makeFile (hs : s.Sound) (h : (makeFile s path).1 = .error cause) :
    ¬ cause.Internal :=
  not_internal_of_lift (fun _ => hs.not_internal_of_create) h

theorem findsEntry_resolveOrCreate (hs : s.Sound) (path : String) :
    Store.FindsEntry (resolveOrCreate s path) := by
  unfold resolveOrCreate
  cases hp : s.resolve path with
  | ok id =>
    obtain ⟨e, he⟩ := hs.exists_entry_of_resolve hp
    exact .found he
  | error c =>
    obtain rfl := hs.eq_notFound_of_resolve hp
    exact hs.findsEntry_create .file path

/-- What is found or made for a write is there to be written. -/
theorem not_internal_of_write (hs : s.Sound) {data : List UInt8}
    (h : (write s path data).1 = .error cause) : ¬ cause.Internal := by
  have hfinds := findsEntry_resolveOrCreate hs path
  unfold write at h
  generalize resolveOrCreate s path = located at h hfinds
  cases hfinds with
  | refused hc =>
    obtain rfl := Except.error.inj h
    exact hc
  | @found id after e he =>
    have hblames := fun c (hw : (after.write id data).1 = .error c) => Store.blamesGiven_of_write hw
    dsimp only at h
    generalize after.write id data = outcome at h hblames
    obtain ⟨c | _, last⟩ := outcome
    · obtain rfl := Except.error.inj h
      exact (hblames c rfl).not_internal he
    · cases h

theorem not_internal_of_remove (hs : s.Sound) (h : (remove s path).1 = .error cause) :
    ¬ cause.Internal := by
  unfold remove at h
  cases hp : s.resolve path with
  | error c =>
    rw [hp] at h
    obtain rfl := Except.error.inj h
    exact hs.not_internal_of_resolve hp
  | ok id =>
    rw [hp] at h
    obtain ⟨e, he⟩ := hs.exists_entry_of_resolve hp
    exact not_internal_of_lift (fun c hc => (hs.blamesGiven_of_delete hc).not_internal he) h

theorem not_internal_of_rename (hs : s.Sound) {newName : String}
    (h : (rename s path newName).1 = .error cause) : ¬ cause.Internal := by
  unfold rename at h
  cases hp : s.resolve path with
  | error c =>
    rw [hp] at h
    obtain rfl := Except.error.inj h
    exact hs.not_internal_of_resolve hp
  | ok id =>
    rw [hp] at h
    obtain ⟨e, he⟩ := hs.exists_entry_of_resolve hp
    exact not_internal_of_lift (fun c hc => (Store.blamesGiven_of_rename hc).not_internal he) h

/-- The source of a copy is there to be read, and the copy to be written. -/
theorem not_internal_of_copy (hs : s.Sound) {source destination : String}
    (h : (copy s source destination).1 = .error cause) : ¬ cause.Internal := by
  unfold copy at h
  cases hp : s.resolve source with
  | error c =>
    rw [hp] at h
    obtain rfl := Except.error.inj h
    exact hs.not_internal_of_resolve hp
  | ok id =>
    rw [hp] at h
    obtain ⟨e, he⟩ := hs.exists_entry_of_resolve hp
    dsimp only at h
    cases hread : s.readAll id with
    | error c =>
      rw [hread] at h
      obtain rfl := Except.error.inj h
      exact (Store.blamesGiven_of_readAll hread).not_internal he
    | ok data =>
      rw [hread] at h
      have hfinds : Store.FindsEntry (s.createFile destination) :=
        hs.findsEntry_create .file destination
      dsimp only at h
      generalize s.createFile destination = created at h hfinds
      cases hfinds with
      | refused hc =>
        obtain rfl := Except.error.inj h
        exact hc
      | @found copyId after e he =>
        have hblames := fun c (hw : (after.write copyId data).1 = .error c) =>
          Store.blamesGiven_of_write hw
        simp only [Store.entry, Table.get_of_find? he] at h
        split_ifs at h
        · obtain rfl := Except.error.inj h
          exact not_false
        generalize after.write copyId data = outcome at h hblames
        obtain ⟨c | _, last⟩ := outcome
        · obtain rfl := Except.error.inj h
          exact (hblames c rfl).not_internal he
        · cases h

/-- What `cd` goes to is there: the root, the cursor, its parent, and what a path leads to. -/
theorem findsEntry_destination (hs : s.Sound) (path : String) :
    Store.FindsEntry (destination s path, s) := by
  obtain ⟨c, hc, -⟩ := hs.cursor
  unfold destination
  dsimp only
  split_ifs
  · obtain ⟨r, hr, -⟩ := hs.linked.root
    exact .found hr
  · exact .found hc
  · obtain ⟨dir, hdir⟩ := hs.linked.exists_parent hc
    simp only [Store.entry, Table.get_of_find? hc]
    exact .found hdir
  · cases hp : s.resolve (Text.trim path) with
    | error c => exact .refused (hs.not_internal_of_resolve hp)
    | ok id =>
      obtain ⟨e, he⟩ := hs.exists_entry_of_resolve hp
      exact .found he

theorem not_internal_of_enter (hs : s.Sound) (h : (enter s path).1 = .error cause) :
    ¬ cause.Internal := by
  have hfinds := findsEntry_destination hs path
  unfold enter at h
  generalize destination s path = found at h hfinds
  cases hfinds with
  | refused hc =>
    obtain rfl := Except.error.inj h
    exact hc
  | @found id _ e he =>
    have hblames := fun c (hm : (s.changeDirectory id).1 = .error c) =>
      Store.blamesGiven_of_changeDirectory hm
    dsimp only at h
    generalize s.changeDirectory id = outcome at h hblames
    obtain ⟨c | _, after⟩ := outcome
    · obtain rfl := Except.error.inj h
      exact (hblames c rfl).not_internal he
    · cases h

/-- **No operation by path on a sound store is refused internally.** -/
theorem not_internal_of_perform (hs : s.Sound) {op : Operation}
    (h : (perform s op).1 = .error cause) : ¬ cause.Internal := by
  cases op with
  | makeDirectory path => exact not_internal_of_makeDirectory hs (Store.eq_error_of_map h)
  | makeFile path => exact not_internal_of_makeFile hs (Store.eq_error_of_map h)
  | write path data => exact not_internal_of_write hs (Store.eq_error_of_map h)
  | remove path => exact not_internal_of_remove hs (Store.eq_error_of_map h)
  | rename path newName => exact not_internal_of_rename hs (Store.eq_error_of_map h)
  | copy source destination => exact not_internal_of_copy hs (Store.eq_error_of_map h)
  | enter path => exact not_internal_of_enter hs (Store.eq_error_of_map h)

/-! ## Refused questions -/

/-- A question asked by path. -/
inductive Query where
  | list (path : String)
  | stat (path : String)
  | read (path : String)
  | find (pattern : String)
  | usage (path : String)
  | current
  deriving DecidableEq

/-- What a question by path is replied with. -/
inductive Reply where
  | lines (listing : List Listing)
  | stat (known : Stat)
  | bytes (data : List UInt8)
  | paths (found : List String)
  | usage (space : Usage)
  | path (text : String)
  deriving DecidableEq

/-- The reply to a question by path. -/
def ask (s : Store) : Query → Except OperationError Reply
  | .list path => (list s path).map .lines
  | .stat path => (stat s path).map .stat
  | .read path => (read s path).map .bytes
  | .find pattern => (find s pattern).map .paths
  | .usage path => (usage s path).map .usage
  | .current => (current s).map .path

/-- The children that a directory lists are there. -/
theorem not_internal_of_list (hs : s.Sound) (h : list s path = .error cause) :
    ¬ cause.Internal := by
  unfold list at h
  rw [target_eq_resolve hs] at h
  cases hp : s.resolve path with
  | error c =>
    rw [hp] at h
    obtain rfl := Except.error.inj h
    exact hs.not_internal_of_resolve hp
  | ok dir =>
    rw [hp] at h
    obtain ⟨e, he⟩ := hs.exists_entry_of_resolve hp
    by_cases hk : e.kind = .directory
    · obtain ⟨lines, hlines, -⟩ := exists_list hs ((target_eq_resolve hs path).trans hp) he hk
      unfold list at hlines
      rw [target_eq_resolve hs, hp, h] at hlines
      cases hlines
    · have hfile : e.isDirectory = false := Bool.eq_false_iff.mpr fun hd =>
        hk (Entry.isDirectory_iff.mp hd)
      simp only [Store.listChildren, Table.get_of_find? he, hfile, Bool.false_eq_true,
        if_false] at h
      obtain rfl := Except.error.inj h
      exact not_false

theorem not_internal_of_stat (hs : s.Sound) (h : stat s path = .error cause) :
    ¬ cause.Internal := by
  cases hp : s.resolve path with
  | error c =>
    unfold stat at h
    rw [target_eq_resolve hs, hp] at h
    obtain rfl := Except.error.inj h
    exact hs.not_internal_of_resolve hp
  | ok id =>
    obtain ⟨e, he⟩ := hs.exists_entry_of_resolve hp
    obtain ⟨known, hknown, -⟩ := exists_stat hs ((target_eq_resolve hs path).trans hp) he
    rw [hknown] at h
    cases h

theorem not_internal_of_read (hs : s.Sound) (h : read s path = .error cause) :
    ¬ cause.Internal := by
  unfold read at h
  cases hp : s.resolve path with
  | error c =>
    rw [hp] at h
    obtain rfl := Except.error.inj h
    exact hs.not_internal_of_resolve hp
  | ok id =>
    rw [hp] at h
    obtain ⟨e, he⟩ := hs.exists_entry_of_resolve hp
    exact not_internal_of_lift (fun c hc => (Store.blamesGiven_of_readAll hc).not_internal he) h

/-- Entries have full paths. -/
theorem exists_fullPaths (hs : s.Sound) {ids : List EntryId}
    (hids : ∀ x ∈ ids, s.table.isUsed x = true) : ∃ paths, fullPaths s ids = .ok paths := by
  induction ids with
  | nil => exact ⟨[], rfl⟩
  | cons id rest ih =>
    obtain ⟨e, he⟩ := Table.isUsed_iff.mp (hids id (List.mem_cons_self ..))
    obtain ⟨path, hpath⟩ := hs.exists_fullPath he
    obtain ⟨more, hmore⟩ := ih fun x hx => hids x (List.mem_cons_of_mem _ hx)
    exact ⟨path :: more, by simp only [fullPaths, hpath, hmore]⟩

/-- A search is never refused: what is found below the root has a full path. -/
theorem exists_find (hs : s.Sound) (pattern : String) : ∃ paths, find s pattern = .ok paths := by
  obtain ⟨order, hwalk, -, horder⟩ := hs.exists_walk_root
  have hused : ∀ x ∈ order.filter (!·.isRoot), s.table.isUsed x = true := fun x hx =>
    (horder x).mp (List.mem_filter.mp hx).1
  obtain ⟨found, hfound, -, hentries⟩ := exists_entries hused
  have hmatch : ∀ x ∈ (found.filter fun p => Text.contains p.2.name pattern).map (·.1),
      s.table.isUsed x = true := by
    intro x hx
    obtain ⟨p, hp, rfl⟩ := List.mem_map.mp hx
    exact Table.isUsed_of_find? (hentries p (List.mem_filter.mp hp).1)
  obtain ⟨paths, hpaths⟩ := exists_fullPaths hs hmatch
  exact ⟨paths, by simp only [find, hwalk, hfound, hpaths, lift]⟩

theorem not_internal_of_find (hs : s.Sound) {pattern : String}
    (h : find s pattern = .error cause) : ¬ cause.Internal := by
  obtain ⟨paths, hpaths⟩ := exists_find hs pattern
  rw [hpaths] at h
  cases h

theorem not_internal_of_usage (hs : s.Sound) (h : usage s path = .error cause) :
    ¬ cause.Internal := by
  cases hp : s.resolve path with
  | error c =>
    unfold usage at h
    rw [target_eq_resolve hs, hp] at h
    obtain rfl := Except.error.inj h
    exact hs.not_internal_of_resolve hp
  | ok id =>
    obtain ⟨e, he⟩ := hs.exists_entry_of_resolve hp
    obtain ⟨order, -, hpre, -⟩ := hs.linked.exists_walk he
    rw [usage_of_resolve hs hp, usageOf_eq hs hpre] at h
    cases h

/-- The current directory has a full path. -/
theorem not_internal_of_current (hs : s.Sound) (h : current s = .error cause) :
    ¬ cause.Internal := by
  obtain ⟨c, hc, -⟩ := hs.cursor
  exact not_internal_of_lift (fun _ hp => (hs.blamesGiven_of_fullPath hp).not_internal hc) h

/-- **No question by path about a sound store is refused internally.** -/
theorem not_internal_of_ask (hs : s.Sound) {q : Query} (h : ask s q = .error cause) :
    ¬ cause.Internal := by
  cases q with
  | list path => exact not_internal_of_list hs (Store.eq_error_of_map h)
  | stat path => exact not_internal_of_stat hs (Store.eq_error_of_map h)
  | read path => exact not_internal_of_read hs (Store.eq_error_of_map h)
  | find pattern => exact not_internal_of_find hs (Store.eq_error_of_map h)
  | usage path => exact not_internal_of_usage hs (Store.eq_error_of_map h)
  | current => exact not_internal_of_current hs (Store.eq_error_of_map h)

end ByPath

end FileTree
