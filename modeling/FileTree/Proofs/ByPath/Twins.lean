import FileTree.Proofs.Store.Twins
import FileTree.Shell.FileCommand

/-!
# Operations by path on stores that differ in their log

What is done by path, and by the commands on files, is made of operations on the store. So it too
comes out alike in two stores that are the same but for their identifier and their log; only the
command that shows the log answers differently.

## Main results

* `Store.Twins.write_byPath`, `Store.Twins.copy_byPath` and the like: an operation by path has the
  same outcome in twins
* `Store.Twins.run`: a command on files has, unless it shows the log
-/

namespace FileTree.Store

namespace Twins

variable {s t : Store}

/-! ## Looking around by path -/

theorem target_eq (h : s.Twins t) : ByPath.target t = ByPath.target s := by
  funext path
  rw [ByPath.target, ByPath.target, h.resolve_eq, h.cursor_eq]

theorem entries_eq (h : s.Twins t) : ByPath.entries t = ByPath.entries s := by
  funext ids
  induction ids with
  | nil => rfl
  | cons id rest ih => rw [ByPath.entries, ByPath.entries, ih, h.entry_eq]

theorem fullPaths_eq (h : s.Twins t) : ByPath.fullPaths t = ByPath.fullPaths s := by
  funext ids
  induction ids with
  | nil => rfl
  | cons id rest ih => rw [ByPath.fullPaths, ByPath.fullPaths, ih, h.fullPath_eq]

theorem list_eq (h : s.Twins t) (path : String) : ByPath.list t path = ByPath.list s path := by
  rw [ByPath.list, ByPath.list, h.target_eq, h.listChildren_eq, h.entries_eq, h.config_eq]

theorem stat_eq (h : s.Twins t) (path : String) : ByPath.stat t path = ByPath.stat s path := by
  rw [ByPath.stat, ByPath.stat, h.target_eq, h.entry_eq, h.fullPath_eq]

theorem read_eq (h : s.Twins t) (path : String) : ByPath.read t path = ByPath.read s path := by
  rw [ByPath.read, ByPath.read, h.resolve_eq, h.readAll_eq]

theorem find_eq (h : s.Twins t) (pattern : String) :
    ByPath.find t pattern = ByPath.find s pattern := by
  rw [ByPath.find, ByPath.find, h.walk_eq, h.entries_eq, h.fullPaths_eq]

theorem usageOf_eq (h : s.Twins t) (id : EntryId) : ByPath.usageOf t id = ByPath.usageOf s id := by
  rw [ByPath.usageOf, ByPath.usageOf, h.walk_eq, h.entries_eq]

theorem usage_eq (h : s.Twins t) (path : String) :
    ByPath.usage t path = ByPath.usage s path := by
  simp only [ByPath.usage, h.target_eq, h.usageOf_eq]

theorem destination_eq (h : s.Twins t) (path : String) :
    ByPath.destination t path = ByPath.destination s path := by
  rw [ByPath.destination, ByPath.destination, h.resolve_eq, h.entry_eq, h.cursor_eq]

theorem current_eq (h : s.Twins t) : ByPath.current t = ByPath.current s := by
  rw [ByPath.current, ByPath.current, h.fullPath_eq, h.cursor_eq]

end Twins

/-! ## Operations by path -/

theorem SameOutcome.lift {α : Type} {o o' : Except StoreError α × Store} (h : SameOutcome o o') :
    SameOutcome (ByPath.lift o.1, o.2) (ByPath.lift o'.1, o'.2) := by
  cases h with
  | mk h => exact .mk h

namespace Twins

variable {s t : Store}

theorem resolveOrCreate (h : s.Twins t) (path : String) :
    SameOutcome (ByPath.resolveOrCreate s path) (ByPath.resolveOrCreate t path) := by
  unfold ByPath.resolveOrCreate
  rw [h.resolve_eq]
  cases s.resolve path with
  | ok id => exact .mk h
  | error cause =>
    cases cause with
    | notFound missing => exact h.create .file path
    | _ => exact .mk h

theorem write_byPath (h : s.Twins t) (path : String) (data : List UInt8) :
    SameOutcome (ByPath.write s path data) (ByPath.write t path data) := by
  obtain ⟨answer, s', t', hs, ht, h'⟩ := (h.resolveOrCreate path).exists_eq
  rw [ByPath.write, ByPath.write, hs, ht]
  cases answer with
  | error cause => exact .mk h'
  | ok id =>
    obtain ⟨written, s'', t'', hs', ht', h''⟩ := (h'.write id data).exists_eq
    simp only [hs', ht']
    cases written <;> exact .mk h''

theorem remove_byPath (h : s.Twins t) (path : String) :
    SameOutcome (ByPath.remove s path) (ByPath.remove t path) := by
  unfold ByPath.remove
  rw [h.resolve_eq]
  cases s.resolve path with
  | error cause => exact .mk h
  | ok id => exact (h.delete id).lift

theorem rename_byPath (h : s.Twins t) (path newName : String) :
    SameOutcome (ByPath.rename s path newName) (ByPath.rename t path newName) := by
  unfold ByPath.rename
  rw [h.resolve_eq]
  cases s.resolve path with
  | error cause => exact .mk h
  | ok id => exact (h.rename id _).lift

theorem copy_byPath (h : s.Twins t) (source destination : String) :
    SameOutcome (ByPath.copy s source destination) (ByPath.copy t source destination) := by
  unfold ByPath.copy
  rw [h.resolve_eq, h.readAll_eq]
  cases s.resolve source with
  | error cause => exact .mk h
  | ok id =>
    dsimp only
    cases s.readAll id with
    | error cause => exact .mk h
    | ok data =>
      obtain ⟨answer, s', t', hs, ht, h'⟩ := (h.create .file destination).exists_eq
      simp only [createFile, hs, ht]
      cases answer with
      | error cause => exact .mk h'
      | ok copyId =>
        dsimp only
        rw [h'.entry_eq]
        cases s'.entry copyId with
        | error cause => exact .mk h'
        | ok e =>
          dsimp only
          split_ifs
          · exact .mk h'
          obtain ⟨written, s'', t'', hs', ht', h''⟩ := (h'.write copyId data).exists_eq
          rw [hs', ht']
          cases written <;> exact .mk h''

theorem enter_byPath (h : s.Twins t) (path : String) :
    SameOutcome (ByPath.enter s path) (ByPath.enter t path) := by
  unfold ByPath.enter
  rw [h.destination_eq]
  cases ByPath.destination s path with
  | error cause => exact .mk h
  | ok id =>
    obtain ⟨answer, s', t', hs, ht, h'⟩ := (h.changeDirectory id).exists_eq
    simp only [hs, ht]
    cases answer <;> exact .mk h'

end Twins

/-! ## Commands on files -/

theorem SameOutcome.change {α : Type} {o o' : Except OperationError α × Store}
    (h : SameOutcome o o') (name : String) (text : α → String) :
    SameOutcome (FileCommand.change name text o) (FileCommand.change name text o') := by
  cases h with
  | mk h => exact .mk h

namespace Twins

variable {s t : Store}

/-- A command on files has the same outcome in twins, unless it shows the log. -/
theorem run (h : s.Twins t) {c : FileCommand} (hc : ∀ count, c ≠ .log count) :
    SameOutcome (c.run s) (c.run t) := by
  cases c with
  | ls path =>
    rw [FileCommand.run, FileCommand.run, h.list_eq]
    exact .mk h
  | mkdir path => exact (h.create .directory path).lift.change ..
  | cd path => exact (h.enter_byPath path).change ..
  | pwd =>
    rw [FileCommand.run, FileCommand.run, h.current_eq]
    exact .mk h
  | cat path =>
    rw [FileCommand.run, FileCommand.run, h.read_eq]
    exact .mk h
  | touch path => exact (h.create .file path).lift.change ..
  | write path text => exact (h.write_byPath path _).change ..
  | rm path => exact (h.remove_byPath path).change ..
  | mv path newName => exact (h.rename_byPath path newName).change ..
  | cp source destination => exact (h.copy_byPath source destination).change ..
  | find pattern =>
    rw [FileCommand.run, FileCommand.run, h.find_eq]
    exact .mk h
  | du path =>
    rw [FileCommand.run, FileCommand.run, h.usage_eq]
    exact .mk h
  | stat path =>
    rw [FileCommand.run, FileCommand.run, h.stat_eq]
    exact .mk h
  | log count => exact absurd rfl (hc count)

/-- Whatever command on files is carried out on twins, they stay twins. -/
theorem twins_run (h : s.Twins t) (c : FileCommand) : (c.run s).2.Twins (c.run t).2 := by
  by_cases hc : ∃ count, c = .log count
  · obtain ⟨count, rfl⟩ := hc
    simp only [FileCommand.run]
    split <;> exact h
  · exact (h.run fun count hlog => hc ⟨count, hlog⟩).twins

end Twins

end FileTree.Store
