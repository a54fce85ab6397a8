import FileTree.ByPath
import FileTree.Proofs.Session.Descriptor
import FileTree.Proofs.Session.Refusal

/-!
# Writing a file by its path, and through a descriptor

A file can be written by its path in one operation, or opened, written through its descriptor and
closed. Both look for the file and make it if there is none, but in the one case the store finds
out in the end that it is a directory, in the other the session does before anything is written.
As long as a descriptor is free, nobody can tell afterwards which of the two was done, but by the
log.

## Main definitions

* `Session.writeInSteps`: a file is opened, written and closed
* `Session.WritesAlike`: what both ways of writing come to

## Main results

* `Session.locate_eq_resolveOrCreate`: both ways look for the same file
* `Store.exists_log_write`: what stands in the log does not matter to a write
* `Session.writesAlike_write`: both ways of writing come to the same
-/

namespace FileTree

namespace Store

theorem exists_log_giveBack_withLog (s : Store) (log : Log) (id : EntryId) (b : Buffer) :
    ∃ log', ({ s with log := log }.giveBack id b) = { s.giveBack id b with log := log' } := by
  unfold giveBack
  cases s.heap.release b with
  | ok heap => exact ⟨log, rfl⟩
  | error cause => exact ⟨_, rfl⟩

theorem exists_log_retire_withLog (s : Store) (log : Log) (id : EntryId) (b : Buffer) :
    ∃ log', ({ s with log := log }.retire id b) = { s.retire id b with log := log' } := by
  unfold retire
  cases hp : s.config.writePolicy with
  | releaseOnReplace => simpa only [hp] using exists_log_giveBack_withLog s log id b
  | leakOnReplace => exact ⟨_, rfl⟩

/-- What stands in the log does not matter to a write. -/
theorem exists_log_write (s : Store) (log : Log) (id : EntryId) (data : List UInt8) :
    ∃ log', ({ s with log := log } : Store).write id data =
      ((s.write id data).1, { (s.write id data).2 with log := log' }) := by
  unfold write
  cases s.table.get id with
  | error cause => exact ⟨log, rfl⟩
  | ok e =>
    dsimp only
    split_ifs
    · exact ⟨log, rfl⟩
    cases s.heap.allocate (data.length + s.config.writeSlack.toNat) with
    | error cause => exact ⟨_, rfl⟩
    | ok lent =>
      obtain ⟨buffer, heap⟩ := lent
      cases hc : e.content with
      | none => exact ⟨_, rfl⟩
      | some old =>
        obtain ⟨log', hretire⟩ := exists_log_retire_withLog { s with
          heap := heap
          table := s.table.modify id (·.withContent (buffer.fill data) data.length) } log id old
        dsimp only at hretire ⊢
        rw [hretire]
        exact ⟨_, rfl⟩

end Store

namespace Session

/-- A file is opened, and made if there is none; if that succeeds it is written, and closed. The
answers stand in the order of the requests. -/
def writeInSteps (ses : Session) (path : String) (data : List UInt8) :
    List (Except SyscallError Response) × Session :=
  match ses.handle (.openFile path true) with
  | (.ok (.opened fd), opened) =>
    let written := opened.handle (.write fd data)
    let closed := written.2.handle (.closeFile fd)
    ([.ok (.opened fd), written.1, closed.1], closed.2)
  | (answer, refused) => ([answer], refused)

/-- The descriptor that opening a file gives stands for the entry. -/
def OpensFor (ses : Session) (path : String) (fd : Descriptor) (id : EntryId) : Prop :=
  ∃ file, (ses.handle (.openFile path true)).2.files.find? fd = some file ∧ file.entry = id

/-- What writing a file by its path, and in steps, comes to. Both succeed with the same entry, or
fail for the same reason; the store is left the same but for the log, and the session otherwise as
it was. -/
inductive WritesAlike (ses : Session) (path : String) (data : List UInt8) :
    Except OperationError EntryId × Store → List (Except SyscallError Response) × Session → Prop
  | unopened {cause : StoreError} {store : Store} (log : Log) :
      WritesAlike ses path data (.error (.store cause), store)
        ([.error (.store cause)], { ses with store := { store with log := log } })
  | unwritten {cause : StoreError} {store : Store} {fd : Descriptor} {id : EntryId} (log : Log) :
      ses.OpensFor path fd id → (ByPath.resolveOrCreate ses.store path).1 = .ok id →
      WritesAlike ses path data (.error (.store cause), store)
        ([.ok (.opened fd), .error (.store cause), .ok .closed],
          { ses with store := { store with log := log } })
  | written {store : Store} {fd : Descriptor} {id : EntryId} (log : Log) :
      ses.OpensFor path fd id →
      WritesAlike ses path data (.ok id, store)
        ([.ok (.opened fd), .ok (.count data.length.toUInt64), .ok .closed],
          { ses with store := { store with log := log } })

variable {ses : Session} {path : String} {data : List UInt8} {id : EntryId} {store : Store}
  {fd : Descriptor} {file : OpenFile}

/-- Both ways of writing look for the same file. -/
theorem locate_eq_resolveOrCreate (s : Store) (path : String) :
    locate s path true = ByPath.resolveOrCreate s path := by
  unfold locate ByPath.resolveOrCreate
  rcases s.resolve path with cause | id
  · cases cause <;> rfl
  · rfl

theorem writeInSteps_of_refused {cause : SyscallError} {refused : Session}
    (h : ses.openFile path true = (.error cause, refused)) :
    ses.writeInSteps path data = ([.error cause], refused) := by
  rw [writeInSteps, handle, h]

/-- What is no file is not opened, and not written for the same reason. -/
theorem writesAlike_of_no_file (hlocate : locate ses.store path true = (.ok id, store))
    (hno : ∀ e, store.table.find? id = some e → e.kind = .directory) :
    ses.WritesAlike path data (ByPath.write ses.store path data) (ses.writeInSteps path data) := by
  have hfound := (locate_eq_resolveOrCreate ses.store path).symm.trans hlocate
  rw [ByPath.write, hfound]
  cases hf : store.table.find? id with
  | none =>
    have hg : store.table.get id = .error (.invalidId id) := Table.get_eq_error_iff.mpr ⟨hf, rfl⟩
    have hopen : ses.openFile path true =
        (.error (.store (.invalidId id)), { ses with store := store }) := by
      simp only [openFile, hlocate, Store.entry, hg]
    rw [writeInSteps_of_refused hopen]
    simp only [Store.write, hg]
    exact .unopened store.log
  | some e =>
    have hg := Table.get_of_find? hf
    have hdir : e.isDirectory = true := by rw [Entry.isDirectory_iff, hno e hf]
    have hopen : ses.openFile path true =
        (.error (.store (.notAFile id)), { ses with store := store }) := by
      simp only [openFile, hlocate, Store.entry, hg, if_pos hdir]
    rw [writeInSteps_of_refused hopen]
    simp only [Store.write, hg, if_pos hdir]
    exact .unopened store.log

/-- At the start of a file, writing replaces all of it. -/
theorem writeFile_at_start {e : Entry} (hc : ses.isCurrent file = true)
    (hf : ses.store.table.find? file.entry = some e) (hk : e.kind = .file)
    (hoffset : file.offset = 0) (fd : Descriptor) (data : List UInt8) :
    ses.writeFile fd file data =
      match ses.store.write file.entry data with
      | (.error cause, store) => (.error (.store cause), { ses with store := store })
      | (.ok (), store) => (.ok (.count data.length.toUInt64),
          { ses with store := store, files := ses.files.seek fd data.length }) := by
  rcases hw : ses.store.write file.entry data with ⟨cause | _, store⟩
  all_goals
    simp only [writeFile, if_pos hc, Store.readAll_of_file hf hk, hoffset, Nat.zero_min,
      List.take_zero, List.nil_append, Nat.zero_add, hw]

/-- An open file is closed, and nothing else changes but the log. -/
theorem exists_log_closeFile (ses : Session) {files : OpenFiles}
    (hfd : OpenFiles.firstNumber ≤ fd.number.toNat)
    (hclose : ses.files.close fd = .ok (file, files)) :
    ∃ log, ses.handle (.closeFile fd) =
      (.ok .closed, { ses with store := { ses.store with log := log }, files := files }) := by
  simp only [handle, closeFile, if_neg (not_isStandard hfd), hclose]
  exact ⟨_, rfl⟩

/-- A file is written through a new descriptor as it is by its path. -/
theorem writesAlike_of_file {e : Entry} {files : OpenFiles} (hfiles : ses.files.Ordered)
    (hlocate : locate ses.store path true = (.ok id, store))
    (hf : store.table.find? id = some e) (hk : e.kind = .file)
    (hacquire : ses.files.acquire id (store.table.generationAt id) = .ok (fd, files))
    (hdata : data ≠ []) :
    ses.WritesAlike path data (ByPath.write ses.store path data) (ses.writeInSteps path data) := by
  let file : OpenFile := ⟨id, store.table.generationAt id, 0⟩
  have hfound := (locate_eq_resolveOrCreate ses.store path).symm.trans hlocate
  obtain ⟨-, hfd, -, hfind⟩ := hfiles.acquire hacquire
  have hfile : files.find? fd = some file := by rw [hfind, if_pos rfl]
  have hclose : files.close fd = .ok (file, ses.files) := hfiles.close_of_acquire hacquire
  obtain ⟨log, hopen⟩ : ∃ log, ses.openFile path true = (.ok (.opened fd),
      { ses with store := { store with log := log }, files := files }) := by
    rw [openFile_of_locate hlocate hf hk, hacquire]
    exact ⟨_, rfl⟩
  have hopens : ses.OpensFor path fd id := by
    refine ⟨file, ?_, rfl⟩
    rw [handle, hopen]
    exact hfile
  let opened : Session := { ses with store := { store with log := log }, files := files }
  have hcurrent : opened.isCurrent file = true :=
    isCurrent_iff.mpr ⟨Table.isUsed_of_find? hf, rfl⟩
  have hwrite := writeFile_at_start hcurrent hf hk rfl fd data
  obtain ⟨log', hstore⟩ := store.exists_log_write log id data
  rw [writeInSteps, handle, hopen, ByPath.write, hfound]
  dsimp only
  rw [handle_write_of_find? hfile hfd hdata, hwrite, hstore]
  rcases store.write id data with ⟨cause | _, written⟩
  · obtain ⟨last, hclosed⟩ := exists_log_closeFile
      { opened with store := { written with log := log' } } hfd hclose
    dsimp only at hclosed ⊢
    rw [hclosed]
    exact .unwritten last hopens (congrArg Prod.fst hfound)
  · -- the position has moved, and is forgotten when the file is closed
    have hclose' : (files.seek fd data.length).close fd =
        .ok ({ file with offset := data.length }, ses.files) := by
      rw [OpenFiles.close_seek, hclose]
      rfl
    obtain ⟨last, hclosed⟩ := exists_log_closeFile
      { opened with store := { written with log := log' }, files := files.seek fd data.length }
      hfd hclose'
    dsimp only at hclosed ⊢
    rw [hclosed]
    exact .written last hopens

/-- **Writing a file by its path, and opening it, writing it and closing it, come to the same**:
both succeed with the same entry or fail for the same reason, and leave the same tree, contents,
cursor and heap. It takes something to write and a free descriptor. -/
theorem writesAlike_write {config : Config} {heap : Heap} (hses : ses.Reachable config heap)
    (hfree : ∃ fd : Descriptor, OpenFiles.firstNumber ≤ fd.number.toNat ∧
      fd.number.toNat < OpenFiles.limit ∧ ses.files.find? fd = none)
    (hdata : data ≠ []) :
    ses.WritesAlike path data (ByPath.write ses.store path data) (ses.writeInSteps path data) := by
  cases hlocate : locate ses.store path true with
  | mk located store =>
  cases located with
  | error cause =>
    have hopen : ses.openFile path true = (.error (.store cause), { ses with store := store }) := by
      simp only [openFile, hlocate]
    rw [writeInSteps_of_refused hopen, ByPath.write,
      ← locate_eq_resolveOrCreate, hlocate]
    exact .unopened store.log
  | ok id =>
    by_cases hno : ∀ e, store.table.find? id = some e → e.kind = .directory
    · exact writesAlike_of_no_file hlocate hno
    · push Not at hno
      obtain ⟨e, hf, hk⟩ := hno
      obtain ⟨free, hle, hlt, hnone⟩ := hfree
      obtain ⟨fd, files, hacquire⟩ :=
        OpenFiles.exists_acquire_of_free hle hlt hnone id (store.table.generationAt id)
      have hfile : e.kind = .file := Entry.kind_eq_file (mt Entry.isDirectory_iff.mp hk)
      exact writesAlike_of_file hses.sound.files hlocate hf hfile hacquire hdata

/-- The heap has no room for what is to be written to a file that must be made: either way the new
file stays, empty. Its name has a separator in it, as there is no directory of that name. -/
theorem writesAlike_write_of_exhausted :
    let config : Config := { maxEntries := 4, writeSlack := 4 }
    let heap : Heap := { limit := some 8 }
    let ses : Session := { store := Store.init ⟨0⟩ config heap }
    let cause : StoreError := .allocation (.outOfMemory 9 8)
    ses.Reachable config heap ∧
      (∃ fd : Descriptor, OpenFiles.firstNumber ≤ fd.number.toNat ∧
        fd.number.toNat < OpenFiles.limit ∧ ses.files.find? fd = none) ∧
      (ByPath.write ses.store "a/b" [1, 2, 3, 4, 5]).1 = .error (.store cause) ∧
      ses.WritesAlike "a/b" [1, 2, 3, 4, 5] (ByPath.write ses.store "a/b" [1, 2, 3, 4, 5])
        (ses.writeInSteps "a/b" [1, 2, 3, 4, 5]) := by
  intro config heap ses cause
  have hses : ses.Reachable config heap := .start (Store.reachable_run rfl ⟨0⟩ heap []) rfl
  have hfree : ∃ fd : Descriptor, OpenFiles.firstNumber ≤ fd.number.toNat ∧
      fd.number.toNat < OpenFiles.limit ∧ ses.files.find? fd = none :=
    ⟨⟨3⟩, by decide, by decide, rfl⟩
  exact ⟨hses, hfree, by decide +kernel, writesAlike_write hses hfree (List.cons_ne_nil _ _)⟩

end Session

end FileTree
