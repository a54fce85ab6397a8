import FileTree.Proofs.Session.Files
import FileTree.Proofs.Store.Survival
import FileTree.Session

/-!
# What serving a request does

A request acts on the store by at most one operation, which is no deletion, and on the open files
by one change. Opening a file leads to the entry that the path names.

## Main definitions

* `Store.Serves`: what serving a request does to the store
* `Session.Served`: what serving a request does to the store and the open files

## Main results

* `Session.served_handle`: serving a request does that
* `Session.openFile_eq_opened`: what a file that was opened stands for
-/

namespace FileTree

/-- What serving a request does to the store: at most one operation, which deletes nothing. -/
inductive Store.Serves (s : Store) : Store → Prop
  | relog (log : Log) : Serves s { s with log := log }
  | perform {op : Operation} (log : Log) : s.deletes op = false →
      Serves s { (s.perform op).2 with log := log }

namespace Store

variable {s s' : Store} {id : EntryId}

theorem Serves.refl (s : Store) : s.Serves s := .relog s.log

theorem Serves.withLog (h : s.Serves s') (log : Log) : s.Serves { s' with log := log } := by
  cases h with
  | relog _ => exact .relog log
  | perform _ hd => exact .perform log hd

theorem Serves.reaches (h : s.Serves s') : s.Reaches s' := by
  cases h with
  | relog log => exact .relog log .refl
  | perform log _ => exact .relog log (.perform _ .refl)

theorem Serves.keeps (h : s.Serves s') (hs : s.Sound) (id : EntryId) :
    s.table.Keeps s'.table id := by
  cases h with
  | relog log => exact .refl _ id
  | perform log hd =>
    refine (hs.keeps_or_removed _ id).resolve_right fun hr => ?_
    rw [hd] at hr
    cases hr.1

end Store

namespace Session

variable {ses ses' : Session} {fd : Descriptor} {r : Request}

/-- What serving a request does to the store and the open files. -/
structure Served (ses : Session) (r : Request) (ses' : Session) : Prop where
  store : ses.store.Serves ses'.store
  files : ses.files.Change r ses'.files

theorem served_self (ses : Session) (r : Request) : ses.Served r ses :=
  ⟨.refl _, .same⟩

theorem served_badDescriptor (ses : Session) (r : Request) (fd : Descriptor) :
    ses.Served r (ses.badDescriptor fd).2 :=
  ⟨.relog _, .same⟩

theorem served_staleDescriptor (ses : Session) (r : Request) (fd : Descriptor)
    (file : OpenFile) : ses.Served r (ses.staleDescriptor fd file).2 :=
  ⟨.relog _, .same⟩

theorem served_writeFile (ses : Session) (r : Request) (fd : Descriptor) (file : OpenFile)
    (data : List UInt8) : ses.Served r (ses.writeFile fd file data).2 := by
  unfold writeFile
  split_ifs
  · split
    · exact served_self ses r
    rename_i content _
    have hw : ses.store.Serves (ses.store.write file.entry
        (content.take (min file.offset content.length) ++ data)).2 :=
      @Store.Serves.perform _ (.write _ _) _ rfl
    dsimp only
    generalize ses.store.write file.entry _ = outcome at hw ⊢
    obtain ⟨_ | _, after⟩ := outcome
    · exact ⟨hw, .same⟩
    · exact ⟨hw, .seek _ _⟩
  · exact served_staleDescriptor ..

theorem served_write (ses : Session) (r : Request) (fd : Descriptor) (data : List UInt8) :
    ses.Served r (ses.write fd data).2 := by
  unfold write
  split_ifs
  · exact served_self ses r
  · exact ⟨.refl _, .same⟩
  · exact served_badDescriptor ..
  · split
    · exact served_badDescriptor ..
    · exact served_writeFile ..

theorem served_readFile (ses : Session) (r : Request) (fd : Descriptor) (file : OpenFile)
    (maxLength : UInt64) : ses.Served r (ses.readFile fd file maxLength).2 := by
  unfold readFile
  split_ifs
  · split
    · exact served_self ses r
    · exact ⟨.refl _, .seek _ _⟩
  · exact served_staleDescriptor ..

theorem served_read (ses : Session) (r : Request) (fd : Descriptor) (maxLength : UInt64) :
    ses.Served r (ses.read fd maxLength).2 := by
  unfold read
  split_ifs
  · unfold readKeyboard
    split_ifs
    · exact served_self ses r
    · split <;> exact ⟨.refl _, .same⟩
  · exact served_badDescriptor ..
  · split
    · exact served_badDescriptor ..
    · exact served_readFile ..

theorem serves_locate (s : Store) (path : String) (create : Bool) :
    s.Serves (locate s path create).2 := by
  unfold locate
  split
  · exact .refl s
  · split_ifs
    · exact @Store.Serves.perform _ (.createFile path) _ rfl
    · exact .refl s
  · exact .refl s

theorem served_openFile (ses : Session) (r : Request) (path : String) (create : Bool) :
    ses.Served r (ses.openFile path create).2 := by
  have hl := serves_locate ses.store path create
  unfold openFile
  generalize locate ses.store path create = outcome at hl ⊢
  obtain ⟨_ | id, store⟩ := outcome
  · exact ⟨hl, .same⟩
  dsimp only
  split
  · exact ⟨hl, .same⟩
  split_ifs
  · exact ⟨hl, .same⟩
  split
  · exact ⟨hl, .same⟩
  split
  · exact ⟨hl, .same⟩
  rename_i hacquire
  exact ⟨hl.withLog _, .acquire hacquire⟩

theorem served_closeFile (ses : Session) (fd : Descriptor) :
    ses.Served (.closeFile fd) (ses.closeFile fd).2 := by
  unfold closeFile
  split_ifs
  · exact served_badDescriptor ..
  split
  · exact ⟨.relog _, .same⟩
  rename_i hclose
  exact ⟨.relog _, .close rfl hclose⟩

/-- **Serving a request** acts on the store by at most one operation, which deletes nothing, and
on the open files by one change. -/
theorem served_handle (ses : Session) (r : Request) : ses.Served r (ses.handle r).2 := by
  cases r with
  | exit status => exact ⟨.relog _, .same⟩
  | write fd data => exact served_write ..
  | read fd maxLength => exact served_read ..
  | openFile path create => exact served_openFile ..
  | closeFile fd => exact served_closeFile ..
  | getPid => exact served_self ..
  | getEnv key => exact served_self ..
  | setEnv key value =>
    simp only [handle, setEnv]
    split_ifs
    · exact served_self ..
    · exact ⟨.refl _, .same⟩

/-- An opened file stands for the entry that the path names, which is a file, in the generation
that its slot has. -/
theorem openFile_eq_opened {path : String} {create : Bool}
    (h : (ses.openFile path create).1 = .ok (.opened fd)) :
    ∃ id store e files, locate ses.store path create = (.ok id, store) ∧
      store.table.find? id = some e ∧ e.kind = .file ∧
      ses.files.acquire id (store.table.generationAt id) = .ok (fd, files) ∧
      ∃ log, (ses.openFile path create).2 =
        { ses with store := { store with log := log }, files := files } := by
  unfold openFile at h ⊢
  generalize locate ses.store path create = outcome at h ⊢
  obtain ⟨_ | id, store⟩ := outcome
  · cases h
  dsimp only at h ⊢
  cases he : store.entry id with
  | error cause => simp [he] at h
  | ok e =>
    have hf : store.table.find? id = some e := Table.get_eq_ok_iff.mp he
    have hg : store.table.generation id = .ok (store.table.generationAt id) := by
      rw [Table.generation, hf]
    simp only [he, hg] at h ⊢
    split_ifs at h ⊢ with hdir
    have hk := Entry.kind_eq_file hdir
    cases ha : ses.files.acquire id (store.table.generationAt id) with
    | error cause => simp [ha] at h
    | ok opened =>
      obtain ⟨fd', files⟩ := opened
      simp only [ha, Except.ok.injEq, Response.opened.injEq] at h
      subst h
      exact ⟨id, store, e, files, rfl, hf, hk, ha, _, rfl⟩

end Session

end FileTree
