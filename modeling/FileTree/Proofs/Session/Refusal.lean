import FileTree.Proofs.Session.Event
import FileTree.Proofs.Store.NewFile

/-!
# Refused requests

A request that is refused leaves the session as it was, but for the log of its store, unless it is
one to open a file that has to be made. The file is made before a descriptor is looked for: when
none is free, the new file stays.

## Main definitions

* `Session.Noted`: nothing changed but for at most one more record in the log of the store
* `Session.Unopened`: a request to open a file that is made is refused for want of a descriptor

## Main results

* `Session.noted_or_unopened_handle`: what a refused request leaves
* `Session.noted_or_unopened_of_refused`: the same after any events
* `Session.isUsed_of_refused_open`: a refused request may change the tree
-/

namespace FileTree.Session

/-- The sessions differ at most by one more record in the log of the store, which is no error. -/
def Noted (ses ses' : Session) : Prop :=
  ∃ store, ses.store.Noted store ∧ ses' = { ses with store := store }

/-- What is left of a request to open a file that is made, when no descriptor is free for it. -/
inductive Unopened (ses : Session) : Request → SyscallError → Session → Prop
  | mk {path : String} {store : Store} : ses.store.resolve path = .error (.notFound path) →
      ses.store.GainsFile path store →
      Unopened ses (.openFile path true) (.tooManyOpenFiles OpenFiles.limit)
        { ses with store := store }

variable {ses : Session} {cause : SyscallError} {r : Request}

theorem noted_self (ses : Session) : ses.Noted ses :=
  ⟨ses.store, .refl _, rfl⟩

theorem noted_badDescriptor (ses : Session) (fd : Descriptor) :
    ses.Noted (ses.badDescriptor fd).2 :=
  ⟨_, .inr ⟨_, by simp, rfl⟩, rfl⟩

theorem noted_staleDescriptor (ses : Session) (fd : Descriptor) (file : OpenFile) :
    ses.Noted (ses.staleDescriptor fd file).2 :=
  ⟨_, .inr ⟨_, by simp, rfl⟩, rfl⟩

theorem noted_writeFile {fd : Descriptor} {file : OpenFile} {data : List UInt8}
    (h : (ses.writeFile fd file data).1 = .error cause) :
    ses.Noted (ses.writeFile fd file data).2 := by
  unfold writeFile at h ⊢
  split_ifs at h ⊢
  · split at h
    · exact noted_self ses
    rename_i content _
    have hw := ses.store.written_write file.entry
      (content.take (min file.offset content.length) ++ data)
    dsimp only at h ⊢
    generalize ses.store.write file.entry _ = outcome at h hw ⊢
    obtain ⟨_ | _, store⟩ := outcome
    · exact ⟨store, hw.noted, rfl⟩
    · cases h
  · exact noted_staleDescriptor ..

theorem noted_write {fd : Descriptor} {data : List UInt8}
    (h : (ses.write fd data).1 = .error cause) : ses.Noted (ses.write fd data).2 := by
  unfold write at h ⊢
  split_ifs at h ⊢
  · exact noted_self ses
  · cases h
  · exact noted_badDescriptor ..
  · split at h
    · exact noted_badDescriptor ..
    · exact noted_writeFile h

theorem noted_readFile {fd : Descriptor} {file : OpenFile} {maxLength : UInt64}
    (h : (ses.readFile fd file maxLength).1 = .error cause) :
    ses.Noted (ses.readFile fd file maxLength).2 := by
  unfold readFile at h ⊢
  split_ifs at h ⊢
  · split at h
    · exact noted_self ses
    · cases h
  · exact noted_staleDescriptor ..

theorem noted_read {fd : Descriptor} {maxLength : UInt64}
    (h : (ses.read fd maxLength).1 = .error cause) : ses.Noted (ses.read fd maxLength).2 := by
  unfold read at h ⊢
  split_ifs at h ⊢
  · unfold readKeyboard at h
    split_ifs at h
    split at h <;> cases h
  · exact noted_badDescriptor ..
  · split at h
    · exact noted_badDescriptor ..
    · exact noted_readFile h

theorem noted_closeFile {fd : Descriptor} (h : (ses.closeFile fd).1 = .error cause) :
    ses.Noted (ses.closeFile fd).2 := by
  unfold closeFile at h ⊢
  split_ifs at h ⊢
  · exact noted_badDescriptor ..
  split at h
  · exact ⟨_, .inr ⟨_, by simp, rfl⟩, rfl⟩
  · cases h

theorem noted_setEnv {key value : String} (h : (ses.setEnv key value).1 = .error cause) :
    ses.Noted (ses.setEnv key value).2 := by
  unfold setEnv at h ⊢
  split_ifs at h ⊢
  exact noted_self ses

/-- The file to be opened is there, or is made if that is asked for. -/
theorem located_locate {s : Store} (hs : s.Sound) (path : String) (create : Bool) :
    s.Located path (locate s path create) := by
  unfold locate
  split
  · exact .found _
  · rename_i hmissing
    split_ifs
    · exact hs.located_createFile hmissing
    · exact .refused (.refl s)
  · exact .refused (.refl s)

/-- The store is as it was when a file to be opened is there, unless that file was made. -/
theorem eq_or_gainsFile_of_locate {s s' : Store} {path : String} {create : Bool} {id : EntryId}
    (hs : s.Sound) (h : locate s path create = (.ok id, s')) :
    s' = s ∨ create = true ∧ s.resolve path = .error (.notFound path) ∧ s.GainsFile path s' ∧
      ∃ e, s'.table.find? id = some e ∧ e.kind = .file := by
  have hl := located_locate hs path create
  rw [h] at hl
  cases hl with
  | found _ => exact .inl rfl
  | made hmissing hg hf hk =>
    cases create with
    | false => simp [locate, hmissing] at h
    | true => exact .inr ⟨rfl, hmissing, hg, _, hf, hk⟩

/-- A file that is there is opened if there is a descriptor for it. -/
theorem openFile_of_locate {path : String} {create : Bool} {id : EntryId} {store : Store}
    {e : Entry} (hlocate : locate ses.store path create = (.ok id, store))
    (hf : store.table.find? id = some e) (hk : e.kind = .file) :
    ses.openFile path create =
      match ses.files.acquire id (store.table.generationAt id) with
      | .error c => (.error c, { ses with store := store })
      | .ok (fd, files) => (.ok (.opened fd),
          { ses with store := store, files := files }.trace .debug "open" (some (fd, id))) := by
  have hentry : store.entry id = .ok e := Table.get_of_find? hf
  have hgeneration : store.table.generation id = .ok (store.table.generationAt id) := by
    rw [Table.generation, hf]
  cases hacquire : ses.files.acquire id (store.table.generationAt id) <;>
    simp only [openFile, hlocate, hentry, hgeneration, if_neg (Entry.not_isDirectory hk), hacquire]

theorem noted_or_unopened_openFile (hs : ses.store.Sound) {path : String} {create : Bool}
    (h : (ses.openFile path create).1 = .error cause) :
    ses.Noted (ses.openFile path create).2 ∨
      ses.Unopened (.openFile path create) cause (ses.openFile path create).2 := by
  have hl := located_locate hs path create
  cases hlocate : locate ses.store path create with
  | mk located store =>
  rw [hlocate] at hl
  cases located with
  | error c =>
    cases hl with
    | refused hn => exact .inl ⟨store, hn, by simp only [openFile, hlocate]⟩
  | ok id =>
    rcases eq_or_gainsFile_of_locate hs hlocate with rfl | ⟨rfl, hmissing, hg, e, hf, hk⟩
    · left
      simp only [openFile, hlocate] at h ⊢
      split at h
      · exact noted_self ses
      split_ifs at h ⊢
      · exact noted_self ses
      split at h
      · exact noted_self ses
      split at h
      · exact noted_self ses
      · cases h
    · right
      rw [openFile_of_locate hlocate hf hk] at h ⊢
      cases hacquire : ses.files.acquire id (store.table.generationAt id) with
      | error c =>
        obtain rfl := OpenFiles.eq_tooManyOpenFiles_of_acquire hacquire
        rw [hacquire] at h
        obtain rfl := Except.error.inj h
        exact .mk hmissing hg
      | ok opened =>
        rw [hacquire] at h
        cases h

/-- **What a refused request leaves**: the session as it was, but for the log, or the file that
was to be opened and had to be made. -/
theorem noted_or_unopened_handle (hs : ses.store.Sound) (h : (ses.handle r).1 = .error cause) :
    ses.Noted (ses.handle r).2 ∨ ses.Unopened r cause (ses.handle r).2 := by
  cases r with
  | exit status => cases h
  | write fd data => exact .inl (noted_write h)
  | read fd maxLength => exact .inl (noted_read h)
  | openFile path create => exact noted_or_unopened_openFile hs h
  | closeFile fd => exact .inl (noted_closeFile h)
  | getPid => cases h
  | getEnv key => cases h
  | setEnv key value => exact .inl (noted_setEnv h)

/-- **A refused request leaves the session as it was, but for at most one more record in the log
of the store**, whatever happened before; or it was to open a file that had to be made, no
descriptor is free, and the new file is left. -/
theorem noted_or_unopened_of_refused {config : Config} {heap : Heap}
    (hs : Store.Reachable config heap ses.store) {evs : List Event}
    (h : ((ses.run evs).handle r).1 = .error cause) :
    (ses.run evs).Noted ((ses.run evs).handle r).2 ∨
      (ses.run evs).Unopened r cause ((ses.run evs).handle r).2 :=
  noted_or_unopened_handle ((reaches_run ses evs).sound hs.sound) h

/-- A write for which there is no room, to a file that was written before. -/
theorem noted_or_unopened_of_refused_write :
    let config : Config := { maxEntries := 4, writeSlack := 4 }
    let heap : Heap := { limit := some 16 }
    let ses : Session := { store := Store.init ⟨0⟩ config heap }
    let evs : List Event := [.call (.openFile "a" true), .call (.write ⟨3⟩ [1, 2, 3])]
    let r : Request := .write ⟨3⟩ [4, 5, 6]
    let cause : SyscallError := .store (.allocation (.outOfMemory 10 9))
    (Store.Reachable config heap ses.store ∧ ((ses.run evs).handle r).1 = .error cause) ∧
      ((ses.run evs).Noted ((ses.run evs).handle r).2 ∨
        (ses.run evs).Unopened r cause ((ses.run evs).handle r).2) := by
  intro config heap ses evs r cause
  have hs : Store.Reachable config heap ses.store := Store.reachable_run rfl ⟨0⟩ heap []
  have h : ((ses.run evs).handle r).1 = .error cause := by decide +kernel
  exact ⟨⟨hs, h⟩, noted_or_unopened_of_refused hs h⟩

/-! ## A file that stays unopened -/

section Filling

variable {path : String} {id : EntryId} {e : Entry}

/-- While descriptors are left, a file that is there takes one. -/
theorem exists_openFile_of_resolve (hresolve : ses.store.resolve path = .ok id)
    (hf : ses.store.table.find? id = some e) (hk : e.kind = .file) (hdense : ses.files.Dense)
    (hlt : OpenFiles.firstNumber + ses.files.size < OpenFiles.limit) :
    ∃ log files, (ses.openFile path false).2 =
        { ses with store := { ses.store with log := log }, files := files } ∧
      files.Dense ∧ files.size = ses.files.size + 1 := by
  obtain ⟨fd, files, hacquire, hfiles, hsize⟩ :=
    hdense.exists_acquire hlt id (ses.store.table.generationAt id)
  have hlocate : locate ses.store path false = (.ok id, ses.store) := by
    simp only [locate, hresolve]
  have hopen : (ses.openFile path false).2 =
      { ses with files := files }.trace .debug "open" (some (fd, id)) := by
    rw [openFile_of_locate hlocate hf hk, hacquire]
  exact ⟨_, files, hopen.trans rfl, hfiles, hsize⟩

/-- A file that is there is opened as often as descriptors are left, and each time takes one. -/
theorem exists_run_replicate_openFile (hresolve : ses.store.resolve path = .ok id)
    (hf : ses.store.table.find? id = some e) (hk : e.kind = .file) (hdense : ses.files.Dense)
    {n : Nat} (hle : OpenFiles.firstNumber + ses.files.size + n ≤ OpenFiles.limit) :
    ∃ log files, ses.run (List.replicate n (.call (.openFile path false))) =
        { ses with store := { ses.store with log := log }, files := files } ∧
      files.Dense ∧ files.size = ses.files.size + n := by
  induction n generalizing ses with
  | zero => exact ⟨ses.store.log, ses.files, rfl, hdense, rfl⟩
  | succ n ih =>
    obtain ⟨log, files, heq, hfiles, hsize⟩ :=
      exists_openFile_of_resolve hresolve hf hk hdense (by omega)
    obtain ⟨log', files', heq', hfiles', hsize'⟩ :=
      @ih { ses with store := { ses.store with log := log }, files := files } hresolve hf hfiles
        (by dsimp only; omega)
    refine ⟨log', files', ?_, hfiles', by rw [hsize', hsize]; omega⟩
    rw [List.replicate_succ, run_cons, react, handle, heq, heq']

/-- A file that is made is not opened when no descriptor is left. -/
theorem openFile_of_acquire_eq_error {store : Store}
    (hmissing : ses.store.resolve path = .error (.notFound path))
    (hmade : ses.store.createFile path = (.ok id, store))
    (hf : store.table.find? id = some e) (hk : e.kind = .file)
    (hacquire : ∀ generation, ses.files.acquire id generation = .error cause) :
    ses.openFile path true = (.error cause, { ses with store := store }) := by
  have hlocate : locate ses.store path true = (.ok id, store) := by
    simp only [locate, hmissing, if_true, hmade]
  rw [openFile_of_locate hlocate hf hk, hacquire]

end Filling

/-- A refused request may change the tree: one file takes all descriptors, another is made, and
one more slot is in use when it is not opened. -/
theorem isUsed_of_refused_open :
    let config : Config := { maxEntries := 4, logCapacity := 0 }
    let ses : Session := { store := Store.init ⟨0⟩ config {} }
    let evs : List Event :=
      .operate (.createFile "f") :: List.replicate 253 (.call (.openFile "f" false))
    let r : Request := .openFile "g" true
    Store.Reachable config {} ses.store ∧
      ((ses.run evs).handle r).1 = .error (.tooManyOpenFiles 256) ∧
      (ses.run evs).store.table.isUsed ⟨2⟩ = false ∧
      ((ses.run evs).handle r).2.store.table.isUsed ⟨2⟩ = true := by
  intro config ses evs r
  have hs : Store.Reachable config {} ses.store := Store.reachable_run rfl ⟨0⟩ {} []
  let made := ses.react (.operate (.createFile "f"))
  let f : Entry := { name := "f", kind := .file, parent := .root }
  let g : Entry := { name := "g", kind := .file, parent := made.store.cursor }
  let dir : Entry := { Entry.root with children := [⟨1⟩] }
  have hf : made.store.table.find? ⟨1⟩ = some f := by decide
  have hg : (made.store.table.attach [3] ⟨2⟩ g).find? ⟨2⟩ = some g := by decide
  have hfound : made.store.resolve "f" = .ok ⟨1⟩ := by decide
  have hmissing : made.store.resolve "g" = .error (.notFound "g") := by decide
  have hname : made.store.normalizeName (Path.creationName "g") "g" = .ok "g" := by decide
  have hnone : made.store.table.findChild? made.store.cursor "g" = none := by decide
  have hdir : made.store.table.find? made.store.cursor = some dir := by decide
  have hroom : dir.children.length < made.store.config.maxChildren.toNat := by decide
  have hfree : made.store.table.free = [2, 3] := by decide
  have hunused : made.store.table.isUsed ⟨2⟩ = false := by decide
  have hrun : ses.run evs = made.run (List.replicate 253 (.call (.openFile "f" false))) :=
    run_cons ..
  have hdense : made.files.Dense := OpenFiles.dense_empty
  have hsize : made.files.size = 0 := rfl
  -- This is all that is needed of that session, which is now any such session.
  clear_value made
  obtain ⟨log, files, hopened, hdense, hfull⟩ :=
    exists_run_replicate_openFile (n := 253) hfound hf rfl hdense (by rw [hsize]; decide)
  let full : Session := { made with store := { made.store with log := log }, files := files }
  obtain ⟨log', hmade⟩ :=
    Store.exists_createFile_eq (s := full.store) hname hnone hdir hroom hfree
  have hacquire (generation : UInt32) :
      full.files.acquire ⟨2⟩ generation = .error (.tooManyOpenFiles OpenFiles.limit) :=
    hdense.acquire_eq_error (by rw [hfull, hsize]; decide) ⟨2⟩ generation
  rw [hrun, hopened, handle,
    @openFile_of_acquire_eq_error full _ _ _ _ _ hmissing hmade hg rfl hacquire]
  exact ⟨hs, rfl, hunused, Table.isUsed_of_find? hg⟩

end FileTree.Session
