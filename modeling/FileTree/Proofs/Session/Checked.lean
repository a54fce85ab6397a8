import FileTree.Proofs.ByPath.Checked
import FileTree.Proofs.Session.Descriptor

/-!
# Requests with checked accesses

The requests of a session once more, on a store whose accesses are checked, and with the parts taken
of what is written to the console and of what is read from a file checked too. Over an orderly store
no access is out of range, whatever the open files of the session are, and no request is refused
internally.

## Main definitions

* `Session.checkedHandle`: serves a request, with checked accesses
* `SyscallError.Internal`: a request is refused internally

## Main results

* `Session.checkedHandle_eq`: no access is out of range
* `Session.not_internal_of_handle`: no refusal is internal
-/

namespace FileTree

/-- The store refuses, and its refusal is internal. -/
def SyscallError.Internal : SyscallError → Prop
  | .store cause => cause.Internal
  | _ => False

namespace Session

variable {ses : Session} {fd : Descriptor} {file : OpenFile} {cause : SyscallError}

/-! ## Accesses -/

/-- The entry for which the file was opened is still there. -/
def checkedIsCurrent (ses : Session) (file : OpenFile) : Option Bool :=
  (ses.store.table.checkedGeneration file.entry).map fun
    | .ok generation => generation == file.generation
    | .error _ => false

theorem checkedIsCurrent_eq (ses : Session) (file : OpenFile) :
    ses.checkedIsCurrent file = some (ses.isCurrent file) := by
  rw [checkedIsCurrent, Table.checkedGeneration_eq]
  rfl

/-- Writes to the console, up to the first NUL. That end is checked. -/
def checkedWriteConsole (ses : Session) (data : List UInt8) :
    Option (Except SyscallError Response × Session) :=
  (slice? data 0 (data.findIdx (· == 0))).map fun shown =>
    (.ok (.count data.length.toUInt64), { ses with console := ses.console.write shown })

theorem checkedWriteConsole_eq (ses : Session) (data : List UInt8) :
    ses.checkedWriteConsole data = some (ses.writeConsole data) := by
  have hend : (fun b : UInt8 => !(b != 0)) = (· == 0) := by
    funext b
    exact Bool.not_not _
  have hshown : data.take (data.findIdx (· == 0)) = data.takeWhile (· != 0) := by
    rw [List.takeWhile_eq_take_findIdx_not, hend]
  rw [checkedWriteConsole, slice?_zero List.findIdx_le_length, Option.map_some, hshown]
  rfl

/-- Writes to a file at the position of its descriptor, where the file then ends. -/
def checkedWriteFile (ses : Session) (fd : Descriptor) (file : OpenFile) (data : List UInt8) :
    Option (Except SyscallError Response × Session) :=
  (ses.checkedIsCurrent file).bind fun current =>
    if current then
      (ses.store.checkedReadAll file.entry).bind fun
        | .error e => some (.error (.store e), ses)
        | .ok content =>
          let offset := min file.offset content.length
          (ses.store.checkedWrite file.entry (content.take offset ++ data)).map fun
            | (.error e, store) => (.error (.store e), { ses with store := store })
            | (.ok (), store) =>
              (.ok (.count data.length.toUInt64),
                { ses with store := store, files := ses.files.seek fd (offset + data.length) })
    else some (ses.staleDescriptor fd file)

theorem checkedWriteFile_eq (hs : ses.store.Orderly) (fd : Descriptor) (file : OpenFile)
    (data : List UInt8) :
    ses.checkedWriteFile fd file data = some (ses.writeFile fd file data) := by
  rw [checkedWriteFile, checkedIsCurrent_eq, Option.bind_some, writeFile]
  split_ifs
  · rw [hs.checkedReadAll_eq, Option.bind_some]
    cases ses.store.readAll file.entry with
    | error c => rfl
    | ok content =>
      dsimp only
      rw [Store.checkedWrite_eq hs.books]
      rfl
  · rfl

/-- Writes to the console or to a file. -/
def checkedWrite (ses : Session) (fd : Descriptor) (data : List UInt8) :
    Option (Except SyscallError Response × Session) :=
  if data.isEmpty then some (.error (.invalidArgument "empty write"), ses)
  else if fd = .stdout ∨ fd = .stderr then ses.checkedWriteConsole data
  else if fd = .stdin then some (ses.badDescriptor fd)
  else
    match ses.files.find? fd with
    | none => some (ses.badDescriptor fd)
    | some file => ses.checkedWriteFile fd file data

theorem checkedWrite_eq (hs : ses.store.Orderly) (fd : Descriptor) (data : List UInt8) :
    ses.checkedWrite fd data = some (ses.write fd data) := by
  unfold checkedWrite write
  split_ifs
  · rfl
  · exact checkedWriteConsole_eq ses data
  · rfl
  · cases ses.files.find? fd with
    | none => rfl
    | some file => exact checkedWriteFile_eq hs fd file data

/-- Reads from a file at the position of its descriptor. The part that is read is checked. -/
def checkedReadFile (ses : Session) (fd : Descriptor) (file : OpenFile) (maxLength : UInt64) :
    Option (Except SyscallError Response × Session) :=
  (ses.checkedIsCurrent file).bind fun current =>
    if current then
      (ses.store.checkedReadAll file.entry).bind fun
        | .error e => some (.error (.store e), ses)
        | .ok content =>
          let start := min file.offset content.length
          let stop := min (start + maxLength.toNat) content.length
          (slice? content start stop).map fun part =>
            (.ok (.data part), { ses with files := ses.files.seek fd stop })
    else some (ses.staleDescriptor fd file)

theorem checkedReadFile_eq (hs : ses.store.Orderly) (fd : Descriptor) (file : OpenFile)
    (maxLength : UInt64) :
    ses.checkedReadFile fd file maxLength = some (ses.readFile fd file maxLength) := by
  rw [checkedReadFile, checkedIsCurrent_eq, Option.bind_some, readFile]
  split_ifs
  · rw [hs.checkedReadAll_eq, Option.bind_some]
    cases ses.store.readAll file.entry with
    | error c => rfl
    | ok content =>
      have hle : min file.offset content.length ≤
          min (min file.offset content.length + maxLength.toNat) content.length :=
        Nat.le_min.mpr ⟨Nat.le_add_right _ _, Nat.min_le_right _ _⟩
      dsimp only
      rw [slice?_eq hle (Nat.min_le_right _ _), Option.map_some]
  · rfl

/-- Reads from the keyboard or from a file. -/
def checkedRead (ses : Session) (fd : Descriptor) (maxLength : UInt64) :
    Option (Except SyscallError Response × Session) :=
  if fd = .stdin then some (ses.readKeyboard maxLength)
  else if fd = .stdout ∨ fd = .stderr then some (ses.badDescriptor fd)
  else
    match ses.files.find? fd with
    | none => some (ses.badDescriptor fd)
    | some file => ses.checkedReadFile fd file maxLength

theorem checkedRead_eq (hs : ses.store.Orderly) (fd : Descriptor) (maxLength : UInt64) :
    ses.checkedRead fd maxLength = some (ses.read fd maxLength) := by
  unfold checkedRead read
  split_ifs
  · rfl
  · rfl
  · cases ses.files.find? fd with
    | none => rfl
    | some file => exact checkedReadFile_eq hs fd file maxLength

/-- The entry to be opened. -/
def checkedLocate (s : Store) (path : String) (create : Bool) :
    Option (Except StoreError EntryId × Store) :=
  match s.resolve path with
  | .ok id => some (.ok id, s)
  | .error (.notFound missing) =>
    if create then s.checkedCreate .file path else some (.error (.notFound missing), s)
  | .error e => some (.error e, s)

theorem checkedLocate_eq {s : Store} (hs : s.Orderly) (path : String) (create : Bool) :
    checkedLocate s path create = some (locate s path create) := by
  unfold checkedLocate locate
  cases hp : s.resolve path with
  | ok id => rfl
  | error c =>
    obtain rfl := hs.sound.eq_notFound_of_resolve hp
    dsimp only
    split_ifs
    · exact hs.checkedCreate_eq .file path
    · rfl

/-- Opens a file at its start. -/
def checkedOpenFile (ses : Session) (path : String) (create : Bool) :
    Option (Except SyscallError Response × Session) :=
  (checkedLocate ses.store path create).bind fun
    | (.error e, store) => some (.error (.store e), { ses with store := store })
    | (.ok id, store) =>
      let ses := { ses with store := store }
      match ses.store.entry id with
      | .error e => some (.error (.store e), ses)
      | .ok entry =>
        if entry.isDirectory then some (.error (.store (.notAFile id)), ses)
        else
          (ses.store.table.checkedGeneration id).map fun
            | .error e => (.error (.store e), ses)
            | .ok generation =>
              match ses.files.acquire id generation with
              | .error e => (.error e, ses)
              | .ok (fd, files) =>
                (.ok (.opened fd), { ses with files := files }.trace .debug "open" (some (fd, id)))

theorem checkedOpenFile_eq (hs : ses.store.Orderly) (path : String) (create : Bool) :
    ses.checkedOpenFile path create = some (ses.openFile path create) := by
  rw [checkedOpenFile, checkedLocate_eq hs, Option.bind_some, openFile]
  -- The generation is looked up where the entry was found, whatever the store is by then.
  generalize locate ses.store path create = located
  obtain ⟨_ | id, after⟩ := located
  · rfl
  dsimp only
  cases after.entry id with
  | error c => rfl
  | ok e =>
    dsimp only
    split_ifs
    · rfl
    · rw [Table.checkedGeneration_eq]
      rfl

/-- Serves one request. The others have to do with neither the store nor parts of data. -/
def checkedHandle (ses : Session) : Request → Option (Except SyscallError Response × Session)
  | .write fd data => ses.checkedWrite fd data
  | .read fd maxLength => ses.checkedRead fd maxLength
  | .openFile path create => ses.checkedOpenFile path create
  | .exit status => some (ses.handle (.exit status))
  | .closeFile fd => some (ses.handle (.closeFile fd))
  | .getPid => some (ses.handle .getPid)
  | .getEnv key => some (ses.handle (.getEnv key))
  | .setEnv key value => some (ses.handle (.setEnv key value))

/-- **No request over an orderly store makes an access that is out of range.** -/
theorem checkedHandle_eq (hs : ses.store.Orderly) (r : Request) :
    ses.checkedHandle r = some (ses.handle r) := by
  cases r with
  | write fd data => exact checkedWrite_eq hs fd data
  | read fd maxLength => exact checkedRead_eq hs fd maxLength
  | openFile path create => exact checkedOpenFile_eq hs path create
  | exit status => rfl
  | closeFile fd => rfl
  | getPid => rfl
  | getEnv key => rfl
  | setEnv key value => rfl

/-! ## Refused requests -/

/-- What a descriptor stands for is there, unless the descriptor is stale. -/
theorem exists_entry_of_isCurrent (h : ses.isCurrent file = true) :
    ∃ e, ses.store.table.find? file.entry = some e :=
  Table.isUsed_iff.mp (isCurrent_iff.mp h).1

theorem not_internal_of_writeFile {data : List UInt8}
    (h : (ses.writeFile fd file data).1 = .error cause) : ¬ cause.Internal := by
  unfold writeFile at h
  split_ifs at h with hcurrent
  · obtain ⟨e, he⟩ := exists_entry_of_isCurrent hcurrent
    cases hread : ses.store.readAll file.entry with
    | error c =>
      rw [hread] at h
      obtain rfl := Except.error.inj h
      exact (Store.blamesGiven_of_readAll hread).not_internal he
    | ok content =>
      rw [hread] at h
      dsimp only at h
      generalize hwrite : ses.store.write file.entry _ = outcome at h
      obtain ⟨c | _, after⟩ := outcome
      · obtain rfl := Except.error.inj h
        exact (Store.blamesGiven_of_write (congrArg Prod.fst hwrite)).not_internal he
      · cases h
  · obtain rfl := Except.error.inj h
    exact not_false

theorem not_internal_of_write {data : List UInt8} (h : (ses.write fd data).1 = .error cause) :
    ¬ cause.Internal := by
  unfold write at h
  split_ifs at h
  · obtain rfl := Except.error.inj h
    exact not_false
  · cases h
  · obtain rfl := Except.error.inj h
    exact not_false
  · split at h
    · obtain rfl := Except.error.inj h
      exact not_false
    · exact not_internal_of_writeFile h

theorem not_internal_of_readFile {maxLength : UInt64}
    (h : (ses.readFile fd file maxLength).1 = .error cause) : ¬ cause.Internal := by
  unfold readFile at h
  split_ifs at h with hcurrent
  · obtain ⟨e, he⟩ := exists_entry_of_isCurrent hcurrent
    cases hread : ses.store.readAll file.entry with
    | error c =>
      rw [hread] at h
      obtain rfl := Except.error.inj h
      exact (Store.blamesGiven_of_readAll hread).not_internal he
    | ok content =>
      rw [hread] at h
      cases h
  · obtain rfl := Except.error.inj h
    exact not_false

theorem not_internal_of_read {maxLength : UInt64}
    (h : (ses.read fd maxLength).1 = .error cause) : ¬ cause.Internal := by
  unfold read at h
  split_ifs at h
  · unfold readKeyboard at h
    split_ifs at h
    split at h <;> cases h
  · obtain rfl := Except.error.inj h
    exact not_false
  · split at h
    · obtain rfl := Except.error.inj h
      exact not_false
    · exact not_internal_of_readFile h

theorem findsEntry_locate {s : Store} (hs : s.Sound) (path : String) (create : Bool) :
    Store.FindsEntry (locate s path create) := by
  unfold locate
  cases hp : s.resolve path with
  | ok id =>
    obtain ⟨e, he⟩ := hs.exists_entry_of_resolve hp
    exact .found he
  | error c =>
    obtain rfl := hs.eq_notFound_of_resolve hp
    dsimp only
    split_ifs
    · exact hs.findsEntry_create .file path
    · exact .refused not_false

/-- What is to be opened is there, and has a generation. -/
theorem not_internal_of_openFile (hs : ses.store.Sound) {path : String} {create : Bool}
    (h : (ses.openFile path create).1 = .error cause) : ¬ cause.Internal := by
  have hfinds := findsEntry_locate hs path create
  unfold openFile at h
  generalize locate ses.store path create = located at h hfinds
  cases hfinds with
  | refused hc =>
    obtain rfl := Except.error.inj h
    exact hc
  | @found id after e he =>
    simp only [Store.entry, Table.get_of_find? he, Table.generation, he] at h
    split_ifs at h
    · obtain rfl := Except.error.inj h
      exact not_false
    cases hacquire : ses.files.acquire id (after.table.generationAt id) with
    | error c =>
      rw [hacquire] at h
      obtain rfl := Except.error.inj h
      rw [OpenFiles.eq_tooManyOpenFiles_of_acquire hacquire]
      exact not_false
    | ok p =>
      rw [hacquire] at h
      cases h

theorem not_internal_of_closeFile (h : (ses.closeFile fd).1 = .error cause) :
    ¬ cause.Internal := by
  unfold closeFile at h
  split_ifs at h
  · obtain rfl := Except.error.inj h
    exact not_false
  cases hf : ses.files.find? fd with
  | none =>
    simp only [OpenFiles.close, hf] at h
    obtain rfl := Except.error.inj h
    exact not_false
  | some file =>
    simp only [OpenFiles.close, hf] at h
    cases h

theorem not_internal_of_setEnv {key value : String}
    (h : (ses.setEnv key value).1 = .error cause) : ¬ cause.Internal := by
  unfold setEnv at h
  split_ifs at h
  obtain rfl := Except.error.inj h
  exact not_false

/-- **No request over a sound store is refused internally.** -/
theorem not_internal_of_handle (hs : ses.store.Sound) {r : Request}
    (h : (ses.handle r).1 = .error cause) : ¬ cause.Internal := by
  cases r with
  | exit status => cases h
  | write fd data => exact not_internal_of_write h
  | read fd maxLength => exact not_internal_of_read h
  | openFile path create => exact not_internal_of_openFile hs h
  | closeFile fd => exact not_internal_of_closeFile h
  | getPid => cases h
  | getEnv key => cases h
  | setEnv key value => exact not_internal_of_setEnv h

end Session

end FileTree
