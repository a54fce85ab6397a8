import FileTree.Proofs.Session.Descriptor
import FileTree.Proofs.Session.FileMachine
import FileTree.Proofs.Session.Refusal
import FileTree.Proofs.Store.FileContent

/-!
# Open files are a machine of byte strings and positions

Over a heap without a limit, and as long as no file is deleted that is open, a session is to those
who open, read, write and close files the machine that has a byte string for each file and a
position for each descriptor. All else that happens shows in the machine only by which files there
are, and in a file that someone replaces.

## Main definitions

* `Session.machine`: what a session is as such a machine
* `Session.inputs`, `Session.inputsOf`: what the machine is told and asked of events
* `Session.Allows`, `Session.Admits`: requests for files, and operations that delete no open file
* `Session.Live`: what every open file stands for is there
* `Session.Mirrored`: the machine does what the session does
* `Session.Retains`: no file is opened

## Main results

* `Session.Live.mirrored`: an event does the same to the session and to the machine
* `Session.Live.react`: what every open file stands for stays there
* `Session.Live.mirrored_run`: events in order do the same to the session and to the machine
-/

namespace FileTree

namespace Store

/-- The entry is a file. -/
def isFile (s : Store) (id : EntryId) : Bool :=
  (s.content id).isSome

variable {s s' : Store} {id : EntryId} {path : String}

/-- When no file has changed, the content of files is told by which there are. -/
theorem Undisturbed.census (h : s.Undisturbed s') :
    (fun id => if s'.isFile id then some ((s.content id).getD []) else none) = s'.content := by
  funext id
  unfold isFile
  cases hc : s'.content id with
  | none => rfl
  | some data => rw [Option.isSome_some, if_pos rfl, h hc]

end Store

namespace Session

/-- The file and the position of a descriptor. -/
def position (ses : Session) (fd : Descriptor) : Option (EntryId × Nat) :=
  (ses.files.find? fd).map fun file => (file.entry, file.offset)

/-- What the session is as a machine of byte strings and positions. -/
def machine (ses : Session) : FileMachine where
  content := ses.store.content
  position := ses.position

/-- What the machine is told and asked of an event. It is told which files there are after a file
was looked for or an operation performed, and where a path leads. -/
def inputs (ses : Session) : Event → List FileMachine.Input
  | .call (.openFile path create) =>
    [.census (locate ses.store path create).2.isFile, .openFile (locate ses.store path create).1]
  | .call (.read fd maxLength) => [.read fd maxLength]
  | .call (.write fd data) => [.write fd data]
  | .call (.closeFile fd) => [.close fd]
  | .call _ => []
  | .operate (.write id data) => [.replace id data]
  | .operate op => [.census (ses.store.perform op).2.isFile]

/-- The response to an event, if it is a request. -/
def response? (ses : Session) : Event → Option (Except SyscallError Response)
  | .call r => some (ses.handle r).1
  | .operate _ => none

/-- A request to open, read, write or close a file, or an operation that deletes no open file. -/
def Allows (ses : Session) : Event → Prop
  | .call (.openFile _ _) => True
  | .call (.read fd _) => OpenFiles.firstNumber ≤ fd.number.toNat
  | .call (.write fd data) => OpenFiles.firstNumber ≤ fd.number.toNat ∧ data ≠ []
  | .call (.closeFile fd) => OpenFiles.firstNumber ≤ fd.number.toNat
  | .call _ => False
  | .operate op => ∀ ⦃fd file⦄, ses.files.find? fd = some file → ¬ ses.store.Removes op file.entry

/-- The machine answers an event as the session does, and is what the session is after it. -/
structure Mirrored (ses : Session) (ev : Event) : Prop where
  responses_eq : ses.machine.responses (ses.inputs ev) = (ses.response? ev).toList
  run_eq : ses.machine.run (ses.inputs ev) = (ses.react ev).machine

/-- The session is sound, its heap has no limit, and every open file stands for a file that is
there, in the generation in which it was opened. -/
structure Live (ses : Session) : Prop where
  sound : ses.Sound
  unlimited : ses.store.heap.limit = none
  current : ∀ ⦃fd file⦄, ses.files.find? fd = some file →
    ∃ e, ses.store.table.find? file.entry = some e ∧ e.kind = .file ∧
      ses.store.table.generationAt file.entry = file.generation

variable {ses : Session} {fd : Descriptor} {file : OpenFile} {ev : Event} {evs : List Event}

theorem position_of_find? (hf : ses.files.find? fd = some file) :
    ses.machine.position fd = some (file.entry, file.offset) := by
  show (ses.files.find? fd).map _ = _
  rw [hf, Option.map_some]

theorem position_of_find?_eq_none (hf : ses.files.find? fd = none) :
    ses.machine.position fd = none := by
  show (ses.files.find? fd).map _ = _
  rw [hf, Option.map_none]

/-- A position that is moved is moved in the machine. -/
theorem machine_seek (ses : Session) (hf : ses.files.find? fd = some file) (offset : Nat) :
    { ses with files := ses.files.seek fd offset }.machine =
      ses.machine.place fd (some (file.entry, offset)) := by
  refine FileMachine.ext rfl (funext fun other => ?_)
  show ((ses.files.seek fd offset).find? other).map _ =
    Function.update ses.machine.position fd (some (file.entry, offset)) other
  rw [OpenFiles.find?_seek, Function.update_apply]
  split_ifs with heq
  · rw [heq, hf]
    rfl
  · rfl

theorem Live.isCurrent (h : ses.Live) (hf : ses.files.find? fd = some file) :
    ses.isCurrent file = true := by
  obtain ⟨e, he, -, hgen⟩ := h.current hf
  exact isCurrent_iff.mpr ⟨Table.isUsed_of_find? he, hgen⟩

theorem Live.firstNumber_le (h : ses.Live) (hf : ses.files.find? fd = some file) :
    OpenFiles.firstNumber ≤ fd.number.toNat :=
  h.sound.files.firstNumber_le_of_find? hf

/-! ## Requests -/

/-- Nothing is read from a descriptor that is not open, and nothing is written to it. -/
theorem handle_of_find?_eq_none (hf : ses.files.find? fd = none)
    (hfd : OpenFiles.firstNumber ≤ fd.number.toNat) {r : Request} (hr : r.Accesses fd) :
    ses.handle r = ses.badDescriptor fd := by
  obtain ⟨h₀, h₁, h₂⟩ := ne_standard hfd
  cases r with
  | read fd' n =>
    obtain rfl : fd' = fd := hr
    simp only [handle, Session.read, if_neg h₀, if_neg (not_or.mpr ⟨h₁, h₂⟩), hf]
  | write fd' data =>
    obtain ⟨rfl, hne⟩ : fd' = fd ∧ data ≠ [] := hr
    simp only [handle, Session.write, List.isEmpty_iff, if_neg hne,
      if_neg (not_or.mpr ⟨h₁, h₂⟩), if_neg h₀, hf]
  | _ => cases hr

/-- The machine reads what the session reads. -/
theorem Live.read_eq (h : ses.Live) (hfd : OpenFiles.firstNumber ≤ fd.number.toNat)
    (maxLength : UInt64) : ses.machine.read fd maxLength =
      ((ses.handle (.read fd maxLength)).1, (ses.handle (.read fd maxLength)).2.machine) := by
  cases hf : ses.files.find? fd with
  | none =>
    have hbad := handle_of_find?_eq_none hf hfd (r := .read fd maxLength) rfl
    simp only [hbad, FileMachine.read, position_of_find?_eq_none hf]
    rfl
  | some file =>
    obtain ⟨e, he, hk, -⟩ := h.current hf
    have hc : ses.machine.content file.entry = some e.data :=
      Store.content_eq_some_iff.mpr ⟨e, he, hk, rfl⟩
    have hread := (follows_of_isCurrent hf hfd (h.isCurrent hf) he hk).read maxLength
    simp only [hread, FileMachine.read, position_of_find? hf, hc, machine_seek ses hf]
    have htake : (e.data.drop (min file.offset e.data.length)).take
          (min maxLength.toNat (e.data.length - min file.offset e.data.length)) =
        (e.data.drop (min file.offset e.data.length)).take maxLength.toNat := by
      rw [List.take_eq_take_iff, List.length_drop]
      omega
    have hstop : min file.offset e.data.length +
          min maxLength.toNat (e.data.length - min file.offset e.data.length) =
        min (min file.offset e.data.length + maxLength.toNat) e.data.length := by
      omega
    rw [htake, hstop]

/-- What is written to an open file stands behind what came before the position. -/
theorem Live.handle_write (h : ses.Live) (hf : ses.files.find? fd = some file)
    {old data : List UInt8} (hc : ses.store.content file.entry = some old) (hdata : data ≠ []) :
    let written := old.take (min file.offset old.length) ++ data
    ses.handle (.write fd data) = (.ok (.count data.length.toUInt64),
      { ses with
        store := (ses.store.write file.entry written).2
        files := ses.files.seek fd written.length }) := by
  intro written
  obtain ⟨e, he, hk, rfl⟩ := Store.content_eq_some_iff.mp hc
  have hok := (Store.write_of_content h.unlimited hc written).1
  have hlength : min file.offset e.data.length + data.length = written.length := by
    simp only [written, List.length_append, List.length_take]
    omega
  rw [handle_write_of_find? hf (h.firstNumber_le hf) hdata, writeFile, if_pos (h.isCurrent hf),
    Store.readAll_of_file he hk]
  dsimp only
  rw [hlength, ← Prod.mk.eta (p := ses.store.write file.entry _), hok]

/-- The machine writes what the session writes. -/
theorem Live.write_eq (h : ses.Live) (hfd : OpenFiles.firstNumber ≤ fd.number.toNat)
    {data : List UInt8} (hdata : data ≠ []) : ses.machine.write fd data =
      ((ses.handle (.write fd data)).1, (ses.handle (.write fd data)).2.machine) := by
  cases hf : ses.files.find? fd with
  | none =>
    have hbad := handle_of_find?_eq_none hf hfd (r := .write fd data) ⟨rfl, hdata⟩
    simp only [hbad, FileMachine.write, position_of_find?_eq_none hf]
    rfl
  | some file =>
    obtain ⟨e, he, hk, -⟩ := h.current hf
    have hc : ses.machine.content file.entry = some e.data :=
      Store.content_eq_some_iff.mpr ⟨e, he, hk, rfl⟩
    rw [h.handle_write hf hc hdata]
    simp only [FileMachine.write, position_of_find? hf, hc]
    generalize e.data.take _ ++ data = written
    let filled : Session := { ses with store := (ses.store.write file.entry written).2 }
    have hfill : filled.machine = ses.machine.fill file.entry written := by
      refine FileMachine.ext (funext fun id => ?_) rfl
      exact ((Store.write_of_content h.unlimited hc written).2 id).trans
        (Function.update_apply ..).symm
    rw [← hfill]
    exact congrArg (Prod.mk _) (machine_seek filled hf written.length).symm

/-- The machine closes what the session closes. -/
theorem close_eq (hfd : OpenFiles.firstNumber ≤ fd.number.toNat) : ses.machine.close fd =
    ((ses.handle (.closeFile fd)).1, (ses.handle (.closeFile fd)).2.machine) := by
  cases hf : ses.files.find? fd with
  | none =>
    have hclose : ses.files.close fd = .error (.badDescriptor fd) := by
      rw [OpenFiles.close, hf]
    simp only [handle, closeFile, if_neg (not_isStandard hfd), hclose, FileMachine.close,
      position_of_find?_eq_none hf]
    rfl
  | some file =>
    obtain ⟨files, hclose⟩ : ∃ files, ses.files.close fd = .ok (file, files) := by
      rw [OpenFiles.close, hf]
      exact ⟨_, rfl⟩
    simp only [handle, closeFile, if_neg (not_isStandard hfd), hclose, FileMachine.close,
      position_of_find? hf]
    refine congrArg (Prod.mk _) (FileMachine.ext rfl (funext fun other => ?_))
    show Function.update ses.machine.position fd none other = (files.find? other).map _
    rw [OpenFiles.find?_of_close hclose, Function.update_apply]
    split_ifs <;> rfl

theorem undisturbed_locate (hs : ses.store.Sound) (path : String) (create : Bool) :
    ses.store.Undisturbed (locate ses.store path create).2 := by
  unfold locate
  split
  · exact Store.undisturbed_of_table_eq rfl
  · split_ifs
    · exact (ses.store.created_create .file path).undisturbed hs
    · exact Store.undisturbed_of_table_eq rfl
  · exact Store.undisturbed_of_table_eq rfl

theorem exists_entry_of_locate (hs : ses.store.Sound) {path : String} {create : Bool}
    {id : EntryId} {store : Store} (h : locate ses.store path create = (.ok id, store)) :
    ∃ e, store.table.find? id = some e := by
  unfold locate at h
  split at h
  · rename_i hresolve
    cases h
    exact hs.exists_entry_of_resolve hresolve
  · split_ifs at h
    · have hc := ses.store.created_create .file path
      rw [show ses.store.create .file path = _ from h] at hc
      exact hc.exists_entry hs
    · cases h
  · cases h

/-- The machine has a descriptor free exactly when the session has. -/
theorem Live.acquire_eq (h : ses.Live) (id : EntryId) (generation : UInt32) :
    (ses.machine.free? = none ∧
      ses.files.acquire id generation = .error (.tooManyOpenFiles OpenFiles.limit)) ∨
    ∃ fd files, ses.machine.free? = some fd ∧ ses.files.acquire id generation = .ok (fd, files) := by
  have hfree : ses.machine.free? =
      ((List.range' OpenFiles.firstNumber (OpenFiles.limit - OpenFiles.firstNumber)).map
        fun n => (⟨n.toUInt32⟩ : Descriptor)).find? fun fd => (ses.files.find? fd).isNone := by
    have hnone : (fun fd => (ses.machine.position fd).isNone) =
        fun fd => (ses.files.find? fd).isNone := funext fun fd => Option.isNone_map ..
    rw [FileMachine.free?, hnone]
  rw [h.sound.files.acquire_eq, hfree]
  generalize List.find? _ _ = next
  cases next with
  | none => exact .inl ⟨rfl, rfl⟩
  | some fd => exact .inr ⟨fd, _, rfl, rfl⟩

/-- The machine opens what the session opens, once it knows which files there are. -/
theorem Live.openFile_eq (h : ses.Live) (path : String) (create : Bool) :
    { ses with store := (locate ses.store path create).2 }.machine.openFile
        (locate ses.store path create).1 =
      ((ses.handle (.openFile path create)).1,
        (ses.handle (.openFile path create)).2.machine) := by
  cases hlocate : locate ses.store path create with
  | mk located store =>
  let looked : Session := { ses with store := store }
  show looked.machine.openFile located = _
  cases located with
  | error cause =>
    simp only [handle, Session.openFile, hlocate]
    rfl
  | ok id =>
    obtain ⟨e, he⟩ := exists_entry_of_locate h.sound.store hlocate
    by_cases hdir : e.isDirectory = true
    · have hc : looked.machine.content id = none := by
        show store.content id = none
        rw [Store.content_eq, he, Option.bind_some, Entry.bytes?, if_pos hdir]
      have hentry : store.entry id = .ok e := Table.get_of_find? he
      simp only [handle, Session.openFile, hlocate, hentry, if_pos hdir, FileMachine.openFile, hc]
      rfl
    · have hk := Entry.kind_eq_file hdir
      have hc : looked.machine.content id = some e.data :=
        Store.content_eq_some_iff.mpr ⟨e, he, hk, rfl⟩
      rw [handle, openFile_of_locate hlocate he hk]
      rcases h.acquire_eq id (store.table.generationAt id) with
        ⟨hfree, hacquire⟩ | ⟨fd, files, hfree, hacquire⟩
      · simp only [FileMachine.openFile, hc, show looked.machine.free? = none from hfree, hacquire]
        rfl
      · simp only [FileMachine.openFile, hc, show looked.machine.free? = some fd from hfree,
          hacquire]
        refine congrArg (Prod.mk _) (FileMachine.ext rfl (funext fun other => ?_))
        show Function.update ses.machine.position fd _ other = (files.find? other).map _
        rw [(h.sound.files.acquire hacquire).2.2.2, Function.update_apply]
        split_ifs <;> rfl

/-! ## Events -/

/-- What is not written changes in the machine as far as files come and go. -/
theorem run_census {store : Store} (h : ses.store.Undisturbed store) :
    ses.machine.run [.census store.isFile] = { ses with store := store }.machine :=
  FileMachine.ext h.census rfl

/-- A file that someone replaces is replaced in the machine. -/
theorem Live.run_replace (h : ses.Live) (id : EntryId) (data : List UInt8) :
    ses.machine.run [.replace id data] =
      { ses with store := (ses.store.write id data).2 }.machine := by
  show (if (ses.store.content id).isSome then ses.machine.fill id data else ses.machine) = _
  cases hc : ses.store.content id with
  | none =>
    refine FileMachine.ext (funext fun x => ?_) rfl
    exact (Store.content_write_of_eq_none hc data x).symm
  | some old =>
    refine FileMachine.ext (funext fun x => ?_) rfl
    exact (Function.update_apply ..).trans
      ((Store.write_of_content h.unlimited hc data).2 x).symm

theorem mirrored_of_serve {input : FileMachine.Input} (hinput : ses.inputs ev = [input])
    (h : ses.machine.serve input = (ses.response? ev, (ses.react ev).machine)) :
    ses.Mirrored ev where
  responses_eq := by rw [hinput, FileMachine.responses_singleton, h]
  run_eq := by
    rw [hinput]
    exact congrArg Prod.snd h

/-- **An event does the same to the session and to the machine.** -/
theorem Live.mirrored (h : ses.Live) (ha : ses.Allows ev) : ses.Mirrored ev := by
  cases ev with
  | call r =>
    cases r with
    | openFile path create =>
      have hcensus := run_census (undisturbed_locate h.sound.store path create)
      have hopen := h.openFile_eq path create
      refine ⟨?_, ?_⟩
      · rw [inputs, ← List.singleton_append, FileMachine.responses_append, hcensus,
          FileMachine.responses_singleton, FileMachine.responses_singleton]
        exact congrArg (fun o => [o.1]) hopen
      · rw [inputs, ← List.singleton_append, FileMachine.run_append, hcensus]
        exact congrArg Prod.snd hopen
    | read fd maxLength =>
      apply mirrored_of_serve rfl
      rw [FileMachine.serve, h.read_eq ha]
      rfl
    | write fd data =>
      apply mirrored_of_serve rfl
      rw [FileMachine.serve, h.write_eq ha.1 ha.2]
      rfl
    | closeFile fd =>
      apply mirrored_of_serve rfl
      rw [FileMachine.serve, close_eq ha]
      rfl
    | _ => cases ha
  | operate op =>
    have hother (hop : ∀ id data, op ≠ .write id data)
        (hinputs : ses.inputs (.operate op) = [.census (ses.store.perform op).2.isFile]) :
        ses.Mirrored (.operate op) := by
      apply mirrored_of_serve hinputs
      exact congrArg (Prod.mk none) (run_census (h.sound.store.undisturbed_perform hop))
    cases op with
    | write id data =>
      apply mirrored_of_serve rfl
      exact congrArg (Prod.mk none) (h.run_replace id data)
    | _ => exact hother (fun _ _ => Operation.noConfusion) rfl

/-! ## Runs -/

/-- A file that is open was open before, up to its position. -/
def Retains (ses ses' : Session) : Prop :=
  ∀ ⦃fd file⦄, ses'.files.find? fd = some file →
    ∃ offset, ses.files.find? fd = some { file with offset := offset }

theorem retains_of_files_eq {ses' : Session} (h : ses'.files = ses.files) : ses.Retains ses' := by
  intro fd file hf
  exact ⟨file.offset, h ▸ hf⟩

theorem retains_of_files_eq_seek {ses' : Session} {offset : Nat}
    (h : ses'.files = ses.files.seek fd offset) : ses.Retains ses' := by
  intro other file hf
  rw [h, OpenFiles.find?_seek] at hf
  split_ifs at hf
  · obtain ⟨old, hold, rfl⟩ := Option.map_eq_some_iff.mp hf
    exact ⟨old.offset, hold⟩
  · exact ⟨file.offset, hf⟩

theorem Live.retains_read (h : ses.Live) (hfd : OpenFiles.firstNumber ≤ fd.number.toNat)
    (maxLength : UInt64) : ses.Retains (ses.handle (.read fd maxLength)).2 := by
  cases hf : ses.files.find? fd with
  | none =>
    rw [handle_of_find?_eq_none hf hfd (r := .read fd maxLength) rfl]
    exact retains_of_files_eq rfl
  | some file =>
    obtain ⟨e, he, hk, -⟩ := h.current hf
    rw [(follows_of_isCurrent hf hfd (h.isCurrent hf) he hk).read maxLength]
    exact retains_of_files_eq_seek rfl

theorem Live.retains_write (h : ses.Live) (hfd : OpenFiles.firstNumber ≤ fd.number.toNat)
    {data : List UInt8} (hdata : data ≠ []) : ses.Retains (ses.handle (.write fd data)).2 := by
  cases hf : ses.files.find? fd with
  | none =>
    rw [handle_of_find?_eq_none hf hfd (r := .write fd data) ⟨rfl, hdata⟩]
    exact retains_of_files_eq rfl
  | some file =>
    obtain ⟨e, he, hk, -⟩ := h.current hf
    rw [h.handle_write hf (Store.content_eq_some_iff.mpr ⟨e, he, hk, rfl⟩) hdata]
    exact retains_of_files_eq_seek rfl

theorem retains_closeFile (ses : Session) (fd : Descriptor) :
    ses.Retains (ses.handle (.closeFile fd)).2 := by
  simp only [handle, closeFile]
  split_ifs
  · exact retains_of_files_eq rfl
  split
  · exact retains_of_files_eq rfl
  · rename_i closed files hclose
    intro other file hf
    have hf : files.find? other = some file := hf
    rw [OpenFiles.find?_of_close hclose] at hf
    split_ifs at hf
    exact ⟨file.offset, hf⟩

/-- Opening a file leaves the open files as they are, or gives a descriptor. -/
theorem files_openFile_eq_or (ses : Session) (path : String) (create : Bool) :
    (ses.openFile path create).2.files = ses.files ∨
      ∃ fd, (ses.openFile path create).1 = .ok (.opened fd) := by
  unfold openFile
  split
  · exact .inl rfl
  dsimp only
  split
  · exact .inl rfl
  split_ifs
  · exact .inl rfl
  split
  · exact .inl rfl
  split
  · exact .inl rfl
  · exact .inr ⟨_, rfl⟩

/-- What is opened is there, in the generation that its slot has. -/
theorem Live.retains_or_current_openFile (h : ses.Live) (path : String) (create : Bool)
    (hf : (ses.handle (.openFile path create)).2.files.find? fd = some file) :
    (∃ offset, ses.files.find? fd = some { file with offset := offset }) ∨
      ∃ e, (ses.handle (.openFile path create)).2.store.table.find? file.entry = some e ∧
        e.kind = .file ∧ (ses.handle (.openFile path create)).2.store.table.generationAt
          file.entry = file.generation := by
  rcases ses.files_openFile_eq_or path create with hsame | ⟨next, hopened⟩
  · exact .inl (retains_of_files_eq hsame hf)
  obtain ⟨id, store, e, files, -, he, hk, hacquire, log, heq⟩ := openFile_eq_opened hopened
  rw [handle, heq] at hf ⊢
  have hf : files.find? fd = some file := hf
  rw [(h.sound.files.acquire hacquire).2.2.2 fd] at hf
  split_ifs at hf
  · obtain rfl := Option.some.inj hf
    exact .inr ⟨e, he, hk, rfl⟩
  · exact .inl ⟨file.offset, hf⟩

/-- What an open file stands for is still there after an event that opened no other. -/
theorem Live.current_of_retains (h : ses.Live) (ha : ses.Allows ev)
    (hr : ∃ offset, ses.files.find? fd = some { file with offset := offset }) :
    ∃ e, (ses.react ev).store.table.find? file.entry = some e ∧ e.kind = .file ∧
      (ses.react ev).store.table.generationAt file.entry = file.generation := by
  have hkeeps : ses.store.table.Keeps (ses.react ev).store.table file.entry := by
    apply h.sound.keeps_react
    cases ev with
    | call r => exact h.sound.not_removes_call r _
    | operate op =>
      obtain ⟨offset, hf⟩ := hr
      have hkept := ha hf
      exact hkept
  obtain ⟨offset, hf⟩ := hr
  obtain ⟨e, he, hk, hgen⟩ := h.current hf
  obtain ⟨e', he', hk'⟩ := hkeeps.exists_entry he
  exact ⟨e', he', hk'.trans hk, hkeeps.generationAt_eq.trans hgen⟩

/-- **What every open file stands for is still there after an event.** -/
theorem Live.react (h : ses.Live) (ha : ses.Allows ev) : (ses.react ev).Live where
  sound := h.sound.react ev
  unlimited := by
    have hsteps := (ses.reaches_run [ev]).steps h.sound.store
    exact hsteps.limit_eq.trans h.unlimited
  current fd file hf := by
    cases ev with
    | operate op => exact h.current_of_retains ha (retains_of_files_eq rfl hf)
    | call r =>
      cases r with
      | openFile path create =>
        rcases h.retains_or_current_openFile path create hf with hold | hnew
        · exact h.current_of_retains ha hold
        · exact hnew
      | read fd maxLength => exact h.current_of_retains ha (h.retains_read ha maxLength hf)
      | write fd data => exact h.current_of_retains ha (h.retains_write ha.1 ha.2 hf)
      | closeFile fd => exact h.current_of_retains ha (ses.retains_closeFile fd hf)
      | _ => cases ha

/-- A session without open files over a reachable store is live, if the heap has no limit. -/
theorem live_of_reachable {config : Config} {heap : Heap}
    (hstore : Store.Reachable config heap ses.store) (hl : heap.limit = none)
    (hfiles : ses.files = {}) : ses.Live where
  sound := ⟨hstore.sound, hfiles ▸ OpenFiles.ordered_empty⟩
  unlimited := by
    obtain ⟨id, s₀, hs₀, hr⟩ := hstore
    obtain ⟨hc, rfl⟩ := Store.fresh_eq_ok_iff.mp hs₀
    exact (hr.steps (Store.sound_init hc id heap)).limit_eq.trans hl
  current fd file hf := by
    rw [hfiles] at hf
    cases hf

/-- An operation that is no deletion that succeeds is allowed. -/
theorem Sound.allows_operate (h : ses.Sound) {op : Operation} (hd : ses.store.deletes op = false) :
    ses.Allows (.operate op) := by
  intro fd file _ hr
  rw [(h.store.generationAt_of_removes hr).1] at hd
  cases hd

/-- Every event is allowed when its turn comes. -/
def Admits (ses : Session) : List Event → Prop
  | [] => True
  | ev :: evs => ses.Allows ev ∧ (ses.react ev).Admits evs

/-- What the machine is told and asked of events in order. -/
def inputsOf (ses : Session) : List Event → List FileMachine.Input
  | [] => []
  | ev :: evs => ses.inputs ev ++ (ses.react ev).inputsOf evs

/-- The responses to the requests among events, in order. -/
def responses (ses : Session) : List Event → List (Except SyscallError Response)
  | [] => []
  | ev :: evs => (ses.response? ev).toList ++ (ses.react ev).responses evs

theorem run_append (ses : Session) (evs more : List Event) :
    ses.run (evs ++ more) = (ses.run evs).run more := List.foldl_append

theorem admits_append {more : List Event} :
    ses.Admits (evs ++ more) ↔ ses.Admits evs ∧ (ses.run evs).Admits more := by
  induction evs generalizing ses with
  | nil => exact ⟨fun h => ⟨trivial, h⟩, And.right⟩
  | cons ev evs ih =>
    rw [List.cons_append, Admits, ih, Admits, and_assoc]
    rfl

theorem Live.run (h : ses.Live) (ha : ses.Admits evs) : (ses.run evs).Live := by
  induction evs generalizing ses with
  | nil => exact h
  | cons ev evs ih => exact ih (h.react ha.1) ha.2

/-- **Events in order do the same to the session and to the machine.** -/
theorem Live.mirrored_run (h : ses.Live) (ha : ses.Admits evs) :
    ses.machine.responses (ses.inputsOf evs) = ses.responses evs ∧
      ses.machine.run (ses.inputsOf evs) = (ses.run evs).machine := by
  induction evs generalizing ses with
  | nil => exact ⟨rfl, rfl⟩
  | cons ev evs ih =>
    obtain ⟨hresponses, hrun⟩ := h.mirrored ha.1
    obtain ⟨hresponses', hrun'⟩ := ih (h.react ha.1) ha.2
    constructor
    · rw [inputsOf, FileMachine.responses_append, hresponses, hrun, hresponses', responses]
    · rw [inputsOf, FileMachine.run_append, hrun, hrun', run_cons]

end Session

end FileTree
