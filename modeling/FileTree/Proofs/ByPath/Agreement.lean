import FileTree.Proofs.ByPath.Copying
import FileTree.Proofs.Store.Renaming
import FileTree.Proofs.Text.Words

/-!
# One path, one entry

Whoever asks for an operation by path names an entry, and all operations take the path as it is
given and look it up in the same way. So they are about the same entry: what is known of a path,
what is listed or read there and what is counted is that of the entry which the path leads to, and
a change asked for is made to that entry. Where the path leads nowhere they all refuse for that, and
nothing changes.

Entering a directory is the exception. It drops blanks around the path first, so that the directory
which a path with such a blank leads to is not the one that is entered.

## Main definitions

* `ByPath.Plain`: a path that is entered as it is given
* `ByPath.LeadsTo`: every operation on a path is about an entry
* `ByPath.LeadsNowhere`: every operation on a path is refused since it leads nowhere

## Main results

* `ByPath.copy_eq_ok_iff`: when a file is copied
* `ByPath.enter_trim`: blanks around a path that is entered do not count
* `ByPath.leadsTo_or_leadsNowhere`: the operations agree on every path of a reachable store
* `ByPath.cursor_enter_ne_of_blank`: entering does not agree with the others on a path with a blank
-/

namespace FileTree.ByPath

variable {s s' : Store} {id t : EntryId} {e : Entry} {path destination : String}
  {data : List UInt8} {config : Config} {heap : Heap}

/-- The path is entered as it is given: there are no blanks around it, and it is no way to the
current directory or its parent. -/
def Plain (path : String) : Prop :=
  Text.Trimmed path ∧ path ≠ "." ∧ path ≠ ".."

instance (path : String) : Decidable (Plain path) :=
  inferInstanceAs (Decidable (_ ∧ _ ∧ _))

/-- Every operation on the path is about the entry. -/
structure LeadsTo (s : Store) (path : String) (id : EntryId) (e : Entry) : Prop where
  stat_eq : ∃ full, s.fullPath id = .ok full ∧ stat s path = .ok {
    id, name := e.name, kind := e.kind, size := e.size, capacity := e.capacity
    entryCount := if e.isDirectory then some e.children.length else none
    parent := e.parent, path := full }
  list_directory : e.kind = .directory → ∃ lines, list s path = .ok lines ∧
    lines.map Listing.id = e.children ∧ ∀ line ∈ lines, Shows s line
  list_file : e.kind = .file → list s path = .error (.store (.notADirectory id))
  usage_eq : ∃ below, below.Nodup ∧ (∀ x, x ∈ below ↔ s.table.Below id x) ∧
    usage s path = .ok (s.table.space below)
  read_file : e.kind = .file → read s path = .ok e.data
  read_directory : e.kind = .directory → read s path = .error (.store (.notAFile id))
  /-- The content of a file is replaced, unless the heap has no room for the data. -/
  write_file : e.kind = .file → ∀ data,
    (∃ s', write s path data = (.ok id, s') ∧ s.Rewritten id e data s') ∨
      ∃ c s', s.heap.allocate (data.length + s.config.writeSlack.toNat) = .error c ∧
        write s path data = (.error (.store (.allocation c)), s') ∧ s.Noted s'
  write_directory : e.kind = .directory → ∀ data,
    write s path data = (.error (.store (.notAFile id)), s)
  remove_eq : id ≠ .root → ∃ gone s', remove s path = (.ok gone.length, s') ∧ gone.Nodup ∧
    (∀ x, x ∈ gone ↔ s.table.Below id x) ∧ s.Without id e.parent gone s'
  remove_root : id = .root → remove s path = (.error (.store .cannotDeleteRoot), s)
  rename_eq : ∀ newName, s.Renaming id (Path.creationName newName) ∧
    rename s path newName = (lift (s.rename id (Path.creationName newName)).1,
      (s.rename id (Path.creationName newName)).2)
  /-- A file is copied whenever a file is there to take its content, or can be made. -/
  copy_file : e.kind = .file → ∀ destination t s', copy s path destination = (.ok t, s') ↔
    ∃ s₁, s.createFile destination = (.ok t, s₁) ∧ s₁.write t e.data = (.ok (), s')
  copied : ∀ destination t s', copy s path destination = (.ok t, s') →
    s'.readAll t = .ok e.data ∧ Copied s destination id t s'
  copy_directory : e.kind = .directory → ∀ destination,
    copy s path destination = (.error (.store (.notAFile id)), s)
  enter_directory : Plain path → e.kind = .directory →
    ∃ log, enter s path = (.ok id, { s with cursor := id, log := log })
  enter_file : Plain path → e.kind = .file →
    enter s path = (.error (.store (.notADirectory id)), s)

/-- Every operation on the path is refused since it leads nowhere, and nothing changes. -/
structure LeadsNowhere (s : Store) (path : String) : Prop where
  stat_eq : stat s path = .error (.store (.notFound path))
  list_eq : list s path = .error (.store (.notFound path))
  usage_eq : usage s path = .error (.store (.notFound path))
  read_eq : read s path = .error (.store (.notFound path))
  remove_eq : remove s path = (.error (.store (.notFound path)), s)
  rename_eq : ∀ newName, rename s path newName = (.error (.store (.notFound path)), s)
  copy_eq : ∀ destination, copy s path destination = (.error (.store (.notFound path)), s)
  enter_eq : Plain path → enter s path = (.error (.store (.notFound path)), s)

/-! ## Looking around -/

theorem list_of_file (hs : s.Sound) (hp : s.resolve path = .ok id)
    (hf : s.table.find? id = some e) (hk : e.kind = .file) :
    list s path = .error (.store (.notADirectory id)) := by
  simp only [list, target_eq_resolve hs, hp, Store.listChildren, Table.get_of_find? hf,
    if_neg (Entry.not_isDirectory hk)]

theorem exists_usage_eq (hs : s.Sound) (hp : s.resolve path = .ok id)
    (hf : s.table.find? id = some e) :
    ∃ below, below.Nodup ∧ (∀ x, x ∈ below ↔ s.table.Below id x) ∧
      usage s path = .ok (s.table.space below) := by
  obtain ⟨order, -, ho, hnd, hmem⟩ := hs.linked.exists_walk hf
  refine ⟨order, hnd, hmem, ?_⟩
  rw [usage_of_resolve hs hp, usageOf_eq hs ho, lift]

theorem read_of_resolve (hp : s.resolve path = .ok id) : read s path = lift (s.readAll id) := by
  simp only [read, hp]

/-! ## Changing the tree -/

theorem write_of_resolve (hp : s.resolve path = .ok id) (data : List UInt8) :
    write s path data = ((lift (s.write id data).1).map fun _ => id, (s.write id data).2) := by
  simp only [write, resolveOrCreate_of_resolve hp]
  obtain ⟨_ | _, s'⟩ := s.write id data <;> rfl

theorem remove_of_resolve (hp : s.resolve path = .ok id) :
    remove s path = (lift (s.delete id).1, (s.delete id).2) := by
  simp only [remove, hp]

theorem rename_of_resolve (hp : s.resolve path = .ok id) (newName : String) :
    rename s path newName = (lift (s.rename id (Path.creationName newName)).1,
      (s.rename id (Path.creationName newName)).2) := by
  simp only [rename, hp]

/-- The content of a file is replaced, unless the heap has no room for the data. -/
theorem write_of_file (hp : s.resolve path = .ok id) (hf : s.table.find? id = some e)
    (hk : e.kind = .file) (data : List UInt8) :
    (∃ s', write s path data = (.ok id, s') ∧ s.Rewritten id e data s') ∨
      ∃ c s', s.heap.allocate (data.length + s.config.writeSlack.toNat) = .error c ∧
        write s path data = (.error (.store (.allocation c)), s') ∧ s.Noted s' := by
  have hwrite := write_of_resolve hp data
  have hw := s.written_write id data
  generalize s.write id data = outcome at hwrite hw
  cases hw with
  | refused hdir => exact absurd (hk.symm.trans (hdir hf)) (by decide)
  | exhausted halloc hn => exact .inr ⟨_, _, halloc, hwrite, hn⟩
  | filled hq hf' hk' halloc =>
    exact .inl ⟨_, hwrite, (Store.Written.filled hq hf' hk' halloc).rewritten hf⟩

/-- A file is copied whenever a file is there to take its content, or can be made. -/
theorem copy_eq_ok_iff (hp : s.resolve path = .ok id) (hf : s.table.find? id = some e)
    (hk : e.kind = .file) : copy s path destination = (.ok t, s') ↔
      ∃ s₁, s.createFile destination = (.ok t, s₁) ∧ s₁.write t e.data = (.ok (), s') := by
  have hread : s.readAll id = .ok e.data := Store.readAll_of_file hf hk
  constructor
  · intro h
    obtain ⟨id', data, s₁, hp', hdata, hcreate, hwrite⟩ := exists_of_copy h
    obtain rfl := Except.ok.inj (hp.symm.trans hp')
    obtain rfl := Except.ok.inj (hread.symm.trans hdata)
    exact ⟨s₁, hcreate, hwrite⟩
  · rintro ⟨s₁, hcreate, hwrite⟩
    obtain ⟨target, htarget, hkind, -⟩ := Store.exists_rewritten_of_write hwrite
    have hentry : s₁.entry t = .ok target := Table.get_of_find? htarget
    simp only [copy, hp, hread, hcreate, hentry, if_neg (Entry.not_isDirectory hkind), hwrite]

/-- What is copied is the content of the entry. -/
theorem readAll_of_copy (hs : Store.Reachable config heap s) (hp : s.resolve path = .ok id)
    (hf : s.table.find? id = some e) (h : copy s path destination = (.ok t, s')) :
    s'.readAll t = .ok e.data ∧ Copied s destination id t s' := by
  obtain ⟨id', hp', hcopied⟩ := copied_of_copy hs h
  obtain rfl := Except.ok.inj (hp.symm.trans hp')
  obtain ⟨e', hf', hk⟩ := hcopied.exists_source
  obtain rfl := Option.some.inj (hf.symm.trans hf')
  obtain ⟨data, hdata, hcopy⟩ := hcopied.exists_content
  obtain rfl := Except.ok.inj ((Store.readAll_of_file hf hk).symm.trans hdata)
  exact ⟨hcopy, hcopied⟩

/-! ## Entering -/

/-- Blanks around a path that is entered do not count. -/
theorem enter_trim (s : Store) (path : String) : enter s (Text.trim path) = enter s path := by
  unfold enter destination
  rw [Text.trim_trim]

theorem Plain.destination_eq (h : Plain path) (s : Store) :
    ByPath.destination s path = s.resolve path := by
  obtain ⟨htrimmed, hdot, hdots⟩ := h
  simp only [ByPath.destination, htrimmed.trim_eq, if_neg htrimmed.ne_empty, if_neg hdot,
    if_neg hdots]

theorem Plain.enter_directory (h : Plain path) (hp : s.resolve path = .ok id)
    (hf : s.table.find? id = some e) (hk : e.kind = .directory) :
    ∃ log, enter s path = (.ok id, { s with cursor := id, log := log }) := by
  simp only [enter, h.destination_eq, hp, Store.changeDirectory, Table.get_of_find? hf,
    Entry.isDirectory_iff.mpr hk, if_true]
  exact ⟨_, rfl⟩

theorem Plain.enter_file (h : Plain path) (hp : s.resolve path = .ok id)
    (hf : s.table.find? id = some e) (hk : e.kind = .file) :
    enter s path = (.error (.store (.notADirectory id)), s) := by
  simp only [enter, h.destination_eq, hp, Store.changeDirectory, Table.get_of_find? hf,
    if_neg (Entry.not_isDirectory hk)]

/-! ## Agreement -/

theorem leadsTo_of_resolve (hs : Store.Reachable config heap s) (hp : s.resolve path = .ok id)
    (hf : s.table.find? id = some e) : LeadsTo s path id e where
  stat_eq := exists_stat_eq hs.sound ((target_eq_resolve hs.sound path).trans hp) hf
  list_directory := exists_list hs.sound ((target_eq_resolve hs.sound path).trans hp) hf
  list_file := list_of_file hs.sound hp hf
  usage_eq := exists_usage_eq hs.sound hp hf
  read_file hk := by rw [read_of_resolve hp, Store.readAll_of_file hf hk, lift]
  read_directory hk := by rw [read_of_resolve hp, (Store.refusesData hf hk).readAll_eq, lift]
  write_file := write_of_file hp hf
  write_directory hk data := by
    rw [write_of_resolve hp, (Store.refusesData hf hk).write_eq]
    rfl
  remove_eq hid := by
    obtain ⟨gone, s', hdelete, hrest⟩ := hs.sound.exists_delete_eq hf hid
    exact ⟨gone, s', by rw [remove_of_resolve hp, hdelete, lift], hrest⟩
  remove_root hid := by
    subst hid
    rw [remove_of_resolve hp, s.delete_root, lift]
  rename_eq newName := ⟨hs.renaming id _, rename_of_resolve hp newName⟩
  copy_file hk _ _ _ := copy_eq_ok_iff hp hf hk
  copied _ _ _ h := readAll_of_copy hs hp hf h
  copy_directory hk _ := copy_of_directory hp hf hk
  enter_directory hplain := hplain.enter_directory hp hf
  enter_file hplain := hplain.enter_file hp hf

theorem leadsNowhere_of_resolve (hs : s.Sound) (hp : s.resolve path = .error (.notFound path)) :
    LeadsNowhere s path where
  stat_eq := by simp only [stat, target_eq_resolve hs, hp]
  list_eq := by simp only [list, target_eq_resolve hs, hp]
  usage_eq := by simp only [usage, target_eq_resolve hs, hp]
  read_eq := by simp only [read, hp]
  remove_eq := by simp only [remove, hp]
  rename_eq newName := by simp only [rename, hp]
  copy_eq _ := copy_of_missing hp
  enter_eq hplain := by simp only [enter, hplain.destination_eq, hp]

/-- **The operations by path agree on every path of a reachable store**: it leads to one entry, and
all operations are about that one, or it leads nowhere, and all that do not make a file refuse for
that and change nothing. Entering a directory is one of them where the path is entered as it is
given, and elsewhere goes by the path without the blanks around it. -/
theorem leadsTo_or_leadsNowhere (hs : Store.Reachable config heap s) (path : String) :
    ((∃ id e, s.resolve path = .ok id ∧ s.table.find? id = some e ∧ LeadsTo s path id e) ∨
      s.resolve path = .error (.notFound path) ∧ LeadsNowhere s path) ∧
      enter s (Text.trim path) = enter s path := by
  refine ⟨?_, enter_trim s path⟩
  rcases hs.sound.exists_resolve_eq_ok_or path with ⟨id, hused, hp⟩ | hmissing
  · obtain ⟨e, hf⟩ := Table.isUsed_iff.mp hused
    exact .inl ⟨id, e, hp, hf, leadsTo_of_resolve hs hp hf⟩
  · exact .inr ⟨hmissing, leadsNowhere_of_resolve hs.sound hmissing⟩

/-- A file whose name ends in a blank, in a directory, and separators in rows. -/
theorem leadsTo_or_leadsNowhere_of_blank :
    let config : Config := { maxEntries := 4 }
    let s := (Store.init ⟨0⟩ config {}).run
      [.createDirectory "docs", .changeDirectory ⟨1⟩, .createFile "b ", .write ⟨2⟩ [1, 2]]
    (Store.Reachable config {} s ∧ s.resolve "//docs//b " = .ok ⟨2⟩ ∧
      read s "//docs//b " = .ok [1, 2] ∧ (remove s "b ").1 = .ok 1 ∧
      (remove s "b").1 = .error (.store (.notFound "b")) ∧ Plain "//docs/" ∧
      (enter s "//docs/").1 = .ok ⟨1⟩) ∧
      ∀ path, ((∃ id e, s.resolve path = .ok id ∧ s.table.find? id = some e ∧
          LeadsTo s path id e) ∨
        s.resolve path = .error (.notFound path) ∧ LeadsNowhere s path) ∧
        enter s (Text.trim path) = enter s path := by
  intro config s
  have hs : Store.Reachable config {} s := Store.reachable_run rfl ⟨0⟩ {} _
  refine ⟨⟨hs, ?_, ?_, ?_, ?_, ?_, ?_⟩, fun path => leadsTo_or_leadsNowhere hs path⟩
  all_goals decide +kernel

/-- Entering does not agree with the others on a path with a blank at its end, or in front: of two
directories whose names differ in a blank it goes to the other one, and it goes to a directory by
a path that leads nowhere. -/
theorem cursor_enter_ne_of_blank :
    let config : Config := { maxEntries := 4, logCapacity := 0 }
    let s := (Store.init ⟨0⟩ config {}).run [.createDirectory "a", .createDirectory "a "]
    (Store.Reachable config {} s ∧ s.resolve "a " = .ok ⟨2⟩ ∧
      (s.table.find? ⟨2⟩).map Entry.kind = some .directory ∧
      (stat s "a ").map Stat.id = .ok ⟨2⟩ ∧
      (enter s "a ").1 = .ok ⟨1⟩ ∧ (enter s "a ").2.cursor ≠ ⟨2⟩) ∧
      s.resolve " a" = .error (.notFound " a") ∧ (enter s " a").1 = .ok ⟨1⟩ := by
  intro config s
  refine ⟨⟨Store.reachable_run rfl ⟨0⟩ {} _, ?_, ?_, ?_, ?_, ?_⟩, ?_, ?_⟩
  all_goals decide +kernel

end FileTree.ByPath
