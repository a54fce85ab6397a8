import FileTree.Proofs.Session.Descriptor
import FileTree.Proofs.Store.Renaming

/-!
# A renaming and the open files

An open file is an entry and the generation of its slot, and a renaming touches neither. So every
descriptor is as current as it was, reads the same bytes, and goes on to read and write the entry
for which it was opened.

## Main definitions

* `Store.DiffersInNames`: two stores have the same entries, but perhaps under other names
* `Session.KeepsOpenFiles`: the open files of a session are those of another one

## Main results

* `Session.Sound.keepsOpenFiles_rename`: no renaming disturbs an open file
* `Store.Reachable.renaming_keepsOpenFiles`: what a renaming does, the open files included
-/

namespace FileTree

namespace Store

variable {s s' : Store} {id : EntryId} {given : String}

/-- The stores have the same entries in slots of the same generations, but perhaps under other
names. -/
structure DiffersInNames (s s' : Store) : Prop where
  find?_eq : ∀ x, ∃ name, s'.table.find? x = (s.table.find? x).map (·.renamed name)
  generationAt_eq : ∀ x, s'.table.generationAt x = s.table.generationAt x

theorem DiffersInNames.refl (s : Store) : s.DiffersInNames s where
  find?_eq x := by
    cases h : s.table.find? x with
    | none => exact ⟨"", rfl⟩
    | some e => exact ⟨e.name, rfl⟩
  generationAt_eq _ := rfl

/-- Whatever a renaming comes to, names are all that changes in the table. -/
theorem Renamed.differsInNames {outcome : Except StoreError Unit × Store}
    (h : s.Renamed id given outcome) : s.DiffersInNames outcome.2 := by
  cases h with
  | refused => exact .refl s
  | kept _ _ _ => exact .refl s
  | @renamed e name r _ _ _ _ _ _ =>
    refine ⟨fun x => ?_, fun x => Table.generationAt_modify _ _ x _⟩
    obtain ⟨kept, hkept⟩ := (DiffersInNames.refl s).find?_eq x
    show ∃ _, (s.table.modify id (·.renamed name)).find? x = _
    rw [Table.find?_modify]
    split_ifs
    · exact ⟨name, rfl⟩
    · exact ⟨kept, hkept⟩

/-- The content of a file does not depend on its name. -/
theorem DiffersInNames.readAll_eq (h : s.DiffersInNames s') (x : EntryId) :
    s'.readAll x = s.readAll x := by
  obtain ⟨name, hx⟩ := h.find?_eq x
  simp only [readAll, Table.get, hx]
  cases s.table.find? x <;> rfl

end Store

namespace Session

variable {ses : Session} {s' : Store} {fd : Descriptor} {id : EntryId} {e : Entry} {offset : Nat}

/-- The open files of a session are those of another one. They are as current as there, the same is
read from them, and a descriptor that reads and writes an entry does so under whatever name the
entry has now. -/
structure KeepsOpenFiles (ses ses' : Session) : Prop where
  files_eq : ses'.files = ses.files
  isCurrent_eq : ∀ file, ses'.isCurrent file = ses.isCurrent file
  read_eq : ∀ fd n, (ses'.handle (.read fd n)).1 = (ses.handle (.read fd n)).1
  follows : ∀ ⦃fd id e offset⦄, ses.Follows fd id e offset →
    ∃ name, ses'.Follows fd id { e with name := name } offset

theorem isCurrent_of_differsInNames (h : ses.store.DiffersInNames s') (file : OpenFile) :
    { ses with store := s' }.isCurrent file = ses.isCurrent file := by
  obtain ⟨name, hx⟩ := h.find?_eq file.entry
  simp only [isCurrent, Table.generation, hx, h.generationAt_eq]
  cases ses.store.table.find? file.entry <;> rfl

theorem fst_read_of_differsInNames (h : ses.store.DiffersInNames s') (fd : Descriptor)
    (n : UInt64) :
    ({ ses with store := s' }.handle (.read fd n)).1 = (ses.handle (.read fd n)).1 := by
  simp only [handle, read]
  split_ifs with hin
  · simp only [readKeyboard]
    split_ifs
    · rfl
    · rcases ses.keyboard.poll with ⟨_ | b, keyboard⟩ <;> rfl
  · rfl
  · cases ses.files.find? fd with
    | none => rfl
    | some file =>
      simp only [readFile, isCurrent_of_differsInNames h, h.readAll_eq]
      split_ifs
      · cases ses.store.readAll file.entry <;> rfl
      · rfl

/-- A descriptor that reads and writes an entry is that of a file which is current. -/
theorem Follows.exists_isCurrent (h : ses.Follows fd id e offset) (hs : ses.files.Ordered) :
    ∃ file, ses.files.find? fd = some file ∧ file.entry = id ∧
      offset = min file.offset e.data.length ∧ OpenFiles.firstNumber ≤ fd.number.toNat ∧
      ses.isCurrent file = true := by
  obtain ⟨file, hfile, hentry, hoffset⟩ := h.position
  have hfd := hs.firstNumber_le_of_find? hfile
  refine ⟨file, hfile, hentry, hoffset, hfd, ?_⟩
  by_contra hstale
  exact h.fst_handle_ne (r := .read fd 0) rfl
    ((stale_of_not_isCurrent hfile hfd hstale).fst_handle rfl)

/-- **No renaming disturbs an open file**, whether it succeeds or is refused. -/
theorem keepsOpenFiles_rename (hs : ses.files.Ordered) (x : EntryId) (given : String) :
    ses.KeepsOpenFiles (ses.react (.operate (.rename x given))) := by
  have h : ses.store.DiffersInNames (ses.store.rename x given).2 :=
    (ses.store.renamed_rename x given).differsInNames
  refine ⟨rfl, isCurrent_of_differsInNames h, fst_read_of_differsInNames h,
    fun fd id e offset hfollows => ?_⟩
  obtain ⟨file, hfile, rfl, rfl, hfd, hcurrent⟩ := hfollows.exists_isCurrent hs
  obtain ⟨name, hfound⟩ := h.find?_eq file.entry
  rw [hfollows.found, Option.map_some] at hfound
  exact ⟨name, follows_of_isCurrent hfile hfd
    ((isCurrent_of_differsInNames h file).trans hcurrent) hfound hfollows.kind_eq⟩

end Session

/-- **What a renaming does, in every case and to every session.** It succeeds or is refused for the
first reason there is; if it succeeds, one name changes and nothing else, paths change where that
name stands in them, and open files stay as they are. -/
theorem Store.Reachable.renaming_keepsOpenFiles {config : Config} {heap : Heap} {s : Store}
    (hs : Reachable config heap s) (id : EntryId) (given : String) :
    s.Renaming id given ∧ ∀ ses : Session, ses.store = s → ses.files.Ordered →
      ses.KeepsOpenFiles (ses.react (.operate (.rename id given))) :=
  ⟨hs.renaming id given, fun _ _ hfiles => Session.keepsOpenFiles_rename hfiles id given⟩

/-- A directory in a directory of the same name: the outer one is renamed, under a name that is
cut, and only where it stands does a path change. A file in it is open meanwhile. -/
theorem Store.Reachable.renaming_keepsOpenFiles_of_same_names :
    let config : Config := { maxEntries := 5, maxNameLength := 3 }
    let s := (init ⟨0⟩ config {}).run
      [.createDirectory "docs", .changeDirectory ⟨1⟩, .createDirectory "doc", .createFile "old"]
    let file : OpenFile := { entry := ⟨3⟩, generation := 0, offset := 0 }
    let ses : Session := { store := s, files := ⟨[(⟨3⟩, file)]⟩ }
    (Reachable config {} s ∧ ses.files.Ordered ∧ ses.isCurrent file = true ∧
      s.resolve "//doc/doc/" = .ok ⟨2⟩ ∧
      (s.rename ⟨1⟩ "netto").1 = .ok () ∧ (s.rename ⟨2⟩ "older").1 = .error (.alreadyExists "old") ∧
      (s.rename ⟨1⟩ "netto").2.resolve "//net/doc/" = .ok ⟨2⟩ ∧
      (s.rename ⟨1⟩ "netto").2.resolve "//doc/doc/" = .error (.notFound "//doc/doc/")) ∧
      s.Renaming ⟨1⟩ "netto" ∧
      ses.KeepsOpenFiles (ses.react (.operate (.rename ⟨1⟩ "netto"))) := by
  intro config s file ses
  have hs : Reachable config {} s := reachable_run rfl ⟨0⟩ {} _
  have hfiles : ses.files.Ordered := ⟨List.pairwise_singleton _ _, by decide⟩
  have hcurrent : ses.isCurrent file = true := by decide +kernel
  have hresolve : s.resolve "//doc/doc/" = .ok ⟨2⟩ := by decide +kernel
  have hrenamed : (s.rename ⟨1⟩ "netto").1 = .ok () := by decide +kernel
  have hrefused : (s.rename ⟨2⟩ "older").1 = .error (.alreadyExists "old") := by decide +kernel
  have hnew : (s.rename ⟨1⟩ "netto").2.resolve "//net/doc/" = .ok ⟨2⟩ := by decide +kernel
  have hold : (s.rename ⟨1⟩ "netto").2.resolve "//doc/doc/" = .error (.notFound "//doc/doc/") := by
    decide +kernel
  clear_value s
  obtain ⟨hrenaming, hkeeps⟩ := hs.renaming_keepsOpenFiles ⟨1⟩ "netto"
  exact ⟨⟨hs, hfiles, hcurrent, hresolve, hrenamed, hrefused, hnew, hold⟩, hrenaming,
    hkeeps ses rfl hfiles⟩

end FileTree
