import FileTree.Proofs.Store.NewEntry
import FileTree.Proofs.Store.Refusal

/-!
# Files made on the way

Some requests make a file that they do not find, and then do something with it. If that is refused,
the file is already there: the store has one entry more, and is otherwise as it was.

## Main definitions

* `Store.GainsFile`: a store differs from another in the log and in one new, empty file
* `Store.FoundOrMade`: a store is as it was, or an entry in it is such a file
* `Store.Located`: what looking for an entry, and making a file if there is none, can come to

## Main results

* `Store.Sound.foundOrMade`, `Store.Sound.located_createFile`: what making a file comes to
* `Store.exists_createFile_eq`: where there is room, a file with a new name is made
* `Store.Written.noted_or_gainsFile`: what is left when the file is not filled
-/

namespace FileTree.Store

variable {s s' s'' : Store} {id : EntryId} {path : String} {cause : StoreError}

/-- The stores differ in the log, and in one new file: it is empty, stands last in the current
directory and has the name that the path gives a new entry, which no entry there had. -/
inductive GainsFile (s : Store) (path : String) : Store → Prop
  | mk {name : String} {id : EntryId} {rest : List Nat} (log : Log) :
      s.normalizeName (Path.creationName path) path = .ok name →
      s.table.findChild? s.cursor name = none → s.table.free = id.index :: rest →
      GainsFile s path { s with
        table := s.table.attach rest id { name, kind := .file, parent := s.cursor }
        log := log }

theorem GainsFile.noted (h : s.GainsFile path s') (hn : s'.Noted s'') : s.GainsFile path s'' := by
  obtain ⟨log, rfl, -⟩ := hn.exists_log
  cases h with
  | mk _ hname hnone hfree => exact .mk log hname hnone hfree

/-- The store is as it was, or the entry is a file that was made in it. -/
def FoundOrMade (s : Store) (path : String) (id : EntryId) (s' : Store) : Prop :=
  s' = s ∨ s.GainsFile path s' ∧ ∃ e, s'.table.find? id = some e ∧ e.kind = .file

theorem Sound.foundOrMade (hs : s.Sound) (h : s.Created .file path (.ok id, s')) :
    s.FoundOrMade path id s' := by
  cases h with
  | found _ _ => exact .inl rfl
  | @made name dir id rest r _ hname hnone hdir _ hfree =>
    have ha : s.table.Attachable id { name, kind := .file, parent := s.cursor } dir :=
      hs.attachable hdir hfree
    exact .inr ⟨.mk _ hname hnone hfree, _, ha.find?_attach_self, rfl⟩

/-- What was made, or found in its place, is an entry. -/
theorem Created.exists_entry {kind : EntryKind} (ho : s.Created kind path (.ok id, s'))
    (hs : s.Sound) : ∃ e, s'.table.find? id = some e := by
  cases ho with
  | found _ hfound => exact Table.exists_entry_of_findChild? hfound
  | made _ _ _ hdir _ hfree => exact ⟨_, (hs.attachable hdir hfree).find?_attach_self⟩

/-- Where there is room for it, a file with a new name is made. -/
theorem exists_createFile_eq {name : String} {dir : Entry} {rest : List Nat}
    (hname : s.normalizeName (Path.creationName path) path = .ok name)
    (hnone : s.table.findChild? s.cursor name = none) (hdir : s.table.find? s.cursor = some dir)
    (hroom : dir.children.length < s.config.maxChildren.toNat)
    (hfree : s.table.free = id.index :: rest) :
    ∃ log, s.createFile path = (.ok id, { s with
      table := s.table.attach rest id { name, kind := .file, parent := s.cursor }
      log := log }) := by
  obtain ⟨rfl, hne⟩ := normalizeName_eq_ok_iff.mp hname
  have hmade : s.create .file path = _ := create_of_free hne hnone hdir hroom hfree
  exact ⟨_, hmade⟩

/-- Only the heap refuses to fill what is a file. -/
theorem Written.exists_allocation {data : List UInt8} {e : Entry}
    (h : s.Written id data (.error cause, s')) (hf : s.table.find? id = some e)
    (hk : e.kind = .file) : ∃ c, cause = .allocation c := by
  cases h with
  | refused hdir => exact absurd (hk.symm.trans (hdir hf)) (by decide)
  | exhausted _ _ => exact ⟨_, rfl⟩

/-- When a file that was made is not filled, the heap has refused, and it is left empty. -/
theorem Written.noted_or_gainsFile {data : List UInt8} (hw : s'.Written id data (.error cause, s''))
    (h : s.FoundOrMade path id s') :
    s.Noted s'' ∨ ∃ c, cause = .allocation c ∧ s.GainsFile path s'' := by
  rcases h with rfl | ⟨hg, e, hf, hk⟩
  · exact .inl hw.noted
  · obtain ⟨c, rfl⟩ := hw.exists_allocation hf hk
    exact .inr ⟨c, rfl, hg.noted hw.noted⟩

/-- What looking for an entry, and making a file if there is none, can come to. -/
inductive Located (s : Store) (path : String) : Except StoreError EntryId × Store → Prop
  | refused {cause : StoreError} {s' : Store} : s.Noted s' → Located s path (.error cause, s')
  | found (id : EntryId) : Located s path (.ok id, s)
  | made {id : EntryId} {e : Entry} {s' : Store} : s.resolve path = .error (.notFound path) →
      s.GainsFile path s' → s'.table.find? id = some e → e.kind = .file →
      Located s path (.ok id, s')

theorem Located.foundOrMade (h : s.Located path (.ok id, s')) : s.FoundOrMade path id s' := by
  cases h with
  | found _ => exact .inl rfl
  | made _ hg hf hk => exact .inr ⟨hg, _, hf, hk⟩

/-- In a sound store a path is refused only when it leads nowhere. -/
theorem Sound.eq_notFound_of_resolve (hs : s.Sound) (h : s.resolve path = .error cause) :
    cause = .notFound path := by
  rw [hs.resolve_eq] at h
  split at h
  · cases h
  · exact (Except.error.inj h).symm

theorem Sound.located_createFile (hs : s.Sound) {missing : String}
    (h : s.resolve path = .error (.notFound missing)) : s.Located path (s.createFile path) := by
  have hmissing : s.resolve path = .error (.notFound path) := by
    rw [h, hs.eq_notFound_of_resolve h]
  have hc : s.Created .file path (s.createFile path) := s.created_create .file path
  generalize s.createFile path = outcome at hc ⊢
  obtain ⟨_ | id, s'⟩ := outcome
  · exact .refused hc.noted
  · rcases hs.foundOrMade hc with rfl | ⟨hg, e, hf, hk⟩
    · exact .found id
    · exact .made hmissing hg hf hk

end FileTree.Store
