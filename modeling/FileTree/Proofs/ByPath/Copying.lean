import FileTree.Proofs.ByPath.CurrentDirectory
import FileTree.Proofs.ByPath.Writing

/-!
# Copying a file

The source of a copy is looked up by its path, and read before anything changes. The destination is
one name of the current directory: the entry that has it is filled, or a file is made under it. So
the copy has what the source had, also where the two are the same file.

Three things are asked, in this order: whether the source leads anywhere, whether it is a file, and
whether the destination is a directory. A copy that is refused for one of them changes nothing.

## Main definitions

* `ByPath.Copied`: what a copy leaves
* `ByPath.Copying`: what copying comes to

## Main results

* `ByPath.exists_of_copy`: the steps of a copy that succeeds
* `ByPath.copied_of_copy`: what every copy that succeeds leaves
* `ByPath.copying`: what copying comes to, in every reachable store
* `ByPath.copy_ne_copyOntoDirectory`: a directory as destination is not asked for first
-/

namespace FileTree.ByPath

variable {s s' : Store} {id t child : EntryId} {e c dir : Entry} {source destination : String}
  {config : Config} {heap : Heap}

/-! ## Refusals -/

theorem copy_of_missing (h : s.resolve source = .error (.notFound source)) :
    copy s source destination = (.error (.store (.notFound source)), s) := by
  simp only [copy, h]

/-- A directory is not copied. -/
theorem copy_of_directory (h : s.resolve source = .ok id) (hf : s.table.find? id = some e)
    (hk : e.kind = .directory) :
    copy s source destination = (.error (.store (.notAFile id)), s) := by
  simp only [copy, h, (Store.refusesData hf hk).readAll_eq]

/-- No directory is copied onto. -/
theorem copy_onto_directory (hs : Store.Reachable config heap s) (h : s.resolve source = .ok id)
    (hf : s.table.find? id = some e) (hk : e.kind = .file)
    (hdir : s.table.find? s.cursor = some dir) (hm : child ∈ dir.children)
    (hc : s.table.find? child = some c) (hname : c.name = s.nameFor destination)
    (hck : c.kind = .directory) :
    copy s source destination = (.error (.copyOntoDirectory destination), s) := by
  have hne : s.nameFor destination ≠ "" := hname ▸ (hs.sound.fits hc).name_ne_empty
  have hfound : s.table.findChild? s.cursor (s.nameFor destination) = some child :=
    (Table.findChild?_eq_some_iff hs.distinctNames hs.sound.linked).mpr
      ⟨dir, c, hdir, hm, hc, hname⟩
  have hcreate : s.createFile destination = (.ok child, s) := Store.create_of_findChild? hne hfound
  have hread : s.readAll id = .ok e.data := Store.readAll_of_file hf hk
  have hentry : s.entry child = .ok c := Table.get_of_find? hc
  simp only [copy, h, hread, hcreate, hentry, Entry.isDirectory_iff.mpr hck, if_true]

/-! ## What a copy leaves -/

/-- A copy that succeeds has read a file, and has filled what it found or made. -/
theorem exists_of_copy (h : copy s source destination = (.ok t, s')) :
    ∃ id data s₁, s.resolve source = .ok id ∧ s.readAll id = .ok data ∧
      s.createFile destination = (.ok t, s₁) ∧ s₁.write t data = (.ok (), s') := by
  unfold copy at h
  split at h
  · cases h
  rename_i id hsource
  split at h
  · cases h
  rename_i data hdata
  split at h
  · cases h
  rename_i copyId s₁ hcreate
  split at h
  · cases h
  split_ifs at h
  · cases h
  split at h
  · cases h
  rename_i s₂ hwrite
  cases h
  exact ⟨id, data, s₁, hsource, hdata, hcreate, hwrite⟩

/-- What a copy leaves, where `id` is the source and `t` the copy. -/
structure Copied (s : Store) (destination : String) (id t : EntryId) (s' : Store) : Prop where
  exists_source : ∃ e, s.table.find? id = some e ∧ e.kind = .file
  /-- The copy has the content that the source had before. -/
  exists_content : ∃ data, s.readAll id = .ok data ∧ s'.readAll t = .ok data
  /-- The copy is the one child of the current directory that has the name which the destination
  gives a new entry. -/
  exists_directory : ∃ dir, s'.table.find? s.cursor = some dir ∧
    ∀ x, x ∈ dir.children ∧ s'.table.nameAt x = some (s.nameFor destination) ↔ x = t
  /-- A file that is copied onto itself keeps its content. -/
  onto_itself : t = id → s'.readAll id = s.readAll id
  /-- If the copy was there, no other entry has changed. -/
  old : s.table.isUsed t = true → ∀ x, x ≠ t → s'.table.find? x = s.table.find? x
  /-- If the copy is new, the current directory lists it last, and no other entry has changed. -/
  new : s.table.isUsed t = false →
    (∃ dir, s.table.find? s.cursor = some dir ∧
      s'.table.find? s.cursor = some { dir with children := dir.children ++ [t] }) ∧
    ∀ x, x ≠ t → x ≠ s.cursor → s'.table.find? x = s.table.find? x
  generationAt_eq : ∀ x, s'.table.generationAt x = s.table.generationAt x
  cursor_eq : s'.cursor = s.cursor

/-- The copy stands in the current directory under the name that the destination gives. -/
theorem exists_directory_of_copy (hs : Store.Reachable config heap s)
    (h : copy s source destination = (.ok t, s')) :
    ∃ dir, s'.table.find? s'.cursor = some dir ∧
      ∀ x, x ∈ dir.children ∧ s'.table.nameAt x = some (s'.nameFor destination) ↔ x = t := by
  have hs' : Store.Reachable config heap s' := by
    obtain ⟨storeId, s₀, hs₀, hr⟩ := hs
    have hstore : s' = (perform s (.copy source destination)).2 := congrArg Prod.snd h.symm
    exact ⟨storeId, s₀, hs₀, hstore ▸ hr.trans (reaches_perform s _)⟩
  obtain ⟨-, data, s₁, -, -, hcreate, hwrite⟩ := exists_of_copy h
  obtain ⟨e, hf, -, hw⟩ := Store.exists_rewritten_of_write hwrite
  obtain ⟨-, hfound⟩ := hs.findChild?_of_create hcreate
  have hname : s'.nameFor destination = s₁.nameFor destination := by
    rw [Store.nameFor, Store.nameFor, hw.config_eq]
  rw [← hw.findChild?_eq hf, ← hw.cursor_eq, ← hname] at hfound
  obtain ⟨dir, hdir, -⟩ := hs'.sound.cursor
  have hfilter := (hs'.distinctNames.findChild?_eq_some_iff_filter hs'.sound.linked hdir).mp hfound
  have hmem : ∀ x, x ∈ [t] ↔
      x ∈ dir.children ∧ s'.table.nameAt x = some (s'.nameFor destination) := fun x => by
    rw [← hfilter, List.mem_filter, decide_eq_true_iff]
  exact ⟨dir, hdir, fun x => by rw [← hmem, List.mem_singleton]⟩

/-- **What every copy that succeeds leaves.** -/
theorem copied_of_copy (hs : Store.Reachable config heap s)
    (h : copy s source destination = (.ok t, s')) :
    ∃ id, s.resolve source = .ok id ∧ Copied s destination id t s' := by
  have hplace := exists_directory_of_copy hs h
  obtain ⟨id, data, s₁, hsource, hdata, hcreate, hwrite⟩ := exists_of_copy h
  obtain ⟨e, hf, -, hw⟩ := Store.exists_rewritten_of_write hwrite
  have hmade := hs.sound.eq_or_with_of_create hcreate
  obtain ⟨hcursor, hconfig, hgeneration⟩ := Store.frame_of_eq_or_with hmade
  have hcur : s'.cursor = s.cursor := hw.cursor_eq.trans hcursor
  have hname : s'.nameFor destination = s.nameFor destination := by
    rw [Store.nameFor, Store.nameFor, hw.config_eq, hconfig]
  rw [hcur, hname] at hplace
  refine ⟨id, hsource, ?_, ⟨data, hdata, hw.readAll_eq⟩, hplace, ?_, fun hused x hx => ?_,
    fun hfree => ?_, fun x => (hw.generationAt_eq x).trans (hgeneration x), hcur⟩
  · obtain ⟨e, he⟩ := hs.sound.exists_entry_of_resolve hsource
    refine ⟨e, he, Entry.kind_eq_file fun hdir => ?_⟩
    rw [(Store.refusesData he (Entry.isDirectory_iff.mp hdir)).readAll_eq] at hdata
    cases hdata
  · rintro rfl
    exact hw.readAll_eq.trans hdata.symm
  · rcases hmade with ⟨rfl, -⟩ | hwith
    · exact hw.others_eq x hx
    · cases hwith.isUsed_eq.symm.trans hused
  · rcases hmade with ⟨-, hused⟩ | hwith
    · cases hfree.symm.trans hused
    · exact hwith.of_rewritten hw

/-! ## What copying comes to -/

/-- What copying from one path to another comes to. -/
structure Copying (s : Store) (source destination : String) : Prop where
  copied : ∀ ⦃t s'⦄, copy s source destination = (.ok t, s') →
    ∃ id, s.resolve source = .ok id ∧ Copied s destination id t s'
  of_missing : s.resolve source = .error (.notFound source) →
    copy s source destination = (.error (.store (.notFound source)), s)
  of_directory : ∀ ⦃id e⦄, s.resolve source = .ok id → s.table.find? id = some e →
    e.kind = .directory → copy s source destination = (.error (.store (.notAFile id)), s)
  /-- A file is not copied onto the directory that has the name which the destination gives. -/
  onto_directory : ∀ ⦃id e dir child c⦄, s.resolve source = .ok id → s.table.find? id = some e →
    e.kind = .file → s.table.find? s.cursor = some dir → child ∈ dir.children →
    s.table.find? child = some c → c.name = s.nameFor destination → c.kind = .directory →
    copy s source destination = (.error (.copyOntoDirectory destination), s)

/-- **What copying comes to**, between any two paths in any reachable store: the copy has what the
source had and nothing else changes, or a refusal, for the source or for the destination, leaves the
store as it was. -/
theorem copying (hs : Store.Reachable config heap s) (source destination : String) :
    Copying s source destination where
  copied _ _ h := copied_of_copy hs h
  of_missing h := copy_of_missing h
  of_directory _ _ h hf hk := copy_of_directory h hf hk
  onto_directory _ _ _ _ _ h hf hk hdir hm hc hname hck :=
    copy_onto_directory hs h hf hk hdir hm hc hname hck

/-- A file from another directory is copied under a name that is cut, and onto itself; a directory
is not copied, and none is copied onto. -/
theorem copying_of_cut_names :
    let config : Config := { maxEntries := 5, maxNameLength := 3 }
    let s := (Store.init ⟨0⟩ config {}).run
      [.createFile "a", .write ⟨1⟩ [1, 2], .createDirectory "docs", .changeDirectory ⟨2⟩,
        .createDirectory "sub", .rename ⟨1⟩ "b"]
    (Store.Reachable config {} s ∧ s.resolve "/b" = .ok ⟨1⟩ ∧
      s.nameFor "//long/er" = "lon" ∧ (copy s "/b" "//long/er").1 = .ok ⟨4⟩ ∧
      (copy { s with cursor := .root } "b" "/b").1 = .ok ⟨1⟩ ∧
      (copy s "/doc" "x").1 = .error (.store (.notAFile ⟨2⟩)) ∧
      (copy s "/b" "subs").1 = .error (.copyOntoDirectory "subs")) ∧
      ∀ source destination, Copying s source destination := by
  intro config s
  have hs : Store.Reachable config {} s := Store.reachable_run rfl ⟨0⟩ {} _
  refine ⟨⟨hs, ?_, ?_, ?_, ?_, ?_, ?_⟩, fun source destination => copying hs source destination⟩
  all_goals decide +kernel

/-- A directory as destination is not asked for first: where the source leads nowhere, or is a
directory, the copy is refused for that. -/
theorem copy_ne_copyOntoDirectory :
    let config : Config := { maxEntries := 4, logCapacity := 0 }
    let s := (Store.init ⟨0⟩ config {}).run [.createDirectory "d"]
    let d : Entry := { name := "d", kind := .directory, parent := .root }
    Store.Reachable config {} s ∧
      s.table.find? s.cursor = some { Entry.root with children := [⟨1⟩] } ∧
      s.table.find? ⟨1⟩ = some d ∧ d.name = s.nameFor "d" ∧
      (copy s "x" "d").1 ≠ .error (.copyOntoDirectory "d") ∧
      (copy s "x" "d").1 = .error (.store (.notFound "x")) ∧
      (copy s "d" "d").1 = .error (.store (.notAFile ⟨1⟩)) := by
  intro config s d
  refine ⟨Store.reachable_run rfl ⟨0⟩ {} _, ?_, ?_, ?_, ?_, ?_, ?_⟩
  all_goals decide +kernel

end FileTree.ByPath
