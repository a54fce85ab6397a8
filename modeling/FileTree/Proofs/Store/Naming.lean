import FileTree.Proofs.Path.Absolute
import FileTree.Proofs.Store.Removal
import FileTree.Proofs.Table.Way

/-!
# Paths name entries

In a store that comes of a fresh one no two entries of a directory have the same name: an entry is
added or renamed only under a name that its directory does not have. So a path names an entry
exactly when its segments are the names on the way down to it.

## Main definitions

* `Store.startOf`: where a path starts
* `Store.NamedByWay`: paths name an entry by the names on the way down to it

## Main results

* `Store.Step.distinctNames`, `Store.Reachable.distinctNames`: names stay distinct
* `Store.Reachable.distinct_siblings`: the children of a directory have distinct names
* `Store.Sound.resolve_eq`: a path leads down the way that has its segments, or nowhere
* `Store.Reachable.namedByWay`: paths name every entry of a reachable store so
-/

namespace FileTree

theorem Table.exists_of_find?_modify {t : Table} {id x : EntryId} {f : Entry → Entry} {ex : Entry}
    (hx : (t.modify id f).find? x = some ex) :
    ∃ ex₀, t.find? x = some ex₀ ∧ ex = if id = x then f ex₀ else ex₀ := by
  rw [find?_modify] at hx
  split_ifs at hx ⊢
  · obtain ⟨ex₀, hx₀, rfl⟩ := Option.map_eq_some_iff.mp hx
    exact ⟨ex₀, hx₀, rfl⟩
  · exact ⟨ex, hx, rfl⟩

namespace Store

variable {s s' : Store} {id : EntryId} {e : Entry} {config : Config} {heap : Heap}

/-! ## Names stay distinct -/

/-- **Every elementary change keeps the names distinct.** -/
theorem Step.distinctNames (hstep : s.Step s') (hs : s.Sound) (h : s.table.DistinctNames) :
    s'.table.DistinctNames := by
  cases hstep with
  | relog log => exact h
  | move _ _ => exact h
  | @add name kind dir id rest _ _ hnone hdir _ hfree =>
    have ha : s.table.Attachable id { name, kind, parent := s.cursor } dir :=
      hs.attachable hdir hfree
    refine h.fresh hs.linked ha.find?_attach_self hnone fun x ex hx hne => ?_
    rcases ha.find?_attach_cases hx with ⟨rfl, -⟩ | ⟨rfl, rfl⟩ | ⟨-, -, hx⟩
    · exact absurd rfl hne
    · exact ⟨_, hdir, rfl, rfl⟩
    · exact ⟨ex, hx, rfl, rfl⟩
  | fill _ _ _ =>
    refine h.congr fun x ex hx => ?_
    obtain ⟨ex₀, hx₀, rfl⟩ := Table.exists_of_find?_modify hx
    exact ⟨ex₀, hx₀, by split_ifs <;> rfl, by split_ifs <;> rfl⟩
  | @rename id e name hf _ _ _ hnone =>
    have hid : (s.table.modify id (·.renamed name)).find? id = some (e.renamed name) := by
      rw [Table.find?_modify, if_pos rfl, hf, Option.map_some]
    refine h.fresh hs.linked hid hnone fun x ex hx hne => ?_
    obtain ⟨ex₀, hx₀, rfl⟩ := Table.exists_of_find?_modify hx
    rw [if_neg hne.symm]
    exact ⟨ex₀, hx₀, rfl, rfl⟩
  | @prune id e hf hid hc =>
    have hd : s.table.Detachable id e := ⟨hf, hid, hc⟩
    refine h.congr fun x ex hx => ?_
    obtain ⟨-, ex₀, hx₀, rfl⟩ := hd.exists_of_find?_detach hs.linked hx
    exact ⟨ex₀, hx₀, rfl, rfl⟩

theorem Steps.distinctNames (hsteps : s.Steps s') (hs : s.Sound) (h : s.table.DistinctNames) :
    s'.table.DistinctNames := by
  induction hsteps with
  | refl => exact h
  | tail hsteps hstep ih => exact hstep.distinctNames (Steps.sound hsteps hs) ih

/-- In a reachable store no two entries of a directory have the same name. -/
theorem Reachable.distinctNames (hs : Reachable config heap s) : s.table.DistinctNames := by
  obtain ⟨id, s₀, hs₀, hr⟩ := hs
  obtain ⟨hc, rfl⟩ := fresh_eq_ok_iff.mp hs₀
  have hsound := sound_init hc id heap
  exact (hr.steps hsound).distinctNames hsound (Table.distinctNames_new _)

/-- A name that is not too long is not cut. -/
theorem cut_eq_self {n : Nat} {name : String} (h : name.length ≤ n) : Record.cut n name = name := by
  rw [Record.cut, List.take_of_length_le (by rwa [String.length_toList]), String.ofList_toList]

/-- **The children of a directory have distinct names**, in every reachable store. Each is there
under a name that is cut to the longest length already, and the first child that has a name is the
only one. -/
theorem Reachable.distinct_siblings (hs : Reachable config heap s) {dir : EntryId}
    (hf : s.table.find? dir = some e) :
    (e.children.map s.table.nameAt).Nodup ∧
      (∀ child ∈ e.children, ∃ name, s.table.nameAt child = some name ∧
        Record.cut s.config.maxNameLength.toNat name = name) ∧
      ∀ name child, s.table.findChild? dir name = some child ↔
        (e.children.filter fun x => s.table.nameAt x = some name) = [child] := by
  have hl := hs.sound.linked
  refine ⟨hs.distinctNames.nodup_names hl hf, fun child hm => ?_, fun name child =>
    hs.distinctNames.findChild?_eq_some_iff_filter hl hf⟩
  obtain ⟨-, c, hc, -⟩ := hl.points_back hf hm
  exact ⟨c.name, by rw [Table.nameAt, hc, Option.map_some],
    cut_eq_self (hs.sound.fits hc).length_name_le⟩

/-- Names that are the same once they are cut, or have more bytes than characters, or a separator
in them, and a slot that is used again. -/
theorem Reachable.distinct_siblings_of_cut_names :
    let config : Config := { maxEntries := 6, maxNameLength := 3 }
    let s := (init ⟨0⟩ config {}).run
      [.createDirectory "docs", .createFile "/doc/x", .createFile "äöüß", .createFile "äöü",
        .createFile "a/b", .rename ⟨3⟩ "äöü!", .delete ⟨2⟩, .rename ⟨3⟩ "äöü!",
        .createDirectory "a/bc", .changeDirectory ⟨1⟩, .createFile "äöü", .rename ⟨2⟩ "docks"]
    let e : Entry := { Entry.root with children := [⟨1⟩, ⟨3⟩, ⟨2⟩] }
    (Reachable config {} s ∧ s.table.find? .root = some e) ∧
      (e.children.map s.table.nameAt).Nodup ∧
      (∀ child ∈ e.children, ∃ name, s.table.nameAt child = some name ∧
        Record.cut s.config.maxNameLength.toNat name = name) ∧
      ∀ name child, s.table.findChild? .root name = some child ↔
        (e.children.filter fun x => s.table.nameAt x = some name) = [child] := by
  intro config s e
  have hs : Reachable config {} s := reachable_run rfl ⟨0⟩ {} _
  have hf : s.table.find? .root = some e := by decide +kernel
  exact ⟨⟨hs, hf⟩, hs.distinct_siblings hf⟩

/-! ## Following a path -/

/-- Where a path starts: at the root, or in the current directory. -/
def startOf (s : Store) (path : String) : EntryId :=
  Table.startOf s.cursor path

theorem Sound.exists_startOf (hs : s.Sound) (path : String) :
    ∃ e, s.table.find? (s.startOf path) = some e := by
  obtain ⟨c, hc, -⟩ := hs.cursor
  exact hs.linked.exists_startOf (Table.isUsed_of_find? hc) path

/-- A path is followed from its start, and is not found if its segments lead nowhere. -/
theorem Sound.resolve_eq (hs : s.Sound) (path : String) :
    s.resolve path =
      match s.table.descend? (s.startOf path) (Path.segments path) with
      | some id => .ok id
      | none => .error (.notFound path) := by
  obtain ⟨c, hc, -⟩ := hs.cursor
  exact Table.resolve_of_isUsed (Table.isUsed_of_find? hc) path

theorem Sound.resolve_eq_ok_iff (hs : s.Sound) (hd : s.table.DistinctNames) {path : String} :
    s.resolve path = .ok id ↔ s.table.Way (s.startOf path) (Path.segments path) id := by
  obtain ⟨e, he⟩ := hs.exists_startOf path
  rw [hs.resolve_eq, ← Table.descend?_eq_some_iff hd hs.linked he]
  split
  · rename_i x hx
    rw [hx, Except.ok.injEq, Option.some.injEq]
  · rename_i hx
    simp [hx]

/-- An absolute path is followed from the root. -/
theorem Sound.resolve_eq_ok_iff_of_isAbsolute (hs : s.Sound) (hd : s.table.DistinctNames)
    {path : String} (hpath : Path.isAbsolute path = true) :
    s.resolve path = .ok id ↔ s.table.Way .root (Path.segments path) id := by
  rw [hs.resolve_eq_ok_iff hd, startOf, Table.startOf, if_pos hpath]

/-- What a path leads to is an entry. -/
theorem Sound.exists_entry_of_resolve (hs : s.Sound) {path : String} (h : s.resolve path = .ok id) :
    ∃ e, s.table.find? id = some e := by
  obtain ⟨e, hstart⟩ := hs.exists_startOf path
  rw [hs.resolve_eq] at h
  split at h
  · rename_i x hx
    obtain rfl := Except.ok.inj h
    exact Table.exists_entry_of_descend? hstart hx
  · cases h

/-- A path names an entry, or is not found. -/
theorem Sound.exists_resolve_eq_ok_or (hs : s.Sound) (path : String) :
    (∃ id, s.table.isUsed id = true ∧ s.resolve path = .ok id) ∨
      s.resolve path = .error (.notFound path) := by
  cases hr : s.resolve path with
  | ok id =>
    obtain ⟨e, he⟩ := hs.exists_entry_of_resolve hr
    exact .inl ⟨id, Table.isUsed_of_find? he, rfl⟩
  | error c =>
    rw [hs.resolve_eq] at hr
    split at hr
    · cases hr
    · cases hr
      exact .inr rfl

theorem Sound.name_ne_empty_of_way (hs : s.Sound) {start : EntryId} {names : List String}
    (hw : s.table.Way start names id) : ∀ name ∈ names, name ≠ "" := by
  induction hw with
  | here _ => exact List.forall_mem_nil _
  | down _ _ hc _ ih => exact List.forall_mem_cons.mpr ⟨(hs.fits hc).name_ne_empty, ih⟩

/-- An absolute path leads to the same entry from every current directory. -/
theorem resolve_withCursor {path : String} (h : Path.isAbsolute path = true) (cursor : EntryId) :
    { s with cursor := cursor }.resolve path = s.resolve path := by
  simp [resolve, Table.resolve, Table.startOf, h]

/-- An entry is named by the absolute path with the names on the way to it, if none of them has a
separator in it. -/
theorem Sound.resolve_absolute (hs : s.Sound) (hd : s.table.DistinctNames) {names : List String}
    (hw : s.table.Way .root names id) (hnames : ∀ name ∈ names, Path.separator ∉ name.toList) :
    s.resolve (Path.absolute names) = .ok id := by
  rw [hs.resolve_eq_ok_iff_of_isAbsolute hd (Path.isAbsolute_absolute _),
    Path.segments_absolute fun name hm => ⟨hs.name_ne_empty_of_way hw name hm, hnames name hm⟩]
  exact hw

/-- Paths name the entry by the names on the way down to it. -/
structure NamedByWay (s : Store) (id : EntryId) : Prop where
  /-- A path names the entry exactly when its segments are the names on the way down to it from
  where the path starts. -/
  resolve_eq_ok_iff (path : String) :
    s.resolve path = .ok id ↔ s.table.Way (s.startOf path) (Path.segments path) id
  /-- Any other path names another entry, or nothing. -/
  resolve_of_ne (path : String) : s.resolve path ≠ .ok id →
    (∃ other, other ≠ id ∧ s.table.isUsed other = true ∧ s.resolve path = .ok other) ∨
      s.resolve path = .error (.notFound path)
  /-- The same names do not lead to two entries. -/
  eq_of_way (start : EntryId) (names : List String) (other : EntryId) :
    s.table.Way start names id → s.table.Way start names other → other = id
  /-- Paths with the same start and the same segments do not name two entries. -/
  eq_of_segments_eq (p q : String) (other : EntryId) : s.startOf p = s.startOf q →
    Path.segments p = Path.segments q → s.resolve p = .ok id → s.resolve q = .ok other → other = id
  /-- There is one way down from the root. The entry has an absolute path exactly when no name on
  that way has a separator in it, and then the names joined by separators are such a path,
  whatever the current directory. -/
  absolute : ∃ names, (∀ others, s.table.Way .root others id ↔ others = names) ∧
    ((∃ path, Path.isAbsolute path = true ∧ s.resolve path = .ok id) ↔
      ∀ name ∈ names, Path.separator ∉ name.toList) ∧
    ((∀ name ∈ names, Path.separator ∉ name.toList) →
      ∀ cursor, { s with cursor := cursor }.resolve (Path.absolute names) = .ok id)

/-- An entry to which an absolute path leads has no separator in the names on the way to it. -/
theorem Sound.separator_notMem_of_resolve (hs : s.Sound) (hd : s.table.DistinctNames)
    {names : List String} (hw : s.table.Way .root names id) {path : String}
    (hpath : Path.isAbsolute path = true) (hok : s.resolve path = .ok id) :
    ∀ name ∈ names, Path.separator ∉ name.toList := by
  have hseg := (hs.resolve_eq_ok_iff_of_isAbsolute hd hpath).mp hok
  rw [hs.linked.way_unique hw hseg]
  exact fun _ => Path.separator_notMem_of_mem_segments

/-- **A path names an entry exactly when its segments are the names on the way down to it**, in
every reachable store and for every entry in it. -/
theorem Reachable.namedByWay (hs : Reachable config heap s) (hf : s.table.find? id = some e) :
    s.NamedByWay id where
  resolve_eq_ok_iff _ := hs.sound.resolve_eq_ok_iff hs.distinctNames
  resolve_of_ne path hne := by
    rcases hs.sound.exists_resolve_eq_ok_or path with
      ⟨other, hused, hok⟩ | hmissing
    · refine .inl ⟨other, ?_, hused, hok⟩
      rintro rfl
      exact hne hok
    · exact .inr hmissing
  eq_of_way _ _ _ hw hw' := hw.target_unique hs.distinctNames hs.sound.linked hw'
  eq_of_segments_eq p q other hstart hseg hp hq := by
    have hp := (hs.sound.resolve_eq_ok_iff hs.distinctNames).mp hp
    have hq := (hs.sound.resolve_eq_ok_iff hs.distinctNames).mp hq
    rw [← hstart, ← hseg] at hq
    exact hp.target_unique hs.distinctNames hs.sound.linked hq
  absolute := by
    have hsound := hs.sound
    have hd := hs.distinctNames
    obtain ⟨names, hway⟩ := hsound.linked.exists_way (hsound.linked.below_root hf)
    refine ⟨names, fun others => hsound.linked.way_iff hway, ⟨?_, fun hnames => ?_⟩, ?_⟩
    · rintro ⟨path, hpath, hok⟩
      exact hsound.separator_notMem_of_resolve hd hway hpath hok
    · exact ⟨_, Path.isAbsolute_absolute names, hsound.resolve_absolute hd hway hnames⟩
    · intro hnames cursor
      rw [resolve_withCursor (Path.isAbsolute_absolute names)]
      exact hsound.resolve_absolute hd hway hnames

/-- A directory is renamed, and a file in it has a separator in its name. -/
theorem Reachable.namedByWay_of_renamed :
    let config : Config := { maxEntries := 4, maxNameLength := 3 }
    let s := (init ⟨0⟩ config {}).run
      [.createDirectory "/docs", .changeDirectory ⟨1⟩, .createFile "a/b", .createFile "note",
        .rename ⟨1⟩ "old"]
    let e : Entry := { name := "not", kind := .file, parent := ⟨1⟩ }
    (Reachable config {} s ∧ s.table.find? ⟨3⟩ = some e) ∧ s.NamedByWay ⟨3⟩ := by
  intro config s e
  have hs : Reachable config {} s := reachable_run rfl ⟨0⟩ {} _
  have hf : s.table.find? ⟨3⟩ = some e := by decide
  exact ⟨⟨hs, hf⟩, hs.namedByWay hf⟩

end Store

end FileTree
