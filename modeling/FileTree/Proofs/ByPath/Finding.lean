import FileTree.Proofs.ByPath.Blame
import FileTree.Proofs.Store.Walk

/-!
# Finding entries by name

A search walks the whole tree and keeps the entries whose name contains the pattern, the root
apart. Each of them is answered once, by its full path, in the order of the walk.

Full paths can be cut, and names can have separators in them; then two entries may have the same
path, and a path may lead to another entry than its own, or to none. Where neither is the case, the
paths found are as many as the entries, and each leads back to its entry from everywhere.

## Main definitions

* `ByPath.Named`: the name of an entry contains the pattern
* `ByPath.WholePaths`: no full path is cut, and no name has a separator in it
* `ByPath.Found`: what a search comes to

## Main results

* `ByPath.find_eq`: a search has the full paths of the matching entries in pre-order
* `ByPath.WholePaths.resolve_fullPath`: a whole path leads back to its entry
* `ByPath.exists_found`: what every search in a reachable store comes to
-/

namespace FileTree.ByPath

variable {s : Store} {id : EntryId} {e : Entry} {ids order : List EntryId}
  {paths names : List String} {pattern : String} {config : Config} {heap : Heap}

/-! ## The entries that match -/

/-- The name of the entry contains the pattern. -/
def Named (s : Store) (pattern : String) (id : EntryId) : Bool :=
  (s.table.nameAt id).any (Text.contains · pattern)

theorem named_iff : Named s pattern id = true ↔
    ∃ e, s.table.find? id = some e ∧ pattern.toList <:+: e.name.toList := by
  rw [Named, Table.nameAt]
  cases s.table.find? id with
  | none => simp
  | some e => simp [Text.contains, Text.occurs_iff]

/-- The entries of a walk that a search keeps. -/
def matching (s : Store) (pattern : String) (order : List EntryId) : List EntryId :=
  (order.filter (!·.isRoot)).filter (Named s pattern)

theorem matching_sublist (s : Store) (pattern : String) (order : List EntryId) :
    (matching s pattern order).Sublist order :=
  List.filter_sublist.trans List.filter_sublist

theorem isUsed_of_mem_matching (ho : s.table.Preorder ids order)
    (hm : id ∈ matching s pattern order) : s.table.isUsed id = true :=
  ho.isUsed ((matching_sublist s pattern order).subset hm)

section Preorder

variable (hl : s.table.Linked) (ho : s.table.Preorder [.root] order)

include hl ho

theorem mem_preorder_root : id ∈ order ↔ s.table.isUsed id = true := by
  constructor
  · exact ho.isUsed
  · intro hused
    obtain ⟨e, hf⟩ := Table.isUsed_iff.mp hused
    exact (ho.mem_iff hl).mpr ⟨.root, List.mem_singleton_self _, hl.below_root hf⟩

/-- What a search keeps is every entry but the root whose name contains the pattern. -/
theorem mem_matching : id ∈ matching s pattern order ↔
    id ≠ .root ∧ ∃ e, s.table.find? id = some e ∧ pattern.toList <:+: e.name.toList := by
  rw [matching, List.mem_filter, List.mem_filter, named_iff, Bool.not_eq_true', Bool.eq_false_iff,
    ne_eq, EntryId.isRoot_iff, and_assoc, mem_preorder_root hl ho, and_iff_right_of_imp]
  exact fun ⟨_, e, hf, _⟩ => Table.isUsed_of_find? hf

theorem nodup_preorder_root : order.Nodup :=
  ho.nodup hl (List.pairwise_singleton _ _)

/-- A search has the full paths of the entries that match, in pre-order. -/
theorem find_eq : find s pattern = lift (fullPaths s (matching s pattern order)) := by
  have hwalk : s.walk .root = .ok order := hl.walk_eq ho
  have hused : ∀ x ∈ order.filter (!·.isRoot), s.table.isUsed x = true := fun x hx =>
    ho.isUsed (List.mem_of_mem_filter hx)
  obtain ⟨found, hfound, hids, hentries⟩ := exists_entries hused
  have hnamed : ∀ p ∈ found, Text.contains p.2.name pattern = Named s pattern p.1 := fun p hp => by
    rw [Named, Table.nameAt, hentries p hp, Option.map_some, Option.any_some]
  have hmatch : (found.filter fun p => Text.contains p.2.name pattern).map (·.1) =
      matching s pattern order := by
    rw [matching, ← hids, List.filter_map, List.filter_congr hnamed]
    rfl
  simp only [find, hwalk, hfound, hmatch]

end Preorder

/-! ## Their paths -/

theorem forall₂_fullPath (h : fullPaths s ids = .ok paths) :
    List.Forall₂ (fun id path => s.fullPath id = .ok path) ids paths := by
  induction ids generalizing paths with
  | nil =>
    obtain rfl := Except.ok.inj h
    exact .nil
  | cons id rest ih =>
    unfold fullPaths at h
    split at h
    · cases h
    rename_i path hpath
    split at h
    · cases h
    rename_i more hmore
    obtain rfl := Except.ok.inj h
    exact .cons hpath (ih hmore)

/-- No full path is cut, and no name has a separator in it but that of the root. -/
structure WholePaths (s : Store) : Prop where
  no_separator : ∀ ⦃id e⦄, id ≠ .root → s.table.find? id = some e →
    Path.separator ∉ e.name.toList
  depth_le : ∀ ⦃id names⦄, s.table.Way .root names id →
    names.length ≤ s.config.maxPathDepth.toNat
  length_le : ∀ ⦃id names⦄, s.table.Way .root names id →
    (Path.absolute names).utf8ByteSize ≤ s.config.maxPathLength.toNat

/-- On a way down there are no names but those of children. -/
theorem WholePaths.separator_notMem (h : WholePaths s) (hl : s.table.Linked) {start : EntryId}
    (hw : s.table.Way start names id) : ∀ name ∈ names, Path.separator ∉ name.toList := by
  induction hw with
  | here _ => exact List.forall_mem_nil _
  | down hf hm hc _ ih =>
    exact List.forall_mem_cons.mpr ⟨h.no_separator (hl.points_back hf hm).1 hc, ih⟩

/-- A whole path leads back to its entry, from wherever it is followed. -/
theorem WholePaths.resolve_fullPath (h : WholePaths s) (hs : Store.Reachable config heap s)
    (hused : s.table.isUsed id = true) {path : String} (hpath : s.fullPath id = .ok path)
    (cursor : EntryId) : { s with cursor := cursor }.resolve path = .ok id := by
  have hl := hs.sound.linked
  obtain ⟨e, hf⟩ := Table.isUsed_iff.mp hused
  obtain ⟨names, hway⟩ := hl.exists_way (hl.below_root hf)
  have hwhole := hs.fullPath_eq_absolute hway (h.depth_le hway) (h.length_le hway)
  obtain rfl := Except.ok.inj (hpath.symm.trans hwhole)
  rw [Store.resolve_withCursor (Path.isAbsolute_absolute names)]
  exact hs.sound.resolve_absolute hs.distinctNames hway (h.separator_notMem hl hway)

/-- Paths that lead back to their entries are different for different entries. -/
theorem nodup_of_leads_back
    (h : List.Forall₂ (fun id path => s.fullPath id = .ok path ∧ s.resolve path = .ok id) ids paths)
    (hnd : ids.Nodup) : paths.Nodup := by
  have hunique : Relator.BiUnique fun (id : EntryId) (path : String) =>
      s.fullPath id = .ok path ∧ s.resolve path = .ok id :=
    ⟨fun _ _ _ ha hb => Except.ok.inj (ha.2.symm.trans hb.2),
      fun _ _ _ ha hb => Except.ok.inj (ha.1.symm.trans hb.1)⟩
  exact (List.rel_nodup hunique h).mp hnd

/-! ## What a search comes to -/

/-- In a row without repetitions, the members of a part of it stand as they do in the part. -/
theorem filter_mem_of_sublist {part row : List EntryId} (h : part.Sublist row) (hnd : row.Nodup) :
    (row.filter (· ∈ part)) = part := by
  have hsub : (part.filter (· ∈ part)).Sublist (row.filter (· ∈ part)) := h.filter _
  rw [List.filter_eq_self.mpr fun x hx => decide_eq_true hx] at hsub
  have hperm : part.Perm (row.filter (· ∈ part)) :=
    (List.perm_ext_iff_of_nodup (hnd.sublist h) (hnd.filter _)).mpr fun x => by
      rw [List.mem_filter, decide_eq_true_iff]
      exact ⟨fun hx => ⟨h.subset hx, hx⟩, And.right⟩
  exact (hsub.eq_of_length hperm.length_eq).symm

/-- What a search for a pattern comes to: the paths of the entries with the given identifiers. -/
structure Found (s : Store) (pattern : String) (ids : List EntryId) (paths : List String) :
    Prop where
  find_eq : find s pattern = .ok paths
  fullPath : List.Forall₂ (fun id path => s.fullPath id = .ok path) ids paths
  nodup : ids.Nodup
  mem_iff : ∀ x, x ∈ ids ↔ x ≠ .root ∧
    ∃ e, s.table.find? x = some e ∧ pattern.toList <:+: e.name.toList
  /-- The empty pattern is found everywhere. -/
  mem_iff_of_empty : pattern = "" → ∀ x, x ∈ ids ↔ x ≠ .root ∧ s.table.isUsed x = true
  preorder : ∃ visit, s.table.Recursive visit ∧ ids.Sublist (visit .root)
  siblings : ∀ ⦃dir e⦄, s.table.find? dir = some e →
    (ids.filter (· ∈ e.children)).Sublist e.children
  /-- Of the entries of one directory, those come first that a run from a fresh store made first. -/
  oldest_first : ∀ ⦃storeId config heap s₀ ops⦄, Store.fresh storeId config heap = .ok s₀ →
    s = s₀.run ops → ∀ ⦃dir e⦄, s.table.find? dir = some e →
      (ids.filter (· ∈ e.children)).Pairwise (s₀.Older ops)
  /-- Where the paths are whole, they are all different, and each leads back to its entry from
  every current directory. -/
  leads_back : WholePaths s → paths.Nodup ∧
    List.Forall₂ (fun id path => ∀ cursor, { s with cursor := cursor }.resolve path = .ok id)
      ids paths

/-- Siblings that match stand as their directory lists them. -/
theorem siblings_of_preorder (hl : s.table.Linked) (ho : s.table.Preorder [.root] order)
    {dir : EntryId} (hf : s.table.find? dir = some e) :
    ((matching s pattern order).filter (· ∈ e.children)).Sublist e.children := by
  have hmem : dir ∈ order := (mem_preorder_root hl ho).mpr (Table.isUsed_of_find? hf)
  have hsub := (matching_sublist s pattern order).filter (· ∈ e.children)
  rwa [filter_mem_of_sublist (ho.children_sublist hmem hf) (nodup_preorder_root hl ho)] at hsub

/-- The entries of a pre-order that match are what the search finds. -/
theorem found_of_preorder (hs : Store.Reachable config heap s)
    (ho : s.table.Preorder [.root] order)
    (hpaths : fullPaths s (matching s pattern order) = .ok paths) :
    Found s pattern (matching s pattern order) paths where
  find_eq := by rw [find_eq hs.sound.linked ho, hpaths, lift]
  fullPath := forall₂_fullPath hpaths
  nodup := (nodup_preorder_root hs.sound.linked ho).sublist (matching_sublist s pattern order)
  mem_iff _ := mem_matching hs.sound.linked ho
  mem_iff_of_empty := by
    rintro rfl x
    rw [mem_matching hs.sound.linked ho, Table.isUsed_iff]
    simp
  preorder := by
    have hvisited := hs.sound.linked.visited_eq ho
    exact ⟨s.table.visited, hs.sound.linked.recursive_visited,
      hvisited.symm ▸ matching_sublist s pattern order⟩
  siblings _ _ hf := siblings_of_preorder hs.sound.linked ho hf
  oldest_first := by
    rintro storeId config heap s₀ ops h rfl dir e hf
    obtain ⟨hs₀, hnew⟩ := sound_and_childrenAt_of_fresh h
    have holder := Store.Sound.pairwise_older hs₀ hnew ops dir
    rw [Table.childrenAt_of_find? hf] at holder
    exact holder.sublist (siblings_of_preorder hs.sound.linked ho hf)
  leads_back hwhole := by
    have hused : ∀ x ∈ matching s pattern order, s.table.isUsed x = true := fun _ =>
      isUsed_of_mem_matching ho
    have hback := ((List.forall₂_and_left _ _).mpr ⟨hused, forall₂_fullPath hpaths⟩).imp
      fun id path h => And.intro h.2 (hwhole.resolve_fullPath hs h.1 h.2)
    have hnodup := (nodup_preorder_root hs.sound.linked ho).sublist (matching_sublist s pattern _)
    exact ⟨nodup_of_leads_back (hback.imp fun _ _ h => ⟨h.1, h.2 s.cursor⟩) hnodup,
      hback.imp fun _ _ h => h.2⟩

/-- **What every search in a reachable store comes to**: one path for each entry below the root
whose name contains the pattern, in pre-order, and the way back where paths are whole. -/
theorem exists_found (hs : Store.Reachable config heap s) (pattern : String) :
    ∃ ids paths, Found s pattern ids paths := by
  obtain ⟨order, -, ho, -⟩ := hs.sound.linked.exists_walk_root
  obtain ⟨paths, hpaths⟩ := exists_fullPaths hs.sound fun x hx => isUsed_of_mem_matching ho hx
  exact ⟨_, paths, found_of_preorder hs ho hpaths⟩

/-- Two entries have the same name, one directory lists a younger entry with a smaller number after
an older one, and all paths are whole. -/
theorem exists_found_of_reused_slot :
    let config : Config := { maxEntries := 6 }
    let s := (Store.init ⟨0⟩ config {}).run
      [.createFile "x", .createDirectory "a", .createFile "ab", .changeDirectory ⟨2⟩,
        .createFile "ca", .delete ⟨1⟩, .createDirectory "ba", .changeDirectory ⟨1⟩, .createFile "a",
        .changeDirectory ⟨2⟩]
    (Store.Reachable config {} s ∧ WholePaths s ∧
      find s "a" = .ok ["/a", "/a/ca", "/a/ba", "/a/ba/a", "/ab"]) ∧
      ∀ pattern, ∃ ids paths, Found s pattern ids paths := by
  intro config s
  have hs : Store.Reachable config {} s := Store.reachable_run rfl ⟨0⟩ {} _
  have hids : s.table.ids = [.root, ⟨1⟩, ⟨2⟩, ⟨3⟩, ⟨4⟩, ⟨5⟩] := by decide +kernel
  have hmem : ∀ ⦃id e⦄, s.table.find? id = some e → id ∈ s.table.ids := fun _ _ hf =>
    Table.mem_ids.mpr (Table.isUsed_of_find? hf)
  have hnames : ∀ id ∈ s.table.ids, id ≠ .root → ∀ e ∈ s.table.find? id,
      Path.separator ∉ e.name.toList := by
    rw [hids]
    decide +kernel
  have hpaths : ∀ id ∈ s.table.ids, ∃ path ∈ ["/", "/a", "/a/ca", "/a/ba", "/a/ba/a", "/ab"],
      (Path.isAbsolute path = true ∧ s.resolve path = .ok id) ∧
        (Path.segments path).length ≤ s.config.maxPathDepth.toNat ∧
        (Path.absolute (Path.segments path)).utf8ByteSize ≤ s.config.maxPathLength.toNat := by
    rw [hids]
    decide +kernel
  have hways : ∀ ⦃id names⦄, s.table.Way .root names id →
      names.length ≤ s.config.maxPathDepth.toNat ∧
        (Path.absolute names).utf8ByteSize ≤ s.config.maxPathLength.toNat := by
    intro id names hw
    obtain ⟨e, hf⟩ := hw.exists_target
    obtain ⟨path, -, ⟨habs, hok⟩, hfits⟩ := hpaths id (hmem hf)
    have hway := (hs.sound.resolve_eq_ok_iff_of_isAbsolute hs.distinctNames habs).mp hok
    rwa [hs.sound.linked.way_unique hw hway]
  have hwhole : WholePaths s :=
    ⟨fun id e hid hf => hnames id (hmem hf) hid e hf, fun _ _ hw => (hways hw).1,
      fun _ _ hw => (hways hw).2⟩
  exact ⟨⟨hs, hwhole, by decide +kernel⟩, fun pattern => exists_found hs pattern⟩

end FileTree.ByPath
