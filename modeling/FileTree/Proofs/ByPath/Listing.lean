import FileTree.ByPath
import FileTree.Proofs.Store.Creation
import FileTree.Proofs.Store.FullPath

/-!
# Listing a directory

A listing has one line for every child of the directory, with what the child is at the moment, in
the order in which the children were made. It is complete: a directory holds no more children than
a listing may have lines.

## Main definitions

* `ByPath.Shows`: a line of a listing shows an entry as it is
* `ByPath.ListsInOrder`: a directory lists its children in the order of their creation

## Main results

* `ByPath.exists_entries`: identifiers in use are read
* `ByPath.exists_list`, `ByPath.exists_stat`: what is found out about a directory
* `ByPath.listsInOrder_run`: every directory that a run leaves lists its children in order
-/

namespace FileTree.ByPath

variable {s s₀ : Store} {id dir : EntryId} {e : Entry} {path : String}

/-- The line shows the entry with its identifier as it is. -/
def Shows (s : Store) (line : Listing) : Prop :=
  ∃ c, s.table.find? line.id = some c ∧ line.name = c.name ∧ line.kind = c.kind ∧ line.size = c.size

/-- Entries in use are read, each with its identifier. -/
theorem exists_entries {ids : List EntryId} (h : ∀ x ∈ ids, s.table.isUsed x = true) :
    ∃ found, entries s ids = .ok found ∧ found.map Prod.fst = ids ∧
      ∀ p ∈ found, s.table.find? p.1 = some p.2 := by
  induction ids with
  | nil => exact ⟨[], rfl, rfl, by simp⟩
  | cons id rest ih =>
    obtain ⟨e, he⟩ := Table.isUsed_iff.mp (h id (by simp))
    obtain ⟨more, hmore, hids, hfound⟩ := ih fun x hx => h x (by simp [hx])
    refine ⟨(id, e) :: more, ?_, by rw [List.map_cons, hids], List.forall_mem_cons.mpr ⟨he, hfound⟩⟩
    simp only [entries, Store.entry, Table.get_of_find? he, hmore]

/-- A directory is listed with a line for every child. -/
theorem exists_list (hs : s.Sound) (ht : target s path = .ok dir)
    (hf : s.table.find? dir = some e) (hk : e.kind = .directory) :
    ∃ lines, list s path = .ok lines ∧ lines.map Listing.id = e.children ∧
      ∀ line ∈ lines, Shows s line := by
  have hused : ∀ x ∈ e.children, s.table.isUsed x = true := fun x hx => by
    obtain ⟨-, c, hc, -⟩ := hs.linked.points_back hf hx
    exact Table.isUsed_of_find? hc
  obtain ⟨found, hfound, hids, hentries⟩ := exists_entries hused
  have hall : s.listChildren dir s.config.maxChildren.toNat = .ok e.children := by
    simp only [Store.listChildren, Table.get_of_find? hf, Entry.isDirectory_iff.mpr hk, if_true,
      List.take_of_length_le (hs.fits hf).length_children_le]
  refine ⟨found.map fun p => ⟨p.1, p.2.name, p.2.kind, p.2.size⟩, ?_, ?_, ?_⟩
  · simp only [list, ht, hall, hfound]
  · rw [← hids, List.map_map]
    rfl
  · intro line hm
    obtain ⟨p, hp, rfl⟩ := List.mem_map.mp hm
    exact ⟨p.2, hentries p hp, rfl, rfl, rfl⟩

/-- What is known of an entry is what the entry is, and its full path. -/
theorem exists_stat_eq (hs : s.Sound) (ht : target s path = .ok id)
    (hf : s.table.find? id = some e) :
    ∃ full, s.fullPath id = .ok full ∧ stat s path = .ok {
      id, name := e.name, kind := e.kind, size := e.size, capacity := e.capacity
      entryCount := if e.isDirectory then some e.children.length else none
      parent := e.parent, path := full } := by
  obtain ⟨full, hfull⟩ := hs.exists_fullPath hf
  have hentry : s.entry id = .ok e := Table.get_of_find? hf
  exact ⟨full, hfull, by simp only [stat, ht, hentry, hfull]⟩

/-- What is known of an entry tells its size, and how many children a directory has. -/
theorem exists_stat (hs : s.Sound) (ht : target s path = .ok id)
    (hf : s.table.find? id = some e) :
    ∃ st, stat s path = .ok st ∧ st.id = id ∧ st.size = e.size ∧
      st.entryCount = if e.isDirectory then some e.children.length else none := by
  obtain ⟨full, -, hstat⟩ := exists_stat_eq hs ht hf
  exact ⟨_, hstat, rfl, rfl, rfl⟩

/-- A directory lists its children in the order in which the operations of a run made them. -/
structure ListsInOrder (s₀ : Store) (ops : List FileTree.Operation) (dir : EntryId)
    (children : List EntryId) : Prop where
  /-- The children are the entries that have the directory as their parent. -/
  mem_iff : ∀ x, x ∈ children ↔
    x ≠ .root ∧ ∃ c, (s₀.run ops).table.find? x = some c ∧ c.parent = dir
  nodup : children.Nodup
  /-- Each was made by one operation, and the one before another was made before it. -/
  existsUnique_madeAt : ∀ x ∈ children, ∃! n, s₀.MadeAt ops n x
  oldest_first : children.Pairwise (s₀.Older ops)
  listChildren_eq : ∀ k, (s₀.run ops).listChildren dir k = .ok (children.take k)
  /-- A path to the directory lists all of them as they are, as many as the directory is said to
  have. -/
  list : ∀ path, target (s₀.run ops) path = .ok dir →
    ∃ lines st, list (s₀.run ops) path = .ok lines ∧ stat (s₀.run ops) path = .ok st ∧
      lines.map Listing.id = children ∧ (∀ line ∈ lines, Shows (s₀.run ops) line) ∧
      st.entryCount = some lines.length

/-- A fresh store is sound, and no directory in it has children. -/
theorem sound_and_childrenAt_of_fresh {storeId : StoreId} {config : Config} {heap : Heap}
    (h : Store.fresh storeId config heap = .ok s) :
    s.Sound ∧ ∀ dir, s.table.childrenAt dir = [] := by
  obtain ⟨hc, rfl⟩ := Store.fresh_eq_ok_iff.mp h
  refine ⟨Store.sound_init hc storeId heap, fun dir => ?_⟩
  change (Table.new _).childrenAt dir = []
  rw [Table.childrenAt, Table.find?_new]
  split_ifs <;> rfl

/-- **Every directory that a run from a fresh store leaves lists its children in the order of their
creation**, all of them, whatever their identifiers are and whatever names they were given since. -/
theorem listsInOrder_run {storeId : StoreId} {config : Config} {heap : Heap}
    (h : Store.fresh storeId config heap = .ok s₀) {ops : List FileTree.Operation}
    (hf : (s₀.run ops).table.find? dir = some e) (hk : e.kind = .directory) :
    ListsInOrder s₀ ops dir e.children := by
  obtain ⟨hs₀, hnew⟩ := sound_and_childrenAt_of_fresh h
  have hs := (Store.reaches_run s₀ ops).sound hs₀
  have hchildren := Table.childrenAt_of_find? hf
  refine ⟨fun x => ⟨fun hx => ?_, ?_⟩, hs.linked.nodup_children hf, fun x hx => ?_, ?_, fun k => ?_,
    fun path ht => ?_⟩
  · exact hs.linked.points_back hf hx
  · rintro ⟨hx, c, hc, rfl⟩
    obtain ⟨p, hp, -, hm⟩ := hs.linked.listed hc hx
    obtain rfl := Option.some.inj (hp.symm.trans hf)
    exact hm
  · obtain ⟨n, hn⟩ := Store.Sound.exists_madeAt hs₀ hnew ops (hchildren ▸ hx)
    exact ⟨n, hn, fun m hm => hm.unique hn⟩
  · exact hchildren ▸ Store.Sound.pairwise_older hs₀ hnew ops dir
  · simp only [Store.listChildren, Table.get_of_find? hf, Entry.isDirectory_iff.mpr hk, if_true]
  · obtain ⟨lines, hlist, hids, hshows⟩ := exists_list hs ht hf hk
    obtain ⟨st, hstat, -, -, hcount⟩ := exists_stat hs ht hf
    refine ⟨lines, st, hlist, hstat, hids, hshows, ?_⟩
    rw [hcount, if_pos (Entry.isDirectory_iff.mpr hk), ← hids, List.length_map]

/-- Identifiers are used again and names change: the children of the root have the identifiers 2, 1
and 3, in this order. -/
theorem listsInOrder_run_of_reuse :
    let config : Config := { maxEntries := 4 }
    let ops : List FileTree.Operation :=
      [.createFile "a", .createDirectory "b", .createFile "c", .delete ⟨1⟩, .createFile "d",
        .rename ⟨2⟩ "z", .delete ⟨3⟩, .createFile "a", .rename ⟨1⟩ "y"]
    let s₀ := Store.init ⟨0⟩ config {}
    let e : Entry := { Entry.root with children := [⟨2⟩, ⟨1⟩, ⟨3⟩] }
    (Store.fresh ⟨0⟩ config {} = .ok s₀ ∧ (s₀.run ops).table.find? .root = some e ∧
      e.kind = .directory ∧ target (s₀.run ops) "" = .ok .root) ∧
      ListsInOrder s₀ ops .root e.children := by
  intro config ops s₀ e
  have h : Store.fresh ⟨0⟩ config {} = .ok s₀ := Store.fresh_eq_ok_iff.mpr ⟨rfl, rfl⟩
  have hf : (s₀.run ops).table.find? .root = some e := by decide +kernel
  exact ⟨⟨h, hf, rfl, by decide +kernel⟩, listsInOrder_run h hf rfl⟩

end FileTree.ByPath
