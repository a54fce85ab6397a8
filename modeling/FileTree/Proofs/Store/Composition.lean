import FileTree.Proofs.Path.Position
import FileTree.Proofs.Store.FullPath

/-!
# Following a path in parts

A path that is put together from two, with a separator between them, is followed like the two, one
after the other: the first from where it starts, the second from where the first leads. It is not
found exactly when one of the two is not found. The first path must not be empty, or the separator
would stand at the front, and the second must not start at the root.

Of a path only its start and its segments count. So a relative path leads from the current directory
where it leads behind the full path of that directory, as long as the full path is whole.

## Main definitions

* `Store.FollowsPaths`: what following paths from an entry comes to

## Main results

* `Table.Linked.resolve_append`: a path in two parts is followed part by part
* `Store.Reachable.followsPaths`: what following paths comes to, from every entry of a reachable
  store
-/

namespace FileTree

variable {p q : String}

namespace Table

variable {t : Table} {base id : EntryId}

/-- **A path in two parts is followed part by part**: the second from where the first leads. Where
either part fails, it is the whole path that is not found. -/
theorem Linked.resolve_append (h : t.Linked) (hbase : t.isUsed base = true) (hp : p ≠ "")
    (hq : Path.isAbsolute q = false) :
    t.resolve base (p ++ "/" ++ q) =
      ((t.resolve base p).bind fun mid => t.resolve mid q).mapError
        fun _ => .notFound (p ++ "/" ++ q) := by
  have hstart : startOf base (p ++ "/" ++ q) = startOf base p := by
    rw [startOf, startOf, String.append_assoc, Path.isAbsolute_append_of_ne_empty hp]
  rw [resolve_of_isUsed hbase (p ++ "/" ++ q), resolve_of_isUsed hbase p, hstart,
    Path.segments_append_slash_append, descend?_append]
  cases hmid : t.descend? (startOf base p) (Path.segments p) with
  | none => rfl
  | some mid =>
    obtain ⟨e, hf⟩ := h.exists_startOf hbase p
    obtain ⟨m, hm⟩ := exists_entry_of_descend? hf hmid
    rw [Option.bind_some]
    simp only [Except.bind, resolve_of_isUsed (isUsed_of_find? hm) q, startOf_eq_self (.inl hq)]
    cases t.descend? mid (Path.segments q) <;> rfl

/-- Only the start of a path and its segments count. -/
theorem resolve_of_segments_eq (hbase : t.isUsed base = true)
    (hstart : Path.isAbsolute p = Path.isAbsolute q) (hseg : Path.segments p = Path.segments q) :
    (∃ id, t.resolve base p = .ok id ∧ t.resolve base q = .ok id) ∨
      (t.resolve base p = .error (.notFound p) ∧ t.resolve base q = .error (.notFound q)) := by
  have hsame : startOf base p = startOf base q := by rw [startOf, startOf, hstart]
  rw [resolve_of_isUsed hbase p, resolve_of_isUsed hbase q, hsame, hseg]
  cases t.descend? (startOf base q) (Path.segments q) with
  | none => exact .inr ⟨rfl, rfl⟩
  | some id => exact .inl ⟨id, rfl, rfl⟩

end Table

namespace Store

variable {s : Store} {base id : EntryId} {names : List String} {config : Config} {heap : Heap}

/-- What following paths from an entry comes to. -/
structure FollowsPaths (s : Store) (base : EntryId) : Prop where
  /-- A path in two parts leads to where the second leads from where the first leads. -/
  ok_iff ⦃p q : String⦄ : p ≠ "" → Path.isAbsolute q = false → ∀ id,
    s.table.resolve base (p ++ "/" ++ q) = .ok id ↔
      ∃ mid, s.table.resolve base p = .ok mid ∧ s.table.resolve mid q = .ok id
  /-- The whole path is not found where one of the parts fails, and there is no other refusal. -/
  error_iff ⦃p q : String⦄ : p ≠ "" → Path.isAbsolute q = false → ∀ cause,
    s.table.resolve base (p ++ "/" ++ q) = .error cause ↔ cause = .notFound (p ++ "/" ++ q) ∧
      ((∃ c, s.table.resolve base p = .error c) ∨
        ∃ mid c, s.table.resolve base p = .ok mid ∧ s.table.resolve mid q = .error c)
  /-- Paths with the same segments, both absolute or both relative, lead to the same entry, or
  neither is found. -/
  same_segments ⦃p q : String⦄ : Path.isAbsolute p = Path.isAbsolute q →
    Path.segments p = Path.segments q →
      (∃ id, s.table.resolve base p = .ok id ∧ s.table.resolve base q = .ok id) ∨
        (s.table.resolve base p = .error (.notFound p) ∧
          s.table.resolve base q = .error (.notFound q))
  /-- Where the full path of the current directory is whole and has no separator in a name, a
  relative path leads to where it leads behind that full path. -/
  relative ⦃names : List String⦄ : s.table.Way .root names s.cursor →
    (∀ name ∈ names, Path.separator ∉ name.toList) →
    names.length ≤ s.config.maxPathDepth.toNat →
    (Path.absolute names).utf8ByteSize ≤ s.config.maxPathLength.toNat →
      ∃ path, s.fullPath s.cursor = .ok path ∧ ∀ r, Path.isAbsolute r = false →
        ∀ id, s.resolve r = .ok id ↔ s.resolve (path ++ "/" ++ r) = .ok id

/-- Behind the full path of the current directory a relative path leads to where it leads. -/
theorem Reachable.exists_fullPath_append (hs : Reachable config heap s)
    (hw : s.table.Way .root names s.cursor)
    (hnames : ∀ name ∈ names, Path.separator ∉ name.toList)
    (hdepth : names.length ≤ s.config.maxPathDepth.toNat)
    (hlength : (Path.absolute names).utf8ByteSize ≤ s.config.maxPathLength.toNat) :
    ∃ path, s.fullPath s.cursor = .ok path ∧ ∀ r, Path.isAbsolute r = false →
      ∀ id, s.resolve r = .ok id ↔ s.resolve (path ++ "/" ++ r) = .ok id := by
  refine ⟨_, hs.fullPath_eq_absolute hw hdepth hlength, fun r hr id => ?_⟩
  obtain ⟨c, hc, -⟩ := hs.sound.cursor
  have hne : Path.absolute names ≠ "" := fun h => by
    have habs := Path.isAbsolute_absolute names
    rw [h] at habs
    cases habs
  have hback : s.table.resolve s.cursor (Path.absolute names) = .ok s.cursor :=
    hs.sound.resolve_absolute hs.distinctNames hw hnames
  rw [resolve, resolve, hs.sound.linked.resolve_append (Table.isUsed_of_find? hc) hne hr, hback]
  show _ ↔ (s.table.resolve s.cursor r).mapError _ = .ok id
  cases s.table.resolve s.cursor r <;> simp [Except.mapError]

/-- **What following paths comes to**, from every entry of a reachable store and for all paths. -/
theorem Reachable.followsPaths (hs : Reachable config heap s)
    (hbase : s.table.isUsed base = true) : s.FollowsPaths base where
  ok_iff p q hp hq id := by
    rw [hs.sound.linked.resolve_append hbase hp hq]
    cases s.table.resolve base p with
    | error c => simp [Except.bind, Except.mapError]
    | ok mid => cases hlast : s.table.resolve mid q <;> simp [Except.bind, Except.mapError, hlast]
  error_iff p q hp hq cause := by
    rw [hs.sound.linked.resolve_append hbase hp hq]
    cases s.table.resolve base p with
    | error c => simp [Except.bind, Except.mapError, eq_comm]
    | ok mid =>
      cases hlast : s.table.resolve mid q <;>
        simp [Except.bind, Except.mapError, hlast, eq_comm]
  same_segments _ _ hstart hseg := Table.resolve_of_segments_eq hbase hstart hseg
  relative _ hw hnames hdepth hlength := hs.exists_fullPath_append hw hnames hdepth hlength

/-- Paths with separators too many, from the directory above the current one: one leads to a file,
one through it. The full path of the current directory is whole. -/
theorem Reachable.followsPaths_of_nested :
    let config : Config := { maxEntries := 4, maxPathDepth := 2, maxPathLength := 6 }
    let s := (init ⟨0⟩ config {}).run
      [.createDirectory "a", .changeDirectory ⟨1⟩, .createDirectory "bé", .changeDirectory ⟨2⟩,
        .createFile "c"]
    (Reachable config {} s ∧ s.table.isUsed ⟨1⟩ = true ∧
      s.table.resolve ⟨1⟩ "bé//" = .ok ⟨2⟩ ∧ s.table.resolve ⟨2⟩ "c/" = .ok ⟨3⟩ ∧
      s.table.resolve ⟨1⟩ "bé///c/" = .ok ⟨3⟩ ∧
      s.table.resolve ⟨1⟩ "bé/c/d" = .error (.notFound "bé/c/d") ∧
      s.table.Way .root ["a", "bé"] s.cursor ∧
      (Path.absolute ["a", "bé"]).utf8ByteSize = config.maxPathLength.toNat) ∧
      s.FollowsPaths ⟨1⟩ := by
  intro config s
  have hs : Reachable config {} s := reachable_run rfl ⟨0⟩ {} _
  have hbase : s.table.isUsed ⟨1⟩ = true := by decide +kernel
  have hpath : s.resolve "/a/bé" = .ok s.cursor := by decide +kernel
  have hway : s.table.Way .root ["a", "bé"] s.cursor :=
    (hs.sound.resolve_eq_ok_iff_of_isAbsolute hs.distinctNames rfl).mp hpath
  refine ⟨⟨hs, hbase, ?_, ?_, ?_, ?_, hway, ?_⟩, hs.followsPaths hbase⟩
  all_goals decide +kernel

end Store

end FileTree
