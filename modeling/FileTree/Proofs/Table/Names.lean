import FileTree.Proofs.Table.Tree
import FileTree.Resolution

/-!
# The names of a tree

No two entries of a directory have the same name, so that a name leads to one child at most. A
table keeps this as long as a new name is one that the directory does not have.

## Main definitions

* `Entry.signpost`: what an entry shows to someone who follows names
* `Table.DistinctNames`: entries of one directory have distinct names
* `Table.nameAt`: the name of an entry

## Main results

* `Table.resolve_congr`: where paths lead depends on names and lists of children alone
* `Table.findChild?_eq_some_iff`, `Table.ne_of_findChild?_eq_none`: what looking for a name finds
* `Table.resolve_of_isUsed`: a path leads where its segments lead, or is not found
* `Table.DistinctNames.nodup_names`, `Table.DistinctNames.findChild?_eq_some_iff_filter`: the
  children of a directory have distinct names, so the first one with a name is the only one
* `Table.DistinctNames.congr`, `Table.DistinctNames.fresh`: the names stay distinct
-/

namespace FileTree

/-- What an entry shows to someone who follows names: its own and its children. -/
def Entry.signpost (e : Entry) : String × List EntryId :=
  (e.name, e.children)

namespace Table

/-- Two entries of one directory with the same name are the same. -/
def DistinctNames (t : Table) : Prop :=
  ∀ ⦃x y : EntryId⦄ ⦃ex ey : Entry⦄, t.find? x = some ex → t.find? y = some ey → x ≠ .root →
    y ≠ .root → ex.parent = ey.parent → ex.name = ey.name → x = y

variable {t t' : Table} {id dir child : EntryId} {e : Entry} {name : String}

/-! ## Following names -/

theorem findChild?_eq_bind (t : Table) (dir : EntryId) (name : String) :
    t.findChild? dir name = ((t.find? dir).map Entry.signpost).bind fun post =>
      post.2.find? fun child => ((t.find? child).map Entry.signpost).any (·.1 == name) := by
  unfold findChild?
  cases t.find? dir with
  | none => rfl
  | some e =>
    simp only [Option.map_some, Option.bind_some, Option.any_map]
    rfl

section Signposts

variable (h : ∀ x, (t'.find? x).map Entry.signpost = (t.find? x).map Entry.signpost)

include h

/-- A name is found in both tables at the same entry, or in neither. -/
theorem findChild?_congr : t'.findChild? = t.findChild? := by
  funext dir name
  simp only [findChild?_eq_bind, h]

/-- A path leads to the same entry in both tables, or to none in either. -/
theorem resolve_congr (base : EntryId) (path : String) :
    t'.resolve base path = t.resolve base path := by
  have hused : t'.isUsed base = t.isUsed base := by
    rw [isUsed, isUsed, ← Option.isSome_map, h, Option.isSome_map]
  unfold resolve descend?
  rw [hused, findChild?_congr h]

end Signposts

/-! ## Distinct names -/

theorem distinctNames_new (capacity : Nat) : (new capacity).DistinctNames := by
  intro x y ex ey hx _ hxr
  simp [find?_new, hxr] at hx

/-- Two children of one directory with the same name are the same. -/
theorem DistinctNames.eq_of_mem_children (h : t.DistinctNames) (hl : t.Linked)
    (hf : t.find? dir = some e) {x y : EntryId} {ex ey : Entry} (hx : x ∈ e.children)
    (hy : y ∈ e.children) (hex : t.find? x = some ex) (hey : t.find? y = some ey)
    (hname : ex.name = ey.name) : x = y := by
  obtain ⟨hxr, cx, hcx, hpx⟩ := hl.points_back hf hx
  obtain ⟨hyr, cy, hcy, hpy⟩ := hl.points_back hf hy
  obtain rfl := Option.some.inj (hex.symm.trans hcx)
  obtain rfl := Option.some.inj (hey.symm.trans hcy)
  exact h hex hey hxr hyr (hpx.trans hpy.symm) hname

theorem exists_entry_of_findChild? (h : t.findChild? dir name = some child) :
    ∃ c, t.find? child = some c := by
  unfold findChild? at h
  split at h
  · cases h
  · have hnamed := List.find?_some h
    obtain ⟨c, hc, -⟩ := Option.any_eq_true _ _ |>.mp hnamed
    exact ⟨c, hc⟩

/-- What following names comes to is an entry, if they are followed from one. -/
theorem exists_entry_of_descend? {start target : EntryId} {names : List String}
    (hf : t.find? start = some e) (h : t.descend? start names = some target) :
    ∃ c, t.find? target = some c := by
  induction names generalizing start e with
  | nil =>
    obtain rfl := Option.some.inj h
    exact ⟨e, hf⟩
  | cons name names ih =>
    rw [descend?_cons, Option.bind_eq_some_iff] at h
    obtain ⟨child, hchild, hdown⟩ := h
    obtain ⟨c, hc⟩ := exists_entry_of_findChild? hchild
    exact ih hc hdown

/-- A name is found when a child has it. -/
theorem findChild?_eq_some_iff (h : t.DistinctNames) (hl : t.Linked) :
    t.findChild? dir name = some child ↔
      ∃ e c, t.find? dir = some e ∧ child ∈ e.children ∧ t.find? child = some c ∧
        c.name = name := by
  unfold findChild?
  cases hf : t.find? dir with
  | none => simp
  | some e =>
    constructor
    · intro hfind
      have hc := List.find?_some hfind
      obtain ⟨c, hcf, hname⟩ := Option.any_eq_true _ _ |>.mp hc
      exact ⟨e, c, rfl, List.mem_of_find?_eq_some hfind, hcf, beq_iff_eq.mp hname⟩
    · rintro ⟨e', c, he, hm, hcf, rfl⟩
      obtain rfl := Option.some.inj he
      have hsome : (e.children.find? fun x => (t.find? x).any (·.name == c.name)).isSome := by
        rw [List.find?_isSome]
        exact ⟨child, hm, by simp [hcf]⟩
      obtain ⟨x, hx⟩ := Option.isSome_iff_exists.mp hsome
      have hcx := List.find?_some hx
      obtain ⟨cx, hcx, hname⟩ := Option.any_eq_true _ _ |>.mp hcx
      have hmx := List.mem_of_find?_eq_some hx
      rw [h.eq_of_mem_children hl hf hm hmx hcf hcx (beq_iff_eq.mp hname).symm]
      exact hx

/-- A name is not found when no entry of the directory has it. -/
theorem ne_of_findChild?_eq_none (hl : t.Linked) (hnone : t.findChild? e.parent name = none)
    {x : EntryId} {ex : Entry} (hx : t.find? x = some ex) (hxr : x ≠ .root)
    (hp : ex.parent = e.parent) : ex.name ≠ name := by
  obtain ⟨p, hpf, -, hm⟩ := hl.listed hx hxr
  rw [hp] at hpf
  simp only [findChild?, hpf, List.find?_eq_none] at hnone
  intro hname
  exact hnone x hm (by simp [hx, hname])

/-! ## Following a path -/

section Paths

variable {base : EntryId} {path : String}

theorem startOf_eq_self (h : Path.isAbsolute path = false ∨ base = .root) :
    startOf base path = base := by
  unfold startOf
  rcases h with hrel | hroot
  · rw [hrel, if_neg Bool.false_ne_true]
  · rw [hroot, ite_self]

/-- A path leads where its segments lead, or is not found. -/
theorem resolve_of_isUsed (hbase : t.isUsed base = true) (path : String) :
    t.resolve base path =
      match t.descend? (startOf base path) (Path.segments path) with
      | some id => .ok id
      | none => .error (.notFound path) := by
  have hstart : (Path.isAbsolute path || t.isUsed base) = true := by rw [hbase, Bool.or_true]
  unfold resolve
  exact if_pos hstart

/-- A path of one segment leads to the child that has it as its name. -/
theorem resolve_of_findChild? (hseg : Path.segments path = [name])
    (hstart : Path.isAbsolute path = false ∨ base = .root) (h : t.findChild? base name = some id) :
    t.resolve base path = .ok id := by
  have hbase : t.isUsed base = true := by
    unfold findChild? at h
    split at h
    · cases h
    · rename_i e he
      exact isUsed_of_find? he
  rw [resolve_of_isUsed hbase, startOf_eq_self hstart, hseg, descend?_cons, h]
  rfl

/-- A path starts at an entry. -/
theorem Linked.exists_startOf (h : t.Linked) (hbase : t.isUsed base = true) (path : String) :
    ∃ e, t.find? (startOf base path) = some e := by
  unfold startOf
  split_ifs
  · obtain ⟨r, hr, -⟩ := h.root
    exact ⟨r, hr⟩
  · exact isUsed_iff.mp hbase

end Paths

/-! ## The only child of a name -/

/-- The name of an entry, if there is such an entry. -/
def nameAt (t : Table) (id : EntryId) : Option String :=
  (t.find? id).map Entry.name

/-- The children of a directory have distinct names. -/
theorem DistinctNames.nodup_names (h : t.DistinctNames) (hl : t.Linked)
    (hf : t.find? dir = some e) : (e.children.map t.nameAt).Nodup := by
  refine List.Nodup.map_on (fun x hx y hy hname => ?_) (hl.nodup_children hf)
  obtain ⟨-, ex, hex, -⟩ := hl.points_back hf hx
  obtain ⟨-, ey, hey, -⟩ := hl.points_back hf hy
  rw [nameAt, nameAt, hex, hey, Option.map_some, Option.map_some, Option.some.injEq] at hname
  exact h.eq_of_mem_children hl hf hx hy hex hey hname

/-- Looking for a name finds the first child that has it. -/
theorem findChild?_eq_head? (hf : t.find? dir = some e) (name : String) :
    t.findChild? dir name = (e.children.filter fun x => t.nameAt x = some name).head? := by
  simp only [findChild?, hf, List.head?_filter]
  congr 1
  funext x
  rw [Bool.eq_iff_iff]
  cases hx : t.find? x <;> simp [nameAt, hx]

/-- The first child that has a name is the only one. -/
theorem DistinctNames.findChild?_eq_some_iff_filter (h : t.DistinctNames) (hl : t.Linked)
    (hf : t.find? dir = some e) :
    t.findChild? dir name = some child ↔
      (e.children.filter fun x => t.nameAt x = some name) = [child] := by
  rw [findChild?_eq_head? hf]
  have hsub : (e.children.filter fun x => t.nameAt x = some name).Sublist e.children :=
    List.filter_sublist
  have hnodup := (h.nodup_names hl hf).sublist (hsub.map t.nameAt)
  have hnamed : ∀ x ∈ e.children.filter fun x => t.nameAt x = some name,
      t.nameAt x = some name := fun x hx => by simpa using (List.mem_filter.mp hx).2
  generalize (e.children.filter fun x => t.nameAt x = some name) = found at hnodup hnamed ⊢
  match found with
  | [] => simp
  | [x] => simp
  | x :: y :: rest =>
    have hxy : t.nameAt x = t.nameAt y := by rw [hnamed x (by simp), hnamed y (by simp)]
    simp [hxy] at hnodup

/-! ## Changes that keep the names distinct -/

/-- Names stay distinct when every entry has the name and the parent that it had. -/
theorem DistinctNames.congr (h : t.DistinctNames)
    (hback : ∀ ⦃x ex⦄, t'.find? x = some ex →
      ∃ ex₀, t.find? x = some ex₀ ∧ ex₀.parent = ex.parent ∧ ex₀.name = ex.name) :
    t'.DistinctNames := by
  intro x y ex ey hx hy hxr hyr hp hn
  obtain ⟨ex₀, hx₀, hpx, hnx⟩ := hback hx
  obtain ⟨ey₀, hy₀, hpy, hny⟩ := hback hy
  exact h hx₀ hy₀ hxr hyr (by rw [hpx, hpy, hp]) (by rw [hnx, hny, hn])

/-- Names stay distinct when one entry has a name that its directory did not have. -/
theorem DistinctNames.fresh (h : t.DistinctNames) (hl : t.Linked) (hid : t'.find? id = some e)
    (hnone : t.findChild? e.parent e.name = none)
    (hback : ∀ ⦃x ex⦄, t'.find? x = some ex → x ≠ id →
      ∃ ex₀, t.find? x = some ex₀ ∧ ex₀.parent = ex.parent ∧ ex₀.name = ex.name) :
    t'.DistinctNames := by
  have other : ∀ ⦃x ex⦄, t'.find? x = some ex → x ≠ id → x ≠ .root → ex.parent = e.parent →
      ex.name ≠ e.name := by
    intro x ex hx hne hxr hp
    obtain ⟨ex₀, hx₀, hp₀, hn₀⟩ := hback hx hne
    exact hn₀ ▸ ne_of_findChild?_eq_none hl hnone hx₀ hxr (hp₀.trans hp)
  intro x y ex ey hx hy hxr hyr hp hn
  by_cases hxi : x = id <;> by_cases hyi : y = id
  · rw [hxi, hyi]
  · subst hxi
    obtain rfl := Option.some.inj (hx.symm.trans hid)
    exact absurd hn.symm (other hy hyi hyr hp.symm)
  · subst hyi
    obtain rfl := Option.some.inj (hy.symm.trans hid)
    exact absurd hn (other hx hxi hxr hp)
  · obtain ⟨ex₀, hx₀, hpx, hnx⟩ := hback hx hxi
    obtain ⟨ey₀, hy₀, hpy, hny⟩ := hback hy hyi
    exact h hx₀ hy₀ hxr hyr (by rw [hpx, hpy, hp]) (by rw [hnx, hny, hn])

end Table

end FileTree
