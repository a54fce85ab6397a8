import FileTree.ByPath
import FileTree.Proofs.Table.Preorder
import Mathlib.Algebra.BigOperators.Group.List.Basic
import Mathlib.Algebra.Ring.Nat

/-!
# The space that entries take

The space of some entries is the sum of the sizes of the files among them, and the numbers of files
and of directories. Space adds up component by component, and adding the entries one by one comes to
the same in whatever order they are visited. The pre-order of some entries falls into one part for
each of them, so the space below a directory is that of the directory and of what is below each of
its children.

## Main definitions

* `Table.space`: the space that entries take
* `Entry.usage`: the space that an entry takes on its own

## Main results

* `Table.foldl_add`: adding entries one by one adds their space
* `Table.space_perm`, `Table.space_congr`: what space depends on
* `Table.files_add_directories_space`: every entry is counted once
* `Table.Preorder.exists_parts`: a pre-order falls into parts
-/

namespace FileTree

attribute [ext] Usage

namespace Usage

instance : Zero Usage :=
  ⟨{}⟩

/-- Space adds up component by component. -/
instance : Add Usage :=
  ⟨fun u v => ⟨u.bytes + v.bytes, u.files + v.files, u.directories + v.directories⟩⟩

@[simp] theorem bytes_zero : (0 : Usage).bytes = 0 := rfl

@[simp] theorem files_zero : (0 : Usage).files = 0 := rfl

@[simp] theorem directories_zero : (0 : Usage).directories = 0 := rfl

variable (u v : Usage)

@[simp] theorem bytes_add : (u + v).bytes = u.bytes + v.bytes := rfl

@[simp] theorem files_add : (u + v).files = u.files + v.files := rfl

@[simp] theorem directories_add : (u + v).directories = u.directories + v.directories := rfl

instance : AddCommMonoid Usage where
  add_assoc u v w := by ext <;> simp [Nat.add_assoc]
  zero_add u := by ext <;> simp
  add_zero u := by ext <;> simp
  add_comm u v := by ext <;> simp [Nat.add_comm]
  nsmul := nsmulRec

end Usage

/-- The space that an entry takes on its own. -/
def Entry.usage (e : Entry) : Usage :=
  match e.kind with
  | .file => { files := 1, bytes := e.size }
  | .directory => { directories := 1 }

theorem Entry.usage_of_directory {e : Entry} (h : e.kind = .directory) :
    e.usage = { directories := 1 } := by
  rw [usage, h]

theorem Entry.files_add_directories_usage (e : Entry) :
    e.usage.files + e.usage.directories = 1 := by
  unfold usage
  cases e.kind <;> rfl

theorem Usage.add_eq (u : Usage) (e : Entry) : u.add e = u + e.usage := by
  unfold add Entry.usage
  cases e.kind <;> rfl

namespace Table

/-- The kind of an entry, if there is one. -/
def kindAt (t : Table) (id : EntryId) : Option EntryKind :=
  (t.find? id).map Entry.kind

/-- The size of an entry. -/
def sizeAt (t : Table) (id : EntryId) : Nat :=
  ((t.find? id).map Entry.size).getD 0

/-- The space that the given entries take: the sizes of the files among them, and how many files
and how many directories there are. -/
def space (t : Table) (ids : List EntryId) : Usage where
  bytes := ((ids.filter fun x => t.kindAt x = some .file).map t.sizeAt).sum
  files := ids.countP fun x => t.kindAt x = some .file
  directories := ids.countP fun x => t.kindAt x = some .directory

variable {t t' : Table} {ids ids' order : List EntryId} {id : EntryId} {e : Entry}

@[simp] theorem space_nil (t : Table) : t.space [] = 0 := rfl

theorem space_append (t : Table) (ids ids' : List EntryId) :
    t.space (ids ++ ids') = t.space ids + t.space ids' := by
  ext <;> simp [space]

theorem space_cons (h : t.find? id = some e) (ids : List EntryId) :
    t.space (id :: ids) = e.usage + t.space ids := by
  have hkind : t.kindAt id = some e.kind := by rw [kindAt, h, Option.map_some]
  have hsize : t.sizeAt id = e.size := by rw [sizeAt, h, Option.map_some, Option.getD_some]
  unfold Entry.usage
  cases hk : e.kind <;> ext <;> simp [space, hkind, hsize, hk, Nat.add_comm]

theorem space_flatten (t : Table) (parts : List (List EntryId)) :
    t.space parts.flatten = (parts.map t.space).sum := by
  induction parts with
  | nil => rfl
  | cons part parts ih => rw [List.flatten_cons, space_append, ih, List.map_cons, List.sum_cons]

/-- The order of the entries does not matter. -/
theorem space_perm (h : ids.Perm ids') : t.space ids = t.space ids' := by
  ext
  · exact ((h.filter _).map _).sum_eq
  · exact h.countP_eq _
  · exact h.countP_eq _

/-- Entries take the same space in tables in which they have the same kinds and sizes. -/
theorem space_congr (hkind : ∀ x ∈ ids, t'.kindAt x = t.kindAt x)
    (hsize : ∀ x ∈ ids, t'.sizeAt x = t.sizeAt x) : t'.space ids = t.space ids := by
  ext
  · change (List.map _ _).sum = (List.map _ _).sum
    rw [List.filter_congr fun x hx => by rw [hkind x hx]]
    exact congrArg _ (List.map_congr_left fun x hx => hsize x (List.mem_of_mem_filter hx))
  · exact List.countP_congr fun x hx => by rw [hkind x hx]
  · exact List.countP_congr fun x hx => by rw [hkind x hx]

/-- Each of some entries is counted once. -/
theorem files_add_directories_space (h : ∀ x ∈ ids, t.isUsed x = true) :
    (t.space ids).files + (t.space ids).directories = ids.length := by
  induction ids with
  | nil => rfl
  | cons id ids ih =>
    obtain ⟨e, he⟩ := isUsed_iff.mp (h id (by simp))
    have hone := e.files_add_directories_usage
    have hrest := ih fun x hx => h x (by simp [hx])
    rw [space_cons he, Usage.files_add, Usage.directories_add, List.length_cons]
    omega

/-- Adding entries one by one adds the space that they take. -/
theorem foldl_add {found : List (EntryId × Entry)} (h : ∀ p ∈ found, t.find? p.1 = some p.2)
    (u : Usage) :
    found.foldl (fun u p => u.add p.2) u = u + t.space (found.map Prod.fst) := by
  induction found generalizing u with
  | nil => rw [List.foldl_nil, List.map_nil, space_nil, add_zero]
  | cons p found ih =>
    rw [List.foldl_cons, ih fun q hq => h q (by simp [hq]), List.map_cons,
      space_cons (h p (by simp)), Usage.add_eq, add_assoc]

/-- The pre-order of some entries is made of the pre-orders of each, one after the other. -/
theorem Preorder.exists_parts (h : t.Preorder ids order) :
    ∃ parts, List.Forall₂ (fun id part => t.Preorder [id] part) ids parts ∧
      order = parts.flatten := by
  induction h with
  | nil => exact ⟨[], .nil, rfl⟩
  | @cons id e rest under after hf hu _ _ iha =>
    obtain ⟨parts, hparts, rfl⟩ := iha
    have hfirst : t.Preorder [id] (id :: under) := by
      have := Preorder.cons hf hu .nil
      rwa [List.append_nil] at this
    exact ⟨(id :: under) :: parts, .cons hfirst hparts, by simp⟩

/-- What is below an entry takes the space of the entry and of what is below its children. -/
theorem Preorder.space_eq (h : t.Preorder [id] order) (hf : t.find? id = some e) :
    ∃ parts, List.Forall₂ (fun child part => t.Preorder [child] part) e.children parts ∧
      t.space order = e.usage + (parts.map t.space).sum := by
  cases h with
  | cons hf' hu ha =>
    cases ha with
    | nil =>
      obtain rfl := Option.some.inj (hf'.symm.trans hf)
      obtain ⟨parts, hparts, rfl⟩ := hu.exists_parts
      exact ⟨parts, hparts, by rw [List.append_nil, space_cons hf, space_flatten]⟩

end Table

end FileTree
