import FileTree.Proofs.Table.Slots

/-!
# The links of a table form a tree

Every entry but the root is listed once by a directory, its parent, and every child points back
to the directory that lists it. A rank that grows on the way down keeps the parent links from
running in a circle, so they lead from every entry to the root.

## Main definitions

* `Table.Linked`: the links of a table form one tree below the root
* `Table.Below`: the parent links lead from one entry up to another

## Main results

* `Table.Linked.below_root`: every entry is below the root
* `Table.Linked.below_iff`: what is below an entry is the entry, or below one of its children
* `Table.Linked.attach`, `Table.Linked.detach`, `Table.Linked.congr`: the links stay a tree
-/

namespace FileTree

/-- What links an entry to others. -/
def Entry.links (e : Entry) : EntryKind × EntryId × List EntryId :=
  (e.kind, e.parent, e.children)

namespace Table

/-- The links of a table form one tree below the root. -/
structure Linked (t : Table) : Prop where
  /-- The root is a directory that holds itself. -/
  root : ∃ e, t.find? .root = some e ∧ e.kind = .directory ∧ e.name = "/" ∧ e.parent = .root
  /-- Every other entry is listed by a directory, its parent. -/
  listed : ∀ ⦃id e⦄, t.find? id = some e → id ≠ .root →
    ∃ dir, t.find? e.parent = some dir ∧ dir.kind = .directory ∧ id ∈ dir.children
  /-- A child is an entry other than the root and points back. -/
  points_back : ∀ ⦃id e child⦄, t.find? id = some e → child ∈ e.children →
    child ≠ .root ∧ ∃ c, t.find? child = some c ∧ c.parent = id
  nodup_children : ∀ ⦃id e⦄, t.find? id = some e → e.children.Nodup
  file_children : ∀ ⦃id e⦄, t.find? id = some e → e.kind = .file → e.children = []
  /-- The parent links do not run in a circle. -/
  ranked : ∃ rank : EntryId → Nat,
    ∀ ⦃id e⦄, t.find? id = some e → id ≠ .root → rank e.parent < rank id

/-- The parent links lead from an entry up to `top`. -/
inductive Below (t : Table) (top : EntryId) : EntryId → Prop
  | self {e : Entry} : t.find? top = some e → Below t top top
  | step {id : EntryId} {e : Entry} : t.find? id = some e → Below t top e.parent → Below t top id

variable {t : Table} {id a b c : EntryId} {e : Entry}

theorem Below.exists_entry (h : t.Below a b) : ∃ e, t.find? b = some e := by
  cases h with
  | self h => exact ⟨_, h⟩
  | step h _ => exact ⟨_, h⟩

theorem Below.trans (h₁ : t.Below a b) (h₂ : t.Below b c) : t.Below a c := by
  induction h₂ with
  | self _ => exact h₁
  | step hf _ ih => exact .step hf ih

/-- Of two entries above the same one, one is above the other. -/
theorem Below.linear (h₁ : t.Below a c) (h₂ : t.Below b c) : t.Below a b ∨ t.Below b a := by
  induction h₁ with
  | self _ => exact .inr h₂
  | step hf h ih =>
    cases h₂ with
    | self _ => exact .inl (.step hf h)
    | step hf' h₂ =>
      obtain rfl := Option.some.inj (hf.symm.trans hf')
      exact ih h₂

namespace Linked

variable (h : t.Linked)

include h

theorem root_parent (hf : t.find? .root = some e) : e.parent = .root := by
  obtain ⟨r, hr, -, -, hp⟩ := h.root
  obtain rfl := Option.some.inj (hf.symm.trans hr)
  exact hp

/-- Every entry has a parent; the root is its own. -/
theorem exists_parent (hf : t.find? id = some e) : ∃ dir, t.find? e.parent = some dir := by
  by_cases hroot : id = .root
  · subst hroot
    rw [h.root_parent hf]
    exact ⟨e, hf⟩
  · obtain ⟨dir, hdir, -⟩ := h.listed hf hroot
    exact ⟨dir, hdir⟩

theorem below_child {child : EntryId} (hf : t.find? id = some e) (hc : child ∈ e.children) :
    t.Below id child := by
  obtain ⟨-, c, hc, rfl⟩ := h.points_back hf hc
  exact .step hc (.self hf)

theorem ne_of_mem_children {child : EntryId} (hf : t.find? id = some e) (hc : child ∈ e.children) :
    child ≠ id := by
  rintro rfl
  obtain ⟨hroot, c, hcf, hp⟩ := h.points_back hf hc
  obtain ⟨rank, hrank⟩ := h.ranked
  have := hrank hcf hroot
  rw [hp] at this
  exact Nat.lt_irrefl _ this

/-- Nothing but the root is above the root. -/
theorem eq_root_of_below (hb : t.Below a b) (hr : b = .root) : a = .root := by
  induction hb with
  | self _ => exact hr
  | step hf _ ih =>
    subst hr
    exact ih (h.root_parent hf)

/-- The ranks that the links admit grow on the way down. -/
theorem exists_rank : ∃ rank : EntryId → Nat,
    ∀ ⦃a b⦄, t.Below a b → a ≠ b → rank a < rank b := by
  obtain ⟨rank, hrank⟩ := h.ranked
  refine ⟨rank, fun a b hb => ?_⟩
  induction hb with
  | self _ => exact fun hne => absurd rfl hne
  | @step id e hf hb ih =>
    intro hne
    have hid : id ≠ .root := by
      intro heq
      exact hne ((h.eq_root_of_below (.step hf hb) heq).trans heq.symm)
    have hlt := hrank hf hid
    by_cases hp : a = e.parent
    · exact hp ▸ hlt
    · exact Nat.lt_trans (ih hp) hlt

theorem below_antisymm (h₁ : t.Below a b) (h₂ : t.Below b a) : a = b := by
  obtain ⟨rank, hrank⟩ := h.exists_rank
  by_contra hne
  exact Nat.lt_asymm (hrank h₁ hne) (hrank h₂ (Ne.symm hne))

/-- Every entry is below the root. -/
theorem below_root (hf : t.find? id = some e) : t.Below .root id := by
  obtain ⟨rank, hrank⟩ := h.ranked
  -- The induction is on the rank, which is lower at the parent.
  induction hn : rank id using Nat.strongRecOn generalizing id e with
  | ind n ih =>
    by_cases hid : id = .root
    · subst hid
      exact .self hf
    · obtain ⟨dir, hdir, -, -⟩ := h.listed hf hid
      exact .step hf (ih _ (hn ▸ hrank hf hid) hdir rfl)

/-- What is below an entry is the entry itself, or below one of its children. -/
theorem below_iff (hf : t.find? id = some e) {x : EntryId} :
    t.Below id x ↔ x = id ∨ ∃ child ∈ e.children, t.Below child x := by
  constructor
  · intro hb
    induction hb with
    | self _ => exact .inl rfl
    | @step x ex hx hb ih =>
      rcases ih with hp | ⟨child, hc, hb⟩
      · by_cases hr : x = .root
        · subst hr
          exact .inl ((h.root_parent hx).symm.trans hp)
        · obtain ⟨dir, hdir, -, hm⟩ := h.listed hx hr
          rw [hp] at hdir
          obtain rfl := Option.some.inj (hdir.symm.trans hf)
          exact .inr ⟨x, hm, .self hx⟩
      · exact .inr ⟨child, hc, .step hx hb⟩
  · rintro (rfl | ⟨child, hc, hb⟩)
    · exact .self hf
    · exact (h.below_child hf hc).trans hb

/-- Nothing is below two children of one directory. -/
theorem eq_of_below_children {x y : EntryId} (hf : t.find? id = some e) (hx : x ∈ e.children)
    (hy : y ∈ e.children) (hb : t.Below x y) : x = y := by
  by_contra hne
  cases hb with
  | self _ => exact hne rfl
  | step hf' hb =>
    obtain ⟨-, c, hc, hp⟩ := h.points_back hf hy
    obtain rfl := Option.some.inj (hf'.symm.trans hc)
    rw [hp] at hb
    exact h.ne_of_mem_children hf hx (h.below_antisymm hb (h.below_child hf hx))

end Linked

/-! ## Changes that keep the tree -/

/-- A change that leaves the links and the name of the root alone keeps the tree. -/
theorem Linked.congr {t' : Table} (h : t.Linked)
    (hl : ∀ id, (t'.find? id).map Entry.links = (t.find? id).map Entry.links)
    (hn : (t'.find? .root).map Entry.name = (t.find? .root).map Entry.name) : t'.Linked := by
  have back : ∀ ⦃id e'⦄, t'.find? id = some e' → ∃ e, t.find? id = some e ∧ e'.links = e.links := by
    intro id e' hf
    have := hl id
    rw [hf, Option.map_some] at this
    obtain ⟨e, he, heq⟩ := Option.map_eq_some_iff.mp this.symm
    exact ⟨e, he, heq.symm⟩
  have forth : ∀ ⦃id e⦄, t.find? id = some e →
      ∃ e', t'.find? id = some e' ∧ e'.links = e.links := by
    intro id e hf
    have := hl id
    rw [hf, Option.map_some] at this
    exact Option.map_eq_some_iff.mp this
  simp only [Entry.links, Prod.mk.injEq] at back forth
  refine ⟨?_, ?_, ?_, ?_, ?_, ?_⟩
  · obtain ⟨r, hr, hk, hname, hp⟩ := h.root
    obtain ⟨r', hr', hk', hp', -⟩ := forth hr
    rw [hr, hr', Option.map_some, Option.map_some, Option.some.injEq] at hn
    exact ⟨r', hr', hk'.trans hk, hn.trans hname, hp'.trans hp⟩
  · intro id e' hf hid
    obtain ⟨e, he, -, hp, -⟩ := back hf
    obtain ⟨dir, hdir, hk, hm⟩ := h.listed he hid
    obtain ⟨dir', hdir', hk', -, hc'⟩ := forth hdir
    exact ⟨dir', hp ▸ hdir', hk'.trans hk, hc' ▸ hm⟩
  · intro id e' child hf hc
    obtain ⟨e, he, -, -, hch⟩ := back hf
    obtain ⟨hroot, c, hcf, hcp⟩ := h.points_back he (hch ▸ hc)
    obtain ⟨c', hcf', -, hp', -⟩ := forth hcf
    exact ⟨hroot, c', hcf', hp'.trans hcp⟩
  · intro id e' hf
    obtain ⟨e, he, -, -, hch⟩ := back hf
    exact hch ▸ h.nodup_children he
  · intro id e' hf hk
    obtain ⟨e, he, hk', -, hch⟩ := back hf
    exact hch.trans (h.file_children he (hk'.symm.trans hk))
  · obtain ⟨rank, hrank⟩ := h.ranked
    refine ⟨rank, fun id e' hf hid => ?_⟩
    obtain ⟨e, he, -, hp, -⟩ := back hf
    exact hp ▸ hrank he hid

theorem linked_new (capacity : Nat) : (new capacity).Linked where
  root := ⟨Entry.root, by simp [find?_new], rfl, rfl, rfl⟩
  listed id e hf hid := by simp [find?_new, hid] at hf
  points_back id e child hf hc := by
    rw [find?_new] at hf
    split_ifs at hf with hid
    cases hf
    simp [Entry.root] at hc
  nodup_children id e hf := by
    rw [find?_new] at hf
    split_ifs at hf with hid
    cases hf
    exact List.nodup_nil
  file_children id e hf hk := by
    rw [find?_new] at hf
    split_ifs at hf with hid
    cases hf
    cases hk
  ranked := ⟨fun _ => 0, fun id e hf hid => by simp [find?_new, hid] at hf⟩

/-! ### A new entry -/

/-- A free slot, and an entry without children that fits into it below a directory. -/
structure Attachable (t : Table) (id : EntryId) (e dir : Entry) : Prop where
  index_lt : id.index < t.slots.size
  free : t.find? id = none
  parent : t.find? e.parent = some dir
  directory : dir.kind = .directory
  leaf : e.children = []

section Attach

variable {rest : List Nat} {dir : Entry} {x : EntryId} {ex : Entry}

namespace Attachable

variable (ha : t.Attachable id e dir)

include ha

theorem ne_parent : id ≠ e.parent := by
  intro heq
  have := ha.parent
  rw [← heq, ha.free] at this
  cases this

theorem ne_of_find? (hx : t.find? x = some ex) : x ≠ id := by
  rintro rfl
  rw [ha.free] at hx
  cases hx

theorem find?_attach_self : (t.attach rest id e).find? id = some e := by
  simp [find?_attach ha.index_lt ha.ne_parent]

theorem find?_attach_parent : (t.attach rest id e).find? e.parent = some (dir.addChild id) := by
  simp [find?_attach ha.index_lt ha.ne_parent, ha.ne_parent.symm, ha.parent]

theorem find?_attach_other (h₁ : x ≠ id) (h₂ : x ≠ e.parent) :
    (t.attach rest id e).find? x = t.find? x := by
  rw [find?_attach ha.index_lt ha.ne_parent, if_neg h₁, if_neg h₂]

/-- An old entry is still there, at most with one child more. -/
theorem exists_find?_attach (hx : t.find? x = some ex) :
    ∃ ex', (t.attach rest id e).find? x = some ex' ∧ ex'.kind = ex.kind ∧ ex'.name = ex.name ∧
      ex'.parent = ex.parent ∧ ∀ y ∈ ex.children, y ∈ ex'.children := by
  by_cases hp : x = e.parent
  · subst hp
    obtain rfl := Option.some.inj (hx.symm.trans ha.parent)
    exact ⟨_, ha.find?_attach_parent, rfl, rfl, rfl, fun y hy => by simp [Entry.addChild, hy]⟩
  · exact ⟨ex, (ha.find?_attach_other (ha.ne_of_find? hx) hp).trans hx, rfl, rfl, rfl,
      fun _ hy => hy⟩

/-- An entry of the new table is the new one, its parent, or an old one. -/
theorem find?_attach_cases (hx : (t.attach rest id e).find? x = some ex) :
    (x = id ∧ ex = e) ∨ (x = e.parent ∧ ex = dir.addChild id) ∨
      (x ≠ id ∧ x ≠ e.parent ∧ t.find? x = some ex) := by
  by_cases h₁ : x = id
  · subst h₁
    exact .inl ⟨rfl, Option.some.inj (hx.symm.trans ha.find?_attach_self)⟩
  · by_cases h₂ : x = e.parent
    · subst h₂
      exact .inr (.inl ⟨rfl, Option.some.inj (hx.symm.trans ha.find?_attach_parent)⟩)
    · exact .inr (.inr ⟨h₁, h₂, (ha.find?_attach_other h₁ h₂).symm.trans hx⟩)

/-- A listing in the old table is one in the new table. -/
theorem listed_attach {p : Entry} (hp : t.find? ex.parent = some p) (hk : p.kind = .directory)
    (hm : x ∈ p.children) :
    ∃ p', (t.attach rest id e).find? ex.parent = some p' ∧ p'.kind = .directory ∧
      x ∈ p'.children := by
  obtain ⟨p', hp', hk', -, -, hm'⟩ := ha.exists_find?_attach hp
  exact ⟨p', hp', hk'.trans hk, hm' x hm⟩

/-- A child in the old table is one in the new table. -/
theorem points_back_attach (h : t.Linked) {y : EntryId} (hx : t.find? x = some ex)
    (hy : y ∈ ex.children) :
    y ≠ .root ∧ ∃ c, (t.attach rest id e).find? y = some c ∧ c.parent = x := by
  obtain ⟨hyr, c, hc, hp⟩ := h.points_back hx hy
  obtain ⟨c', hc', -, -, hp', -⟩ := ha.exists_find?_attach hc
  exact ⟨hyr, c', hc', hp'.trans hp⟩

theorem rank_attach (h : t.Linked) : ∃ rank : EntryId → Nat, ∀ ⦃x ex⦄,
    (t.attach rest id e).find? x = some ex → x ≠ .root → rank ex.parent < rank x := by
  obtain ⟨rank, hrank⟩ := h.ranked
  -- The new entry ranks next to its parent, and is nobody's parent.
  refine ⟨fun x => if x = id then rank e.parent + 1 else rank x, fun x ex hx hxr => ?_⟩
  have old : ∀ ⦃ex₀⦄, t.find? x = some ex₀ →
      rank ex₀.parent < rank x ∧ x ≠ id ∧ ex₀.parent ≠ id := by
    intro ex₀ hx₀
    obtain ⟨p, hp, -⟩ := h.listed hx₀ hxr
    exact ⟨hrank hx₀ hxr, ha.ne_of_find? hx₀, ha.ne_of_find? hp⟩
  rcases ha.find?_attach_cases hx with ⟨rfl, rfl⟩ | ⟨rfl, rfl⟩ | ⟨-, -, hx⟩
  · simp [ha.ne_parent.symm]
  · obtain ⟨hlt, h₁, h₂⟩ := old ha.parent
    simpa [Entry.addChild, h₁, h₂] using hlt
  · obtain ⟨hlt, h₁, h₂⟩ := old hx
    simpa [h₁, h₂] using hlt

end Attachable

/-- A new entry without children below a directory keeps the tree. -/
theorem Linked.attach (h : t.Linked) (ha : t.Attachable id e dir) :
    (t.attach rest id e).Linked := by
  obtain ⟨r, hr, hrk, hrn, hrp⟩ := h.root
  refine ⟨?_, ?_, ?_, ?_, ?_, ha.rank_attach h⟩
  · obtain ⟨r', hr', hk', hn', hp', -⟩ := ha.exists_find?_attach hr
    exact ⟨r', hr', hk'.trans hrk, hn'.trans hrn, hp'.trans hrp⟩
  · intro x ex hx hxr
    rcases ha.find?_attach_cases hx with ⟨rfl, rfl⟩ | ⟨rfl, rfl⟩ | ⟨-, -, hx⟩
    · exact ⟨_, ha.find?_attach_parent, ha.directory, by simp [Entry.addChild]⟩
    · obtain ⟨p, hp, hk, hm⟩ := h.listed ha.parent hxr
      exact ha.listed_attach hp hk hm
    · obtain ⟨p, hp, hk, hm⟩ := h.listed hx hxr
      exact ha.listed_attach hp hk hm
  · intro x ex y hx hy
    rcases ha.find?_attach_cases hx with ⟨rfl, rfl⟩ | ⟨rfl, rfl⟩ | ⟨-, -, hx⟩
    · simp [ha.leaf] at hy
    · rcases List.mem_append.mp hy with hy | hy
      · exact ha.points_back_attach h ha.parent hy
      · obtain rfl := List.mem_singleton.mp hy
        exact ⟨(ha.ne_of_find? hr).symm, e, ha.find?_attach_self, rfl⟩
    · exact ha.points_back_attach h hx hy
  · intro x ex hx
    rcases ha.find?_attach_cases hx with ⟨rfl, rfl⟩ | ⟨rfl, rfl⟩ | ⟨-, -, hx⟩
    · simp [ha.leaf]
    · apply List.Nodup.append (h.nodup_children ha.parent) (List.nodup_singleton _)
      rw [List.disjoint_singleton]
      intro hm
      obtain ⟨-, c, hc, -⟩ := h.points_back ha.parent hm
      exact ha.ne_of_find? hc rfl
    · exact h.nodup_children hx
  · intro x ex hx hk
    rcases ha.find?_attach_cases hx with ⟨rfl, rfl⟩ | ⟨rfl, rfl⟩ | ⟨-, -, hx⟩
    · exact ha.leaf
    · cases ha.directory.symm.trans hk
    · exact h.file_children hx hk

end Attach

/-! ### An entry less -/

/-- An entry other than the root, without children. -/
structure Detachable (t : Table) (id : EntryId) (e : Entry) : Prop where
  found : t.find? id = some e
  ne_root : id ≠ .root
  leaf : e.children = []

section Detach

variable {x : EntryId} {ex : Entry}

namespace Detachable

variable (hd : t.Detachable id e) (h : t.Linked)

include hd h

/-- An entry without children is nobody's parent. -/
theorem parent_ne (hx : t.find? x = some ex) (hxr : x ≠ .root) : ex.parent ≠ id := by
  intro heq
  obtain ⟨p, hp, -, hm⟩ := h.listed hx hxr
  rw [heq] at hp
  obtain rfl := Option.some.inj (hp.symm.trans hd.found)
  simp [hd.leaf] at hm

/-- Every other entry is still there, and its list has lost the entry taken out. -/
theorem find?_detach_eq (x : EntryId) :
    (t.detach id e.parent).find? x = if x = id then none else (t.find? x).map (·.dropChild id) := by
  rw [find?_detach]
  split_ifs with h₁ h₂
  · rfl
  · rfl
  cases hx : t.find? x with
  | none => rfl
  | some ex =>
    have hself : ex.children.filter (· != id) = ex.children := by
      apply List.filter_eq_self.mpr
      intro y hy
      apply bne_iff_ne.mpr
      rintro rfl
      obtain ⟨-, c, hc, hp⟩ := h.points_back hx hy
      obtain rfl := Option.some.inj (hc.symm.trans hd.found)
      exact h₂ hp.symm
    rw [Option.map_some, Entry.dropChild, hself]

theorem exists_of_find?_detach (hx : (t.detach id e.parent).find? x = some ex) :
    x ≠ id ∧ ∃ ex₀, t.find? x = some ex₀ ∧ ex = ex₀.dropChild id := by
  rw [hd.find?_detach_eq h] at hx
  split_ifs at hx with hne
  obtain ⟨ex₀, hx₀, rfl⟩ := Option.map_eq_some_iff.mp hx
  exact ⟨hne, ex₀, hx₀, rfl⟩

theorem find?_detach_of_ne (hx : t.find? x = some ex) (hne : x ≠ id) :
    (t.detach id e.parent).find? x = some (ex.dropChild id) := by
  rw [hd.find?_detach_eq h, if_neg hne, hx, Option.map_some]

end Detachable

/-- Taking out an entry without children keeps the tree. -/
theorem Linked.detach (h : t.Linked) (hd : t.Detachable id e) :
    (t.detach id e.parent).Linked := by
  refine ⟨?_, ?_, ?_, ?_, ?_, ?_⟩
  · obtain ⟨r, hr, hrk, hrn, hrp⟩ := h.root
    exact ⟨_, hd.find?_detach_of_ne h hr (Ne.symm hd.ne_root), hrk, hrn, hrp⟩
  · intro x ex hx hxr
    obtain ⟨hne, ex₀, hx₀, rfl⟩ := hd.exists_of_find?_detach h hx
    obtain ⟨p, hp, hk, hm⟩ := h.listed hx₀ hxr
    have hpar := hd.parent_ne h hx₀ hxr
    exact ⟨_, hd.find?_detach_of_ne h hp hpar, hk, by simp [Entry.dropChild, hm, hne]⟩
  · intro x ex y hx hy
    obtain ⟨-, ex₀, hx₀, rfl⟩ := hd.exists_of_find?_detach h hx
    obtain ⟨hy, hne⟩ := List.mem_filter.mp hy
    obtain ⟨hyr, c, hc, hp⟩ := h.points_back hx₀ hy
    exact ⟨hyr, _, hd.find?_detach_of_ne h hc (bne_iff_ne.mp hne), hp⟩
  · intro x ex hx
    obtain ⟨-, ex₀, hx₀, rfl⟩ := hd.exists_of_find?_detach h hx
    exact (h.nodup_children hx₀).filter _
  · intro x ex hx hk
    obtain ⟨-, ex₀, hx₀, rfl⟩ := hd.exists_of_find?_detach h hx
    rw [Entry.dropChild, h.file_children hx₀ hk, List.filter_nil]
  · obtain ⟨rank, hrank⟩ := h.ranked
    refine ⟨rank, fun x ex hx hxr => ?_⟩
    obtain ⟨-, ex₀, hx₀, rfl⟩ := hd.exists_of_find?_detach h hx
    have hlt := hrank hx₀ hxr
    exact hlt

end Detach

end Table

end FileTree
