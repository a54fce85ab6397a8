import FileTree.Proofs.Table.Names
import FileTree.Traversal
import Mathlib.Data.List.Induction

/-!
# The way down

The way from an entry down to another goes from directory to child, and has the names of the
children that it comes to. In a tree there is exactly one way from the root to every entry, and
it is what following names finds and what climbing by the parent links reads off.

## Main definitions

* `Table.Way`: the names on the way down from one entry to another

## Main results

* `Table.Linked.exists_way`, `Table.Linked.way_unique`: there is one way down to an entry
* `Table.descend?_eq_some_iff`: following names is going down the way that has them
* `Table.Way.target_unique`: names lead to one entry only
* `Table.Linked.namesUp_eq`: the names met when climbing are the last of the way from the root
-/

namespace FileTree.Table

/-- The names on the way down from one entry to another, which is the entry itself or below it. -/
inductive Way (t : Table) : EntryId → List String → EntryId → Prop
  | here {id : EntryId} {e : Entry} : t.find? id = some e → Way t id [] id
  | down {id child target : EntryId} {dir c : Entry} {names : List String} :
      t.find? id = some dir → child ∈ dir.children → t.find? child = some c →
      Way t child names target → Way t id (c.name :: names) target

variable {t : Table} {id child start target : EntryId} {e dir c : Entry} {names other : List String}

namespace Way

theorem exists_first (h : t.Way start names target) : ∃ e, t.find? start = some e := by
  cases h with
  | here h => exact ⟨_, h⟩
  | down h _ _ _ => exact ⟨_, h⟩

theorem exists_target (h : t.Way start names target) : ∃ e, t.find? target = some e := by
  induction h with
  | here h => exact ⟨_, h⟩
  | down _ _ _ _ ih => exact ih

/-- A way goes on to every child of the entry at its end. -/
theorem concat (h : t.Way start names target) (hf : t.find? target = some dir)
    (hm : child ∈ dir.children) (hc : t.find? child = some c) :
    t.Way start (names ++ [c.name]) child := by
  induction h with
  | here h => exact .down hf hm hc (.here hc)
  | down hf' hm' hc' _ ih => exact .down hf' hm' hc' (ih hf)

/-- A way that goes anywhere comes to its end from a directory. -/
theorem eq_nil_or_concat (h : t.Way start names target) :
    (names = [] ∧ start = target) ∨ ∃ front p dir c, names = front ++ [c.name] ∧
      t.Way start front p ∧ t.find? p = some dir ∧ target ∈ dir.children ∧
      t.find? target = some c := by
  induction h with
  | here _ => exact .inl ⟨rfl, rfl⟩
  | @down id child target dir c names hf hm hc _ ih =>
    rcases ih with ⟨rfl, rfl⟩ | ⟨front, p, dir', c', rfl, hw, hp, hm', hc'⟩
    · exact .inr ⟨[], id, dir, c, rfl, .here hf, hf, hm, hc⟩
    · exact .inr ⟨c.name :: front, p, dir', c', rfl, .down hf hm hc hw, hp, hm', hc'⟩

end Way

namespace Linked

variable (h : t.Linked)

include h

theorem below_of_way (hw : t.Way start names target) : t.Below start target := by
  induction hw with
  | here hf => exact .self hf
  | down hf hm _ _ ih => exact (h.below_child hf hm).trans ih

/-- There is a way down to whatever is below. -/
theorem exists_way (hb : t.Below start target) : ∃ names, t.Way start names target := by
  induction hb with
  | self hf => exact ⟨[], .here hf⟩
  | @step id e hf hb ih =>
    by_cases hid : id = .root
    · obtain rfl := h.eq_root_of_below (.step hf hb) hid
      exact ⟨[], hid ▸ .here hf⟩
    · obtain ⟨names, hw⟩ := ih
      obtain ⟨dir, hdir, -, hm⟩ := h.listed hf hid
      exact ⟨_, hw.concat hdir hm hf⟩

/-- No way leads back to where it starts. -/
theorem eq_nil_of_way (hw : t.Way id names id) : names = [] := by
  rcases hw.eq_nil_or_concat with ⟨hnil, -⟩ | ⟨front, p, dir, c, -, hw, hp, hm, -⟩
  · exact hnil
  · obtain rfl := h.below_antisymm (h.below_of_way hw) (h.below_child hp hm)
    exact absurd rfl (h.ne_of_mem_children hp hm)

/-- There is at most one way down to an entry. -/
theorem way_unique (hw : t.Way start names target) (hw' : t.Way start other target) :
    names = other := by
  -- The induction is on the names from the last on, which is that of the entry at the end.
  induction names using List.reverseRecOn generalizing target other with
  | nil =>
    cases hw with
    | here _ => exact (h.eq_nil_of_way hw').symm
  | append_singleton front name ih =>
    rcases hw.eq_nil_or_concat with ⟨hnil, -⟩ | ⟨front₁, p, dir, c, heq, hfront, hp, hm, hc⟩
    · exact absurd hnil (by simp)
    obtain ⟨rfl, hname⟩ := List.append_inj' heq rfl
    obtain rfl := List.singleton_inj.mp hname
    rcases hw'.eq_nil_or_concat with ⟨-, rfl⟩ | ⟨front', p', dir', c', rfl, hfront', hp', hm', hc'⟩
    · exact absurd (h.eq_nil_of_way hw) (by simp)
    obtain rfl := Option.some.inj (hc.symm.trans hc')
    obtain ⟨-, c₁, hc₁, hp₁⟩ := h.points_back hp hm
    obtain ⟨-, c₂, hc₂, hp₂⟩ := h.points_back hp' hm'
    obtain rfl := Option.some.inj (hc₁.symm.trans hc₂)
    obtain rfl := hp₁.symm.trans hp₂
    rw [ih hfront hfront']

theorem way_iff (hw : t.Way start names target) :
    t.Way start other target ↔ other = names := by
  constructor
  · exact fun hw' => h.way_unique hw' hw
  · rintro rfl
    exact hw

/-- The names met when climbing are the last of those on the way from the root. -/
theorem namesUp_eq (hw : t.Way .root names id) (depth : Nat) :
    t.namesUp depth id = .ok (names.reverse.take depth) := by
  induction depth generalizing names id with
  | zero => simp [namesUp]
  | succ depth ih =>
    rw [namesUp]
    rcases hw.eq_nil_or_concat with ⟨rfl, rfl⟩ | ⟨front, p, dir, c, rfl, hfront, hp, hm, hc⟩
    · rfl
    · obtain ⟨hid, c', hc', hparent⟩ := h.points_back hp hm
      obtain rfl := Option.some.inj (hc.symm.trans hc')
      have hroot : ¬ id.isRoot = true := fun heq => hid (id.isRoot_iff.mp heq)
      simp only [if_neg hroot, get_of_find? hc, hparent, ih hfront, List.reverse_append,
        List.reverse_singleton, List.singleton_append, List.take_succ_cons]

end Linked

/-- Following names is going down the way that has them. -/
theorem descend?_eq_some_iff (h : t.DistinctNames) (hl : t.Linked)
    (hf : t.find? start = some e) :
    t.descend? start names = some target ↔ t.Way start names target := by
  induction names generalizing start e with
  | nil =>
    rw [descend?_nil, Option.some.injEq]
    constructor
    · rintro rfl
      exact .here hf
    · rintro (_ | _)
      rfl
  | cons name names ih =>
    rw [descend?_cons, Option.bind_eq_some_iff]
    constructor
    · rintro ⟨child, hchild, hdown⟩
      obtain ⟨dir, c, hdir, hm, hc, rfl⟩ := (findChild?_eq_some_iff h hl).mp hchild
      exact .down hdir hm hc ((ih hc).mp hdown)
    · intro hw
      cases hw with
      | down hdir hm hc hw =>
        exact ⟨_, (findChild?_eq_some_iff h hl).mpr ⟨_, _, hdir, hm, hc, rfl⟩, (ih hc).mpr hw⟩

/-- The same names lead from the same entry to one entry only. -/
theorem Way.target_unique (hw : t.Way start names target) (h : t.DistinctNames) (hl : t.Linked)
    {x : EntryId} (hw' : t.Way start names x) : x = target := by
  obtain ⟨e, hf⟩ := hw.exists_first
  have hx := (descend?_eq_some_iff h hl hf).mpr hw'
  have htarget := (descend?_eq_some_iff h hl hf).mpr hw
  exact Option.some.inj (hx.symm.trans htarget)

end FileTree.Table
