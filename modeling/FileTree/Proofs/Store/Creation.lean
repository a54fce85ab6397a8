import FileTree.Proofs.Store.Removal

/-!
# The order of creation

An entry is made by one operation of a run, and stands in its slot from then on; an identifier that
is used again belongs to an entry that was made later. A directory lists its entries in the order in
which they were made, whatever their identifiers are: a new entry comes last, and entries that go
leave the others where they are.

## Main definitions

* `Store.MadeAt`: the operation of a run that made an entry
* `Store.Older`: an entry was made before another
* `Table.childrenAt`: the children of an entry

## Main results

* `Store.Sound.childrenAt_perform`: an operation takes children out, or adds a new one at the end
* `Store.MadeAt.unique`: an entry is made once
* `Store.Sound.exists_madeAt`, `Store.Sound.pairwise_older`: the children that a run leaves were
  made by it, and are in the order in which they were made
-/

namespace FileTree

/-- The children of an entry; there are none where there is no entry. -/
def Table.childrenAt (t : Table) (id : EntryId) : List EntryId :=
  ((t.find? id).map Entry.children).getD []

namespace Table

variable {t : Table} {id child : EntryId} {e : Entry}

theorem childrenAt_of_find? (h : t.find? id = some e) : t.childrenAt id = e.children := by
  rw [childrenAt, h, Option.map_some, Option.getD_some]

/-- A child is an entry. -/
theorem Linked.isUsed_of_mem_childrenAt (h : t.Linked) (hm : child ∈ t.childrenAt id) :
    t.isUsed child = true := by
  unfold childrenAt at hm
  cases hf : t.find? id with
  | none => simp [hf] at hm
  | some e =>
    rw [hf, Option.map_some, Option.getD_some] at hm
    obtain ⟨-, c, hc, -⟩ := h.points_back hf hm
    exact isUsed_of_find? hc

/-- Changing an entry other than in its children leaves what it lists. -/
theorem childrenAt_modify (f : Entry → Entry) (hf : ∀ e, (f e).children = e.children)
    (x : EntryId) : (t.modify id f).childrenAt x = t.childrenAt x := by
  rw [childrenAt, childrenAt, find?_modify]
  split_ifs
  · simp [Option.map_map, Function.comp_def, hf]
  · rfl

end Table

namespace Store

variable {s : Store} {id dir x y : EntryId} {ops : List Operation} {m n : Nat}

/-! ## What an operation does to a list of children -/

theorem Created.childrenAt_cases {kind : EntryKind} {path : String}
    {outcome : Except StoreError EntryId × Store} (h : s.Created kind path outcome) (hs : s.Sound)
    (dir : EntryId) :
    outcome.2.table.childrenAt dir = s.table.childrenAt dir ∨
      ∃ id, s.table.isUsed id = false ∧ outcome.1 = .ok id ∧
        outcome.2.table.childrenAt dir = s.table.childrenAt dir ++ [id] := by
  cases h with
  | refused hn =>
    obtain ⟨log, rfl, -⟩ := hn.exists_log
    exact .inl rfl
  | found _ _ => exact .inl rfl
  | @made name p id rest r _ _ _ hp _ hfree =>
    have ha : s.table.Attachable id { name, kind, parent := s.cursor } p :=
      hs.attachable hp hfree
    change (s.table.attach rest id _).childrenAt dir = _ ∨ ∃ id', _ ∧ _ ∧
      (s.table.attach rest id _).childrenAt dir = _
    by_cases hid : dir = id
    · subst hid
      rw [Table.childrenAt_of_find? ha.find?_attach_self, Table.childrenAt, ha.free]
      exact .inl rfl
    by_cases hcur : dir = s.cursor
    · subst hcur
      rw [Table.childrenAt_of_find? ha.find?_attach_parent, Table.childrenAt_of_find? hp]
      exact .inr ⟨id, Table.isUsed_eq_false_iff.mpr ha.free, rfl, rfl⟩
    · rw [Table.childrenAt, Table.childrenAt, ha.find?_attach_other hid hcur]
      exact .inl rfl

theorem Written.childrenAt_eq {data : List UInt8} {outcome : Except StoreError Unit × Store}
    (h : s.Written id data outcome) (dir : EntryId) :
    outcome.2.table.childrenAt dir = s.table.childrenAt dir := by
  cases h with
  | refused _ => rfl
  | exhausted _ hn =>
    obtain ⟨log, rfl, -⟩ := hn.exists_log
    rfl
  | filled _ _ _ _ =>
    refine Table.childrenAt_modify _ ?_ dir
    exact fun _ => rfl

theorem Renamed.childrenAt_eq {given : String} {outcome : Except StoreError Unit × Store}
    (h : s.Renamed id given outcome) (dir : EntryId) :
    outcome.2.table.childrenAt dir = s.table.childrenAt dir := by
  cases h with
  | refused => rfl
  | kept _ _ _ => rfl
  | renamed _ _ _ _ _ _ =>
    refine Table.childrenAt_modify _ ?_ dir
    exact fun _ => rfl

theorem Moved.childrenAt_eq {outcome : Except StoreError Unit × Store} (h : s.Moved id outcome)
    (dir : EntryId) : outcome.2.table.childrenAt dir = s.table.childrenAt dir := by
  cases h with
  | refused => rfl
  | moved _ _ _ => rfl

theorem Deleted.childrenAt_sublist {outcome : Except StoreError Nat × Store}
    (h : s.Deleted id outcome) (hs : s.Sound) (dir : EntryId) :
    (outcome.2.table.childrenAt dir).Sublist (s.table.childrenAt dir) := by
  cases h with
  | refused _ => exact .refl _
  | @deleted e order s' log _ _ _ _ _ hp =>
    change (s'.table.childrenAt dir).Sublist _
    rw [Table.childrenAt, Table.childrenAt, hp.find? hs]
    split_ifs
    · exact List.nil_sublist _
    · cases s.table.find? dir with
      | none => exact .refl _
      | some e => exact List.filter_sublist

/-- An operation takes children out of a directory, or answers a new entry and adds it to them, at
the end. -/
theorem Sound.childrenAt_perform (hs : s.Sound) (op : Operation) (dir : EntryId) :
    ((s.perform op).2.table.childrenAt dir).Sublist (s.table.childrenAt dir) ∨
      ∃ id, s.table.isUsed id = false ∧ (s.perform op).1 = .ok (.entry id) ∧
        (s.perform op).2.table.childrenAt dir = s.table.childrenAt dir ++ [id] := by
  have created : ∀ {kind path}, ((s.create kind path).2.table.childrenAt dir).Sublist
      (s.table.childrenAt dir) ∨ ∃ id, s.table.isUsed id = false ∧
        (s.create kind path).1.map Answer.entry = .ok (.entry id) ∧
        (s.create kind path).2.table.childrenAt dir = s.table.childrenAt dir ++ [id] := by
    intro kind path
    rcases (s.created_create kind path).childrenAt_cases hs dir with hsame | ⟨id, hfree, hok, hlist⟩
    · exact .inl (hsame ▸ .refl _)
    · exact .inr ⟨id, hfree, by rw [hok]; rfl, hlist⟩
  cases op with
  | createFile path => exact created
  | createDirectory path => exact created
  | write id data => exact .inl ((s.written_write id data).childrenAt_eq dir ▸ .refl _)
  | delete id => exact .inl ((hs.deleted_delete id).childrenAt_sublist hs dir)
  | rename id name => exact .inl ((s.renamed_rename id name).childrenAt_eq dir ▸ .refl _)
  | changeDirectory id => exact .inl ((s.moved_changeDirectory id).childrenAt_eq dir ▸ .refl _)

/-! ## When an entry was made -/

/-- The entry that stands in a slot after a run was made by the operation with the given number:
this operation answered it, the slot was empty before, and has not been empty since. -/
structure MadeAt (s : Store) (ops : List Operation) (n : Nat) (id : EntryId) : Prop where
  answered : ∃ op, ops[n]? = some op ∧ ((s.run (ops.take n)).perform op).1 = .ok (.entry id)
  free : (s.run (ops.take n)).table.isUsed id = false
  used : ∀ m, n < m → m ≤ ops.length → (s.run (ops.take m)).table.isUsed id = true

/-- The one entry was made before the other. -/
def Older (s : Store) (ops : List Operation) (x y : EntryId) : Prop :=
  ∃ m n, m < n ∧ s.MadeAt ops m x ∧ s.MadeAt ops n y

theorem MadeAt.lt_length (h : s.MadeAt ops n id) : n < ops.length := by
  obtain ⟨op, hop, -⟩ := h.answered
  exact (List.getElem?_eq_some_iff.mp hop).1

/-- An entry is made once. -/
theorem MadeAt.unique (hm : s.MadeAt ops m id) (hn : s.MadeAt ops n id) : m = n := by
  -- after the earlier of two such operations the slot would not be empty before the later
  rcases Nat.lt_trichotomy m n with hlt | heq | hlt
  · have hused := hm.used n hlt (Nat.le_of_lt hn.lt_length)
    rw [hn.free] at hused
    cases hused
  · exact heq
  · have hused := hn.used m hlt (Nat.le_of_lt hm.lt_length)
    rw [hm.free] at hused
    cases hused

/-- An entry that one more operation leaves there was made when it was made before. -/
theorem MadeAt.concat (h : s.MadeAt ops n id) {op : Operation}
    (hused : (s.run (ops ++ [op])).table.isUsed id = true) : s.MadeAt (ops ++ [op]) n id := by
  have hlt := h.lt_length
  have htake : (ops ++ [op]).take n = ops.take n := List.take_append_of_le_length (Nat.le_of_lt hlt)
  refine ⟨?_, by rw [htake]; exact h.free, fun m hnm hm => ?_⟩
  · rw [htake, List.getElem?_append_left hlt]
    exact h.answered
  · rw [List.length_append, List.length_singleton] at hm
    by_cases hlast : m = ops.length + 1
    · rw [List.take_of_length_le (by simp [hlast])]
      exact hused
    · rw [List.take_append_of_le_length (by omega)]
      exact h.used m hnm (by omega)

/-- A new entry is made by the last operation. -/
theorem madeAt_length {op : Operation} (hfree : (s.run ops).table.isUsed id = false)
    (hok : ((s.run ops).perform op).1 = .ok (.entry id))
    (hused : (s.run (ops ++ [op])).table.isUsed id = true) :
    s.MadeAt (ops ++ [op]) ops.length id := by
  refine ⟨⟨op, by simp, by rwa [List.take_left]⟩, by rwa [List.take_left], fun m hlt hm => ?_⟩
  have hlen : (ops ++ [op]).length ≤ m := by rwa [List.length_append, List.length_singleton]
  rwa [List.take_of_length_le hlen]

/-! ## The children that a run leaves -/

variable (hs : s.Sound) (hnew : ∀ dir, s.table.childrenAt dir = [])

include hs hnew

/-- The children that a run leaves were made by it, if there were none before. -/
theorem Sound.exists_madeAt (ops : List Operation) {dir x : EntryId}
    (hx : x ∈ (s.run ops).table.childrenAt dir) : ∃ n, s.MadeAt ops n x := by
  induction ops using List.reverseRecOn with
  | nil => simp [hnew] at hx
  | append_singleton ops op ih =>
    have hsound := (reaches_run s ops).sound hs
    have hused := ((reaches_run s (ops ++ [op])).sound hs).linked.isUsed_of_mem_childrenAt hx
    rw [run_append, run_cons, run_nil] at hx
    rcases hsound.childrenAt_perform op dir with hsub | ⟨id, hfree, hok, hlist⟩
    · obtain ⟨n, hn⟩ := ih (hsub.subset hx)
      exact ⟨n, hn.concat hused⟩
    · rw [hlist] at hx
      rcases List.mem_append.mp hx with hx | hx
      · obtain ⟨n, hn⟩ := ih hx
        exact ⟨n, hn.concat hused⟩
      · obtain rfl := List.mem_singleton.mp hx
        exact ⟨_, madeAt_length hfree hok hused⟩

/-- **The children that a run leaves are in the order in which they were made.** -/
theorem Sound.pairwise_older (ops : List Operation) (dir : EntryId) :
    ((s.run ops).table.childrenAt dir).Pairwise (s.Older ops) := by
  induction ops using List.reverseRecOn with
  | nil => simp [hnew]
  | append_singleton ops op ih =>
    have hsound := (reaches_run s ops).sound hs
    have hused : ∀ x ∈ (s.run (ops ++ [op])).table.childrenAt dir,
        (s.run (ops ++ [op])).table.isUsed x = true := fun _ hx =>
      ((reaches_run s (ops ++ [op])).sound hs).linked.isUsed_of_mem_childrenAt hx
    have older : ∀ {x y}, x ∈ (s.run (ops ++ [op])).table.childrenAt dir →
        y ∈ (s.run (ops ++ [op])).table.childrenAt dir → s.Older ops x y →
        s.Older (ops ++ [op]) x y := by
      rintro x y hx hy ⟨m, n, hlt, hm, hn⟩
      exact ⟨m, n, hlt, hm.concat (hused x hx), hn.concat (hused y hy)⟩
    have hrun : s.run (ops ++ [op]) = ((s.run ops).perform op).2 := by
      rw [run_append, run_cons, run_nil]
    rw [hrun] at hused older ⊢
    rcases hsound.childrenAt_perform op dir with hsub | ⟨id, hfree, hok, hlist⟩
    · exact (ih.sublist hsub).imp_of_mem older
    · rw [hlist, List.pairwise_append]
      rw [hlist] at hused older
      refine ⟨ih.imp_of_mem fun hx hy => older (by simp [hx]) (by simp [hy]),
        List.pairwise_singleton _ _, fun x hx y hy => ?_⟩
      obtain rfl := List.mem_singleton.mp hy
      obtain ⟨n, hn⟩ := Sound.exists_madeAt hs hnew ops hx
      exact ⟨n, _, hn.lt_length, hn.concat (hrun ▸ hused x (by simp [hx])),
        madeAt_length hfree hok (hrun ▸ hused y (by simp))⟩

end Store

end FileTree
