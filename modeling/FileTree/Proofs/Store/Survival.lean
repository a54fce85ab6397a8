import FileTree.Proofs.Store.Removal

/-!
# What an operation leaves of an entry

An operation keeps an entry in its slot, with its kind, or is a deletion that takes it out and
advances the generation of the slot. Only a deletion that succeeds advances a generation, and by
one.

## Main definitions

* `Table.Keeps`: a slot is not vacated, and an entry in it keeps its kind
* `Store.Removes`: an operation takes an entry out
* `Store.deletes`: an operation is a deletion that succeeds

## Main results

* `Store.Sound.keeps_perform`: an operation that does not take an entry out keeps it
* `Store.Sound.generationAt_of_removes`: one that takes it out is a deletion, and advances the
  generation of the slot
-/

namespace FileTree

/-- The slot is not vacated, and an entry in it keeps its kind. -/
structure Table.Keeps (t t' : Table) (id : EntryId) : Prop where
  generationAt_eq : t'.generationAt id = t.generationAt id
  exists_entry : ∀ ⦃e⦄, t.find? id = some e → ∃ e', t'.find? id = some e' ∧ e'.kind = e.kind

namespace Table

variable {t t' t'' : Table} {id : EntryId}

theorem Keeps.refl (t : Table) (id : EntryId) : t.Keeps t id :=
  ⟨rfl, fun e he => ⟨e, he, rfl⟩⟩

theorem Keeps.trans (h : t.Keeps t' id) (h' : t'.Keeps t'' id) : t.Keeps t'' id where
  generationAt_eq := h'.generationAt_eq.trans h.generationAt_eq
  exists_entry e he := by
    obtain ⟨e', he', hk'⟩ := h.exists_entry he
    obtain ⟨e'', he'', hk''⟩ := h'.exists_entry he'
    exact ⟨e'', he'', hk''.trans hk'⟩

theorem keeps_modify (t : Table) (x : EntryId) {f : Entry → Entry} (hf : ∀ e, (f e).kind = e.kind)
    (id : EntryId) : t.Keeps (t.modify x f) id where
  generationAt_eq := generationAt_modify t x id f
  exists_entry e he := by
    rw [find?_modify, he]
    split_ifs
    · exact ⟨f e, rfl, hf e⟩
    · exact ⟨e, rfl, rfl⟩

theorem Attachable.keeps {x : EntryId} {e dir : Entry} {rest : List Nat}
    (h : t.Attachable x e dir) (id : EntryId) : t.Keeps (t.attach rest x e) id where
  generationAt_eq := generationAt_attach t rest x id e
  exists_entry ex hex := by
    obtain ⟨ex', hex', hk, -⟩ := h.exists_find?_attach hex
    exact ⟨ex', hex', hk⟩

end Table

namespace Store

variable {s s' : Store} {id : EntryId} {op : Operation}

/-- The operation takes the entry out. -/
def Removes (s : Store) (op : Operation) (id : EntryId) : Prop :=
  s.table.isUsed id = true ∧ (s.perform op).2.table.isUsed id = false

/-- The operation is a deletion that succeeds. -/
def deletes (s : Store) : Operation → Bool
  | .delete id => (s.delete id).1.toBool
  | _ => false

theorem Noted.table_eq (h : s.Noted s') : s'.table = s.table := by
  obtain ⟨log, rfl, -⟩ := h.exists_log
  rfl

theorem Created.keeps {kind : EntryKind} {path : String}
    {outcome : Except StoreError EntryId × Store} (ho : s.Created kind path outcome)
    (hs : s.Sound) (id : EntryId) : s.table.Keeps outcome.2.table id := by
  cases ho with
  | refused hn =>
    rw [hn.table_eq]
    exact .refl _ id
  | found _ _ => exact .refl _ id
  | made _ _ _ hdir _ hfree => exact (hs.attachable hdir hfree).keeps id

theorem Written.keeps {x : EntryId} {data : List UInt8}
    {outcome : Except StoreError Unit × Store} (ho : s.Written x data outcome) (id : EntryId) :
    s.table.Keeps outcome.2.table id := by
  cases ho with
  | refused _ => exact .refl _ id
  | exhausted _ hn =>
    rw [hn.table_eq]
    exact .refl _ id
  | filled _ _ _ _ =>
    refine Table.keeps_modify _ _ ?_ id
    exact fun _ => rfl

theorem Renamed.keeps {x : EntryId} {given : String}
    {outcome : Except StoreError Unit × Store} (ho : s.Renamed x given outcome) (id : EntryId) :
    s.table.Keeps outcome.2.table id := by
  cases ho with
  | refused => exact .refl _ id
  | kept _ _ _ => exact .refl _ id
  | renamed _ _ _ _ _ _ =>
    refine Table.keeps_modify _ _ ?_ id
    exact fun _ => rfl

theorem Moved.keeps {x : EntryId} {outcome : Except StoreError Unit × Store}
    (ho : s.Moved x outcome) (id : EntryId) : s.table.Keeps outcome.2.table id := by
  cases ho with
  | refused => exact .refl _ id
  | moved _ _ _ => exact .refl _ id

/-- A deletion keeps an entry, or succeeds and takes it out. -/
theorem Sound.keeps_or_removed_delete (hs : s.Sound) (x id : EntryId) :
    s.table.Keeps (s.delete x).2.table id ∨
      s.deletes (.delete x) = true ∧ s.Removes (.delete x) id ∧
        (s.delete x).2.table.generationAt id = s.table.generationAt id + 1 := by
  have ho := hs.deleted_delete x
  unfold Removes
  simp only [deletes, Store.perform]
  generalize s.delete x = outcome at ho ⊢
  cases ho with
  | refused _ => exact .inl (.refl _ id)
  | @deleted e order s' log _ _ hne hpre hnd hp =>
    have hfind := hp.find? hs id
    have hgen := hp.generationAt (List.nodup_reverse.mpr hnd) id
    by_cases hv : id ∈ order.reverse
    · rw [if_pos hv] at hfind hgen
      refine .inr ⟨rfl, ⟨(hpre.removable_reverse hs.linked hne).used id hv, ?_⟩, hgen⟩
      show (s'.table.find? id).isSome = false
      rw [hfind, Option.isSome_none]
    · rw [if_neg hv] at hfind hgen
      refine .inl ⟨hgen, fun ex hex => ?_⟩
      rw [hex, Option.map_some] at hfind
      exact ⟨_, hfind, rfl⟩

/-- An operation keeps an entry, or is a deletion that succeeds and takes it out. -/
theorem Sound.keeps_or_removed (hs : s.Sound) (op : Operation) (id : EntryId) :
    s.table.Keeps (s.perform op).2.table id ∨
      s.deletes op = true ∧ s.Removes op id ∧
        (s.perform op).2.table.generationAt id = s.table.generationAt id + 1 := by
  cases op with
  | createFile path => exact .inl ((s.created_create .file path).keeps hs id)
  | createDirectory path => exact .inl ((s.created_create .directory path).keeps hs id)
  | write x data => exact .inl ((s.written_write x data).keeps id)
  | delete x => exact hs.keeps_or_removed_delete x id
  | rename x name => exact .inl ((s.renamed_rename x name).keeps id)
  | changeDirectory x => exact .inl ((s.moved_changeDirectory x).keeps id)

/-- What is kept is not taken out. -/
theorem not_removes_of_keeps (h : s.table.Keeps (s.perform op).2.table id) : ¬ s.Removes op id := by
  rintro ⟨hused, hnot⟩
  obtain ⟨e, he⟩ := Table.isUsed_iff.mp hused
  obtain ⟨e', he', -⟩ := h.exists_entry he
  rw [Table.isUsed_of_find? he'] at hnot
  cases hnot

/-- An operation that does not take an entry out keeps it. -/
theorem Sound.keeps_perform (hs : s.Sound) (h : ¬ s.Removes op id) :
    s.table.Keeps (s.perform op).2.table id :=
  (hs.keeps_or_removed op id).resolve_right fun hr => h hr.2.1

/-- An operation that takes an entry out is a deletion that succeeds, and advances the generation
of the slot. -/
theorem Sound.generationAt_of_removes (hs : s.Sound) (h : s.Removes op id) :
    s.deletes op = true ∧
      (s.perform op).2.table.generationAt id = s.table.generationAt id + 1 := by
  rcases hs.keeps_or_removed op id with hk | ⟨hd, -, hg⟩
  · exact absurd h (not_removes_of_keeps hk)
  · exact ⟨hd, hg⟩

end Store

end FileTree
