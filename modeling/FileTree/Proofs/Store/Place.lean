import FileTree.Proofs.Store.FullPath
import FileTree.Proofs.Store.Survival

/-!
# The place of the current directory

The full path of the current directory is read off the names and parents of the entries at and
above the cursor. So a change of the store does not show in it as long as the cursor stays and
these entries keep both. Adding an entry and filling a file do so; renaming does unless what is
renamed is the current directory or above it.

## Main definitions

* `Store.KeepsPlace`: the cursor stays, and the entries at and above it keep name and parent
* `Store.RenamesPlace`: an entry at or above the cursor gets another name

## Main results

* `Store.KeepsPlace.fullPath_cursor`: the full path of the current directory is the same
* `Store.Created.keepsPlace`, `Store.Written.keepsPlace`, `Store.Renamed.keepsPlace`: what the
  operations come to keeps the place
* `Store.Sound.exists_fullPath_cursor`: the current directory has a full path
-/

namespace FileTree

/-- The names met when climbing depend on the names and parents of what is above only. -/
theorem Table.Linked.namesUp_congr {t t' : Table} (hl : t.Linked) {id : EntryId} {e : Entry}
    (hf : t.find? id = some e)
    (h : ∀ ⦃x ex⦄, t.Below x id → t.find? x = some ex →
      ∃ ex', t'.find? x = some ex' ∧ ex'.name = ex.name ∧ ex'.parent = ex.parent)
    (depth : Nat) : t'.namesUp depth id = t.namesUp depth id := by
  induction depth generalizing id e with
  | zero => rfl
  | succ depth ih =>
    rw [namesUp, namesUp]
    split_ifs with hroot
    · rfl
    have hid : id ≠ .root := fun heq => hroot (id.isRoot_iff.mpr heq)
    obtain ⟨dir, hdir, -⟩ := hl.listed hf hid
    obtain ⟨e', hf', hname, hparent⟩ := h (.self hf) hf
    have hup : t'.namesUp depth e.parent = t.namesUp depth e.parent :=
      ih hdir fun x ex hx => h (.step hf hx)
    simp only [get_of_find? hf, get_of_find? hf', hname, hparent, hup]

namespace Store

variable {s s' : Store} {id : EntryId}

/-- The cursor stays where it is, and the entries at and above it keep name and parent. -/
structure KeepsPlace (s s' : Store) : Prop where
  cursor_eq : s'.cursor = s.cursor
  config_eq : s'.config = s.config
  exists_entry : ∀ ⦃x e⦄, s.table.Below x s.cursor → s.table.find? x = some e →
    ∃ e', s'.table.find? x = some e' ∧ e'.name = e.name ∧ e'.parent = e.parent

/-- An entry at or above the cursor gets another name. -/
def RenamesPlace (s s' : Store) : Prop :=
  ∃ x e e', s.table.Below x s.cursor ∧ s.table.find? x = some e ∧ s'.table.find? x = some e' ∧
    e'.name ≠ e.name

theorem KeepsPlace.refl (s : Store) : s.KeepsPlace s :=
  ⟨rfl, rfl, fun _ e _ he => ⟨e, he, rfl, rfl⟩⟩

theorem KeepsPlace.withLog (h : s.KeepsPlace s') (log : Log) :
    s.KeepsPlace { s' with log := log } :=
  ⟨h.cursor_eq, h.config_eq, h.exists_entry⟩

/-- The full path of the current directory is the same. -/
theorem KeepsPlace.fullPath_cursor (h : s.KeepsPlace s') (hs : s.Sound) :
    s'.fullPath s'.cursor = s.fullPath s.cursor := by
  obtain ⟨c, hc, -⟩ := hs.cursor
  obtain ⟨c', hc', -⟩ := h.exists_entry (.self hc) hc
  rw [h.cursor_eq]
  simp only [fullPath, Table.get_of_find? hc, Table.get_of_find? hc', h.config_eq,
    hs.linked.namesUp_congr hc h.exists_entry]

/-- The current directory of a sound store has a full path. -/
theorem Sound.exists_fullPath_cursor (hs : s.Sound) : ∃ path, s.fullPath s.cursor = .ok path := by
  obtain ⟨c, hc, -⟩ := hs.cursor
  exact hs.exists_fullPath hc

theorem Noted.keepsPlace (h : s.Noted s') : s.KeepsPlace s' := by
  obtain ⟨log, rfl, -⟩ := h.exists_log
  exact (KeepsPlace.refl s).withLog log

theorem Created.keepsPlace {kind : EntryKind} {path : String}
    {outcome : Except StoreError EntryId × Store} (h : s.Created kind path outcome)
    (hs : s.Sound) : s.KeepsPlace outcome.2 := by
  cases h with
  | refused hn => exact hn.keepsPlace
  | found _ _ => exact .refl s
  | made _ _ _ hdir _ hfree =>
    refine ⟨rfl, rfl, fun x e _ he => ?_⟩
    obtain ⟨e', he', -, hname, hparent, -⟩ := (hs.attachable hdir hfree).exists_find?_attach he
    exact ⟨e', he', hname, hparent⟩

theorem Written.keepsPlace {data : List UInt8} {outcome : Except StoreError Unit × Store}
    (h : s.Written id data outcome) : s.KeepsPlace outcome.2 := by
  cases h with
  | refused _ => exact .refl s
  | exhausted _ hn => exact hn.keepsPlace
  | filled _ _ _ _ =>
    refine ⟨rfl, rfl, fun x e _ he => ?_⟩
    change ∃ e', (s.table.modify id _).find? x = some e' ∧ e'.name = e.name ∧ e'.parent = e.parent
    rw [Table.find?_modify, he]
    split_ifs
    · exact ⟨_, rfl, rfl, rfl⟩
    · exact ⟨e, rfl, rfl, rfl⟩

theorem Renamed.keepsPlace {given : String} {outcome : Except StoreError Unit × Store}
    (h : s.Renamed id given outcome) (hr : ¬ s.RenamesPlace outcome.2) :
    s.KeepsPlace outcome.2 := by
  cases h with
  | refused => exact .refl s
  | kept _ _ _ => exact .refl s
  | @renamed e name r _ hf _ _ hne _ =>
    refine ⟨rfl, rfl, fun x ex hx hex => ?_⟩
    by_cases hid : id = x
    · subst hid
      obtain rfl := Option.some.inj (hf.symm.trans hex)
      exact absurd ⟨id, e, e.renamed name, hx, hf,
        by rw [table_record, Table.find?_modify, if_pos rfl, hf, Option.map_some], hne⟩ hr
    · exact ⟨ex, by rw [table_record, Table.find?_modify, if_neg hid, hex], rfl, rfl⟩

end Store

end FileTree
