import FileTree.Proofs.Path.Position
import FileTree.Proofs.Store.Naming
import FileTree.Proofs.Store.Subtree

/-!
# What a renaming does

The questions are asked in their order: is there such an entry, is it the root, is there a name
left once it is cut, does the entry have the name already, does a sibling have it. If nothing
stands against it the entry gets the name, and nothing else in the store changes.

Paths change with the name. The way to an entry at or below the renamed one goes through it, so the
segment that stands there has to be replaced and the rest of the path is good as it is. The old path
leads nowhere: down to the parent it goes as before, and no entry there has the old name any more.

## Main definitions

* `Table.Lists`: a directory has an entry of a name
* `Store.WithName`: a store is another one with an entry under another name
* `Store.PathMoves`: how a path changes when an entry on its way is renamed
* `Store.Renaming`: what a renaming does, in every case

## Main results

* `Table.Linked.way_through`: the way to what is below an entry goes through it
* `Table.Linked.way_renamed`: a way stays if the renamed entry is not on it
* `Store.Sound.pathMoves`: paths to what is at or below the renamed entry move
* `Store.Reachable.renaming`: what a renaming does, whatever is asked for
-/

namespace FileTree

namespace Table

variable {t : Table} {id start target x y : EntryId} {e : Entry} {names more : List String}
  {name : String}

/-- An entry of the directory has the name. -/
def Lists (t : Table) (dir : EntryId) (name : String) : Prop :=
  ∃ d child, t.find? dir = some d ∧ child ∈ d.children ∧ t.nameAt child = some name

theorem isSome_findChild?_iff {dir : EntryId} :
    (t.findChild? dir name).isSome = true ↔ t.Lists dir name := by
  unfold findChild? Lists
  cases t.find? dir with
  | none => simp
  | some d => simp [nameAt, Option.any_eq_true]

/-! ## Ways in parts -/

theorem Way.append (h : t.Way start names target) (h' : t.Way target more x) :
    t.Way start (names ++ more) x := by
  induction h with
  | here _ => exact h'
  | down hf hm hc _ ih => exact .down hf hm hc (ih h')

theorem Way.exists_mid (h : t.Way start (names ++ more) x) :
    ∃ mid, t.Way start names mid ∧ t.Way mid more x := by
  induction names generalizing start with
  | nil =>
    obtain ⟨e, hf⟩ := h.exists_first
    exact ⟨start, .here hf, h⟩
  | cons name names ih =>
    cases h with
    | down hf hm hc h =>
      obtain ⟨mid, hfirst, hrest⟩ := ih h
      exact ⟨mid, .down hf hm hc hfirst, hrest⟩

/-- The way to what is below an entry goes through the entry, unless it starts there or below. -/
theorem Linked.way_through (hl : t.Linked) (hw : t.Way start names x) (hb : t.Below id x)
    (hf : t.find? id = some e) (hout : ¬ t.Below id start) :
    ∃ front back, names = front ++ e.name :: back ∧ t.Way start front e.parent ∧
      t.Way id back x := by
  have hbelow : t.Below start id := ((hl.below_of_way hw).linear hb).resolve_right hout
  have hne : start ≠ id := by
    rintro rfl
    exact hout (.self hf)
  have hid : id ≠ .root := fun hroot => hne ((hl.eq_root_of_below hbelow hroot).trans hroot.symm)
  obtain ⟨front, hfront⟩ : ∃ front, t.Way start front e.parent := by
    cases hbelow with
    | self _ => exact absurd rfl hne
    | step hf' hb' =>
      obtain rfl := Option.some.inj (hf'.symm.trans hf)
      exact hl.exists_way hb'
  obtain ⟨back, hback⟩ := hl.exists_way hb
  obtain ⟨dir, hdir, -, hm⟩ := hl.listed hf hid
  have hthrough := hfront.append (.down hdir hm hf hback)
  exact ⟨front, back, hl.way_unique hw hthrough, hfront, hback⟩

/-- A way stays as it is when an entry is renamed that is not on it, or only at its start. -/
theorem Linked.way_renamed (hl : t.Linked) (hw : t.Way start names x)
    (hid : t.Below start id → t.Below id x → start = id) :
    (t.modify id (·.renamed name)).Way start names x := by
  have hdir : ∀ {y d}, t.find? y = some d →
      ∃ d', (t.modify id (·.renamed name)).find? y = some d' ∧ d'.children = d.children := by
    intro y d hy
    rw [find?_modify, hy]
    split_ifs
    · exact ⟨_, rfl, rfl⟩
    · exact ⟨d, rfl, rfl⟩
  induction hw with
  | here hf =>
    obtain ⟨d', hd', -⟩ := hdir hf
    exact .here hd'
  | @down id' child target dir c names hf hm hc hw ih =>
    obtain ⟨d', hd', hchildren⟩ := hdir hf
    have hchild := hl.below_child hf hm
    -- a child on the way is not the renamed entry, which would have to be above itself
    have hne : id ≠ child := by
      rintro rfl
      have hsame := hid hchild (hl.below_of_way hw)
      exact hl.ne_of_mem_children hf hm hsame.symm
    have hc' : (t.modify id (·.renamed name)).find? child = some c := by
      rw [find?_modify, if_neg hne, hc]
    refine .down hd' (hchildren ▸ hm) hc' (ih fun hup hdown => ?_)
    obtain rfl := hid (hchild.trans hup) hdown
    exact hl.below_antisymm hup hchild

end Table

namespace Store

variable {s s' : Store} {id x : EntryId} {e : Entry} {given name path before after : String}
  {config : Config} {heap : Heap}

/-- A store is another one with an entry under another name. -/
structure WithName (s : Store) (id : EntryId) (e : Entry) (name : String) (s' : Store) :
    Prop where
  find?_self : s'.table.find? id = some { e with name := name }
  find?_other : ∀ x, x ≠ id → s'.table.find? x = s.table.find? x
  generationAt_eq : ∀ x, s'.table.generationAt x = s.table.generationAt x
  free_eq : s'.table.free = s.table.free
  capacity_eq : s'.table.capacity = s.table.capacity
  cursor_eq : s'.cursor = s.cursor
  heap_eq : s'.heap = s.heap
  config_eq : s'.config = s.config
  id_eq : s'.id = s.id

/-- How a path to an entry at or below a renamed one changes: the old name stands in it behind a
path of the parent. With the new name in its place the path leads where it did, and as it was it
leads nowhere. -/
structure PathMoves (s : Store) (e : Entry) (name : String) (s' : Store) (path : String)
    (x : EntryId) : Prop where
  exists_stands : ∃ before after, Path.Stands before e.name after path ∧
    s.resolve before = .ok e.parent
  resolve_new : ∀ before after, Path.Stands before e.name after path →
    s.resolve before = .ok e.parent → s'.resolve (before ++ name ++ after) = .ok x
  resolve_old : s'.resolve path = .error (.notFound path)

/-! ## Paths -/

section Paths

variable (hs : s.Sound) (hd : s.table.DistinctNames) (hs' : s'.Sound)
  (hd' : s'.table.DistinctNames) (htable : s'.table = s.table.modify id (·.renamed name))
  (hf : s.table.find? id = some e) (hid : id ≠ .root)

include hs htable hf hid

/-- The way to the parent stays. -/
theorem Sound.way_parent_renamed {front : List String} (hw : s.table.Way .root front e.parent) :
    s'.table.Way .root front e.parent := by
  rw [htable]
  exact hs.linked.way_renamed hw fun _ hb =>
    absurd hb (hs.linked.not_below_parent hf hid)

/-- The way to what is at or below the entry has the new name in the place of the old one. -/
theorem Sound.way_renamed_through {front back : List String}
    (hw : s.table.Way .root front e.parent) (hback : s.table.Way id back x) :
    s'.table.Way .root (front ++ name :: back) x := by
  have hfront := hs.way_parent_renamed htable hf hid hw
  obtain ⟨dir, hdir, -, hm⟩ := hs.linked.listed hf hid
  have hne : id ≠ e.parent := by
    intro heq
    exact hs.linked.not_below_parent hf hid (heq ▸ .self hf)
  rw [htable] at hfront ⊢
  have hdir' : (s.table.modify id (·.renamed name)).find? e.parent = some dir := by
    rw [Table.find?_modify, if_neg hne, hdir]
  have hself : (s.table.modify id (·.renamed name)).find? id = some (e.renamed name) := by
    rw [Table.find?_modify, if_pos rfl, hf, Option.map_some]
  exact hfront.append (.down hdir' hm hself (hs.linked.way_renamed hback fun _ _ => rfl))

include hd hs' hd'

/-- No way through the parent goes on by the old name. -/
theorem Sound.not_way_old (hne : name ≠ e.name) {front back : List String}
    (hw : s.table.Way .root front e.parent) {y : EntryId} :
    ¬ s'.table.Way .root (front ++ e.name :: back) y := by
  intro hold
  obtain ⟨mid, hfront, hrest⟩ := hold.exists_mid
  obtain rfl := (hs.way_parent_renamed htable hf hid hw).target_unique hd' hs'.linked hfront
  generalize hname : e.name :: back = names at hrest
  cases hrest with
  | here _ => cases hname
  | @down _ child _ dir' c names hdir' hm hc _ =>
    obtain ⟨hname, -⟩ := List.cons.inj hname
    obtain ⟨hchild, c', hc', hparent⟩ := hs'.linked.points_back hdir' hm
    obtain rfl := Option.some.inj (hc'.symm.trans hc)
    rw [htable] at hc
    obtain ⟨c₀, hc₀, heq⟩ := Table.exists_of_find?_modify hc
    split_ifs at heq with hsame
    · subst heq
      exact hne hname.symm
    · subst heq
      exact hsame (hd hf hc₀ hid hchild hparent.symm hname)

/-- **Paths to what is at or below the renamed entry move.** -/
theorem Sound.pathMoves (hne : name ≠ e.name) (hname : name ≠ "")
    (hsep : Path.separator ∉ name.toList) (hpath : Path.isAbsolute path = true)
    (hok : s.resolve path = .ok x) (hb : s.table.Below id x) :
    s.PathMoves e name s' path x := by
  have hl := hs.linked
  have hway := (hs.resolve_eq_ok_iff_of_isAbsolute hd hpath).mp hok
  obtain ⟨front, back, hseg, hfront, hback⟩ := hl.way_through hway hb hf
    fun hroot => hid (hl.eq_root_of_below hroot rfl)
  have hmem : e.name ∈ Path.segments path := by simp [hseg]
  have holdsep : Path.separator ∉ e.name.toList := Path.separator_notMem_of_mem_segments hmem
  have holdname : e.name ≠ "" := (hs.fits hf).name_ne_empty
  refine ⟨?_, fun before after hstands hbefore => ?_, ?_⟩
  · obtain ⟨before, after, hstands, rfl, -⟩ := Path.exists_stands hseg
    have habs := hstands.isAbsolute_before holdname holdsep hpath
    exact ⟨before, after, hstands, (hs.resolve_eq_ok_iff_of_isAbsolute hd habs).mpr hfront⟩
  · have habs := hstands.isAbsolute_before holdname holdsep hpath
    have hbefore := (hs.resolve_eq_ok_iff_of_isAbsolute hd habs).mp hbefore
    obtain rfl := hl.way_unique hfront hbefore
    rw [hstands.segments_eq_cons holdname holdsep, List.append_cancel_left_eq] at hseg
    obtain ⟨-, rfl⟩ := List.cons.inj hseg
    have habs' := Path.isAbsolute_append habs (name ++ after)
    rw [← String.append_assoc] at habs'
    rw [hs'.resolve_eq_ok_iff_of_isAbsolute hd' habs',
      (hstands.replace name).segments_eq_cons hname hsep]
    exact hs.way_renamed_through htable hf hid hfront hback
  · rcases hs'.exists_resolve_eq_ok_or path with ⟨y, -, hy⟩ | hmissing
    · have hy := (hs'.resolve_eq_ok_iff_of_isAbsolute hd' hpath).mp hy
      rw [hseg] at hy
      exact absurd hy (hs.not_way_old hd hs' hd' htable hf hid hne hfront)
    · exact hmissing

end Paths

/-! ## Every case -/

/-- The name that a text gives an entry: as much of it as the longest length admits. -/
def cutName (s : Store) (given : String) : String :=
  Record.cut s.config.maxNameLength.toNat given

/-- What a renaming does. Each question is asked where the ones before were answered in favour of
the renaming. -/
structure Renaming (s : Store) (id : EntryId) (given : String) : Prop where
  missing : s.table.find? id = none → s.rename id given = (.error (.invalidId id), s)
  root : id = .root → s.rename id given = (.error .cannotRenameRoot, s)
  nameless ⦃e : Entry⦄ : s.table.find? id = some e → id ≠ .root → s.cutName given = "" →
    s.rename id given = (.error (.invalidName given), s)
  /-- Nothing happens to an entry that has the name already; not even the log says so. -/
  same ⦃e : Entry⦄ : s.table.find? id = some e → id ≠ .root → s.cutName given ≠ "" →
    s.cutName given = e.name → s.rename id given = (.ok (), s)
  taken ⦃e : Entry⦄ : s.table.find? id = some e → id ≠ .root → s.cutName given ≠ "" →
    s.cutName given ≠ e.name → s.table.Lists e.parent (s.cutName given) →
    s.rename id given = (.error (.alreadyExists (s.cutName given)), s)
  renamed ⦃e : Entry⦄ : s.table.find? id = some e → id ≠ .root → s.cutName given ≠ "" →
    s.cutName given ≠ e.name → ¬ s.table.Lists e.parent (s.cutName given) →
    ∃ s', s.rename id given = (.ok (), s') ∧ s.WithName id e (s.cutName given) s' ∧
      (Path.separator ∉ (s.cutName given).toList → ∀ path x, Path.isAbsolute path = true →
        s.resolve path = .ok x → s.table.Below id x →
        s.PathMoves e (s.cutName given) s' path x)

/-- A renamed entry is another one in its name only. -/
theorem withName_renamed (hf : s.table.find? id = some e) (name : String) (log : Log) :
    s.WithName id e name { s with table := s.table.modify id (·.renamed name), log := log } where
  find?_self := by
    show (Table.modify _ _ _).find? id = _
    rw [Table.find?_modify, if_pos rfl, hf]
    rfl
  find?_other x hx := (Table.find?_modify _ _ _ _).trans (if_neg (Ne.symm hx))
  generationAt_eq x := Table.generationAt_modify _ _ x _
  free_eq := rfl
  capacity_eq := Table.capacity_modify _ _ _
  cursor_eq := rfl
  heap_eq := rfl
  config_eq := rfl
  id_eq := rfl

theorem rename_of_cutName_eq_empty (hf : s.table.find? id = some e) (hid : id ≠ .root)
    (hempty : s.cutName given = "") : s.rename id given = (.error (.invalidName given), s) := by
  have hroot : ¬ id.isRoot = true := fun heq => hid (id.isRoot_iff.mp heq)
  have hcut : s.normalizeName given given = .error (.invalidName given) :=
    if_pos (String.isEmpty_iff.mpr hempty)
  simp only [rename, Table.get_of_find? hf, if_neg hroot, hcut]

/-- What is left to ask once there is a name. -/
theorem rename_of_cutName_ne_empty (hf : s.table.find? id = some e) (hid : id ≠ .root)
    (hne : s.cutName given ≠ "") : s.rename id given =
      if s.cutName given = e.name then (.ok (), s)
      else if (s.table.findChild? e.parent (s.cutName given)).isSome then
        (.error (.alreadyExists (s.cutName given)), s)
      else
        (.ok (), { s with table := s.table.modify id (·.renamed (s.cutName given)) }.note .debug
          "renamed" (some id)) := by
  have hroot : ¬ id.isRoot = true := fun heq => hid (id.isRoot_iff.mp heq)
  have hcut : s.normalizeName given given = .ok (s.cutName given) :=
    normalizeName_eq_ok_iff.mpr ⟨rfl, hne⟩
  simp only [rename, Table.get_of_find? hf, if_neg hroot, hcut]

/-- **What a renaming does, in every case.** -/
theorem Reachable.renaming (hs : Reachable config heap s) (id : EntryId) (given : String) :
    s.Renaming id given where
  missing hnone := by simp only [rename, Table.get, hnone]
  root := by
    rintro rfl
    obtain ⟨r, hr, -⟩ := hs.sound.linked.root
    have hroot : EntryId.root.isRoot = true := (EntryId.isRoot_iff _).mpr rfl
    simp only [rename, Table.get_of_find? hr, hroot, if_true]
  nameless _ hf hid hempty := rename_of_cutName_eq_empty hf hid hempty
  same _ hf hid hne hsame := by rw [rename_of_cutName_ne_empty hf hid hne, if_pos hsame]
  taken _ hf hid hne hother hlists := by
    rw [rename_of_cutName_ne_empty hf hid hne, if_neg hother,
      if_pos (Table.isSome_findChild?_iff.mpr hlists)]
  renamed e hf hid hne hother hlists := by
    have hsound := hs.sound
    have hsteps := s.steps_rename id given
    rw [rename_of_cutName_ne_empty hf hid hne, if_neg hother,
      if_neg (mt Table.isSome_findChild?_iff.mp hlists)] at hsteps ⊢
    exact ⟨_, rfl, withName_renamed hf _ _, fun hsep path x hpath hok hb =>
      hsound.pathMoves hs.distinctNames (hsteps.sound hsound)
        (hsteps.distinctNames hsound hs.distinctNames) rfl hf hid hother hne hsep hpath hok hb⟩

end Store

end FileTree
