import FileTree.Proofs.Heap.Balance
import FileTree.Proofs.Store.Change
import FileTree.Proofs.Table.Tree

/-!
# Sound stores

A store is sound when its table is coherent, its links form a tree, every entry keeps to the
limits of the configuration, and the cursor is a directory. A fresh store is sound, and every
elementary change keeps it so.

## Main definitions

* `Entry.Fits`: an entry keeps to the limits of a configuration
* `Store.Sound`: a sound store

## Main results

* `Store.sound_init`: a fresh store is sound
* `Store.Step.sound`, `Store.Steps.sound`: elementary changes keep a store sound
-/

namespace FileTree

/-- The entry keeps to the limits of the configuration. A buffer belongs to a file, and holds its
content and the room that a write asks for beyond it. -/
structure Entry.Fits (config : Config) (e : Entry) : Prop where
  name_ne_empty : e.name ≠ ""
  length_name_le : e.name.length ≤ config.maxNameLength.toNat
  length_children_le : e.children.length ≤ config.maxChildren.toNat
  kind_of_content : ∀ ⦃b⦄, e.content = some b → e.kind = .file
  capacity_eq : ∀ ⦃b⦄, e.content = some b → b.capacity = e.size + config.writeSlack.toNat
  size_eq_zero : e.content = none → e.size = 0

theorem Entry.Fits.size_le_capacity {config : Config} {e : Entry} (h : e.Fits config) :
    e.size ≤ e.capacity := by
  unfold Entry.capacity
  cases hc : e.content with
  | none => simp [h.size_eq_zero hc]
  | some b =>
    have := h.capacity_eq hc
    simp only
    omega

/-- An entry without a buffer fits by its name and its number of children. -/
theorem Entry.fits_of_content_none {config : Config} {e : Entry} (hc : e.content = none)
    (hs : e.size = 0) (hne : e.name ≠ "") (hname : e.name.length ≤ config.maxNameLength.toNat)
    (hchildren : e.children.length ≤ config.maxChildren.toNat) : e.Fits config where
  name_ne_empty := hne
  length_name_le := hname
  length_children_le := hchildren
  kind_of_content b hb := by simp [hc] at hb
  capacity_eq b hb := by simp [hc] at hb
  size_eq_zero _ := hs

/-- A sound configuration has no zero among its limits. -/
theorem Config.positive_of_check {config : Config} (h : config.check = .ok ()) :
    0 < config.maxEntries.toNat ∧ 0 < config.maxChildren.toNat ∧
      0 < config.maxNameLength.toNat ∧ 0 < config.maxPathDepth.toNat ∧
      0 < config.maxPathLength.toNat := by
  rw [check_eq_ok_iff] at h
  unfold fault? at h
  split at h
  · cases h
  rename_i hpos
  simp only [List.find?_eq_none, positiveLimits, List.mem_cons, List.not_mem_nil, or_false,
    forall_eq_or_imp, forall_eq, beq_iff_eq] at hpos
  have pos : ∀ n : UInt64, n ≠ 0 → 0 < n.toNat := fun n hn =>
    Nat.pos_of_ne_zero fun hz => hn (UInt64.toNat_inj.mp hz)
  obtain ⟨h₁, h₂, h₃, h₄, h₅⟩ := hpos
  exact ⟨pos _ h₁, pos _ h₂, pos _ h₃, pos _ h₄, pos _ h₅⟩

theorem Entry.fits_root {config : Config} (h : config.check = .ok ()) :
    Entry.root.Fits config := by
  refine fits_of_content_none rfl rfl (by simp [root]) ?_ (Nat.zero_le _)
  change "/".length ≤ _
  rw [show "/".length = 1 from rfl]
  exact (Config.positive_of_check h).2.2.1

namespace Store

/-- A store that is in order. -/
structure Sound (s : Store) : Prop where
  coherent : s.table.Coherent
  linked : s.table.Linked
  fits : ∀ ⦃id e⦄, s.table.find? id = some e → e.Fits s.config
  cursor : ∃ e, s.table.find? s.cursor = some e ∧ e.kind = .directory

theorem sound_init {config : Config} (h : config.check = .ok ()) (id : StoreId) (heap : Heap) :
    (init id config heap).Sound where
  coherent := Table.coherent_new _
  linked := Table.linked_new _
  fits x e hx := by
    change (Table.new _).find? x = some e at hx
    rw [Table.find?_new] at hx
    split_ifs at hx
    cases hx
    exact Entry.fits_root h
  cursor := by
    refine ⟨Entry.root, ?_, rfl⟩
    change (Table.new _).find? .root = _
    rw [Table.find?_new, if_pos rfl]

variable {s s' : Store} {id : EntryId} {e : Entry}

/-- Changing an entry other than in its links keeps a store sound, if the entry still fits. -/
theorem Sound.modify (h : s.Sound) (f : Entry → Entry) (heap : Heap)
    (hlinks : ∀ e, (f e).links = e.links) (hname : id ≠ .root ∨ ∀ e, (f e).name = e.name)
    (hfits : ∀ e, s.table.find? id = some e → (f e).Fits s.config) :
    { s with table := s.table.modify id f, heap := heap }.Sound where
  coherent := h.coherent.modify id f
  linked := by
    apply h.linked.congr
    · intro x
      rw [Table.find?_modify]
      split
      · simp [Option.map_map, Function.comp_def, hlinks]
      · rfl
    · rw [Table.find?_modify]
      split
      · rename_i hid
        have hname := hname.resolve_left (absurd hid)
        simp [Option.map_map, Function.comp_def, hname]
      · rfl
  fits x ex hx := by
    simp only [Table.find?_modify] at hx
    split_ifs at hx with hid
    · obtain ⟨ex₀, hx₀, rfl⟩ := Option.map_eq_some_iff.mp hx
      exact hfits ex₀ (hid ▸ hx₀)
    · exact h.fits hx
  cursor := by
    obtain ⟨c, hc, hk⟩ := h.cursor
    simp only [Table.find?_modify]
    split
    · exact ⟨f c, by rw [hc, Option.map_some], (congrArg Prod.fst (hlinks c)).trans hk⟩
    · exact ⟨c, hc, hk⟩

theorem Sound.attachable (h : s.Sound) {name : String} {kind : EntryKind} {dir : Entry}
    {rest : List Nat} (hdir : s.table.find? s.cursor = some dir)
    (hfree : s.table.free = id.index :: rest) :
    s.table.Attachable id { name, kind, parent := s.cursor } dir where
  index_lt := (h.coherent.head_free hfree).1
  free := (h.coherent.head_free hfree).2
  parent := hdir
  directory := by
    obtain ⟨c, hc, hk⟩ := h.cursor
    obtain rfl := Option.some.inj (hdir.symm.trans hc)
    exact hk
  leaf := rfl

/-- Adding an entry below the cursor keeps a store sound. -/
theorem Sound.add (h : s.Sound) {name : String} {kind : EntryKind} {dir : Entry}
    {rest : List Nat} (hne : name ≠ "") (hlen : name.length ≤ s.config.maxNameLength.toNat)
    (hdir : s.table.find? s.cursor = some dir)
    (hroom : dir.children.length < s.config.maxChildren.toNat)
    (hfree : s.table.free = id.index :: rest) :
    { s with table := s.table.attach rest id { name, kind, parent := s.cursor } }.Sound := by
  have ha : s.table.Attachable id { name, kind, parent := s.cursor } dir :=
    h.attachable hdir hfree
  refine ⟨h.coherent.attach hfree _, h.linked.attach ha, fun x ex hx => ?_, ?_⟩
  · rcases ha.find?_attach_cases hx with ⟨rfl, rfl⟩ | ⟨rfl, rfl⟩ | ⟨-, -, hx⟩
    · exact Entry.fits_of_content_none rfl rfl hne hlen (Nat.zero_le _)
    · have hfits := h.fits hdir
      exact { hfits with length_children_le := by simp [Entry.addChild]; omega }
    · exact h.fits hx
  · exact ⟨_, ha.find?_attach_parent, ha.directory⟩

/-- Taking out an entry without children keeps a store sound. -/
theorem Sound.pruned (h : s.Sound) (hd : s.table.Detachable id e) : (s.pruned id e).Sound := by
  refine ⟨h.coherent.detach _ hd.found, h.linked.detach hd, fun x ex hx => ?_, ?_⟩
  · obtain ⟨-, ex₀, hx₀, rfl⟩ := hd.exists_of_find?_detach h.linked hx
    have hfits := h.fits hx₀
    exact { hfits with
      length_children_le := Nat.le_trans (List.length_filter_le _ _) hfits.length_children_le }
  · change ∃ c, (s.table.detach id e.parent).find? (if s.cursor = id then .root else s.cursor) =
      some c ∧ c.kind = .directory
    split_ifs with hcur
    · obtain ⟨r, hr, hk, -⟩ := h.linked.root
      exact ⟨_, hd.find?_detach_of_ne h.linked hr (Ne.symm hd.ne_root), hk⟩
    · obtain ⟨c, hc, hk⟩ := h.cursor
      exact ⟨_, hd.find?_detach_of_ne h.linked hc hcur, hk⟩

/-- **Every elementary change keeps a store sound.** -/
theorem Step.sound (hs : s.Step s') (h : s.Sound) : s'.Sound := by
  cases hs with
  | relog log => exact ⟨h.coherent, h.linked, h.fits, h.cursor⟩
  | move hf hk => exact ⟨h.coherent, h.linked, h.fits, _, hf, hk⟩
  | add hne hlen hnone hdir hroom hfree => exact h.add hne hlen hdir hroom hfree
  | @fill id e data buffer heap hf hk halloc =>
    refine h.modify _ _ (fun _ => rfl) (.inr fun _ => rfl) fun ex hx => ?_
    obtain rfl := Option.some.inj (hx.symm.trans hf)
    obtain ⟨rfl, -⟩ := Heap.allocate_eq_ok halloc
    have hfits := h.fits hx
    refine { hfits with kind_of_content := fun _ _ => hk, capacity_eq := ?_, size_eq_zero := ?_ }
    · intro b hb
      cases hb
      rfl
    · intro hb
      cases hb
  | rename hf hid hne hlen hnone =>
    refine h.modify _ _ (fun _ => rfl) (.inl hid) fun ex hx => ?_
    have hfits := h.fits hx
    exact { hfits with name_ne_empty := hne, length_name_le := hlen }
  | prune hf hid hc => exact h.pruned ⟨hf, hid, hc⟩

theorem Steps.sound (hs : s.Steps s') (h : s.Sound) : s'.Sound := by
  induction hs with
  | refl => exact h
  | tail _ hstep ih => exact hstep.sound ih

end Store

end FileTree
