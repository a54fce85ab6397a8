import FileTree.Proofs.Store.Ledger

/-!
# The books after a run

The heap takes back every buffer that the store offers it, so the store never logs an error. After
a run the counters of the heap are those of the buffers that entries hold, and of those that have
leaked. Once every entry is deleted, nothing is out that has not leaked.

## Main definitions

* `Store.Accounted`: the counters of the heap, in terms of the tree and the tally of a run

## Main results

* `Store.Ledger.quiet`, `Store.Ledger.quiet_run`: no buffer is refused, so no error is logged
* `Store.Sound.eq_root_of_run_delete`: deleting every entry leaves the root
* `Store.accounted_run`: the counters after a run from a fresh store
-/

namespace FileTree.Store

variable {s s' : Store} {limit : Option Nat} {t : Tally} {id : EntryId} {e : Entry}

/-! ## No buffer is refused -/

theorem grants_of_balances {heap : Heap} {old : Option Buffer} {out : List Buffer}
    {given taken : Nat} (h : heap.Balances limit (old.toList ++ out) given taken) :
    heap.Grants old := by
  rintro b rfl
  obtain ⟨heap', hr, -⟩ := h.exists_release
  exact ⟨heap', hr⟩

/-- The heap takes back whatever an entry holds. -/
theorem Ledger.grants (h : s.Ledger limit t) (hf : s.table.find? id = some e) :
    s.heap.Grants e.content :=
  grants_of_balances (Heap.Balances.perm h (out_perm_pruned hf _))

/-- The heap takes back what an entry held before it was written. -/
theorem Ledger.grants_old {size : Nat} {buffer : Buffer} {heap : Heap} (h : s.Ledger limit t)
    (hf : s.table.find? id = some e) (ha : s.heap.allocate size = .ok (buffer, heap)) :
    heap.Grants e.content :=
  grants_of_balances ((Heap.Balances.allocate h ha).perm (out_perm_filled hf [] buffer heap _))

theorem Ledger.log_eq {victims : List EntryId} (h : s.Ledger limit t)
    (hp : s.Prunes victims s') : s'.log = s.log := by
  induction hp generalizing t with
  | nil => rfl
  | @cons s s' id e rest log hlog hd _ ih =>
    exact (ih (h.pruned log hd.found)).trans (hlog (h.grants hd.found))

theorem Created.quiet {kind : EntryKind} {path : String}
    {outcome : Except StoreError EntryId × Store} (ho : s.Created kind path outcome)
    (hq : s.log.Quiet) : outcome.2.log.Quiet := by
  cases ho with
  | refused hn => exact hn.quiet hq
  | found _ _ => exact hq
  | made hr _ _ _ _ _ => exact hq.record hr

theorem Renamed.quiet {given : String} {outcome : Except StoreError Unit × Store}
    (ho : s.Renamed id given outcome) (hq : s.log.Quiet) : outcome.2.log.Quiet := by
  cases ho with
  | refused => exact hq
  | kept _ _ _ => exact hq
  | renamed hr _ _ _ _ _ => exact hq.record hr

theorem Moved.quiet {outcome : Except StoreError Unit × Store} (ho : s.Moved id outcome)
    (hq : s.log.Quiet) : outcome.2.log.Quiet := by
  cases ho with
  | refused => exact hq
  | moved hr _ _ => exact hq.record hr

theorem Ledger.quiet_write (h : s.Ledger limit t) {data : List UInt8}
    {outcome : Except StoreError Unit × Store} (ho : s.Written id data outcome)
    (hq : s.log.Quiet) : outcome.2.log.Quiet := by
  cases ho with
  | refused _ => exact hq
  | exhausted _ hn => exact hn.quiet hq
  | filled hlog hf _ ha => exact hlog (h.grants_old hf ha) hq

theorem Ledger.quiet_delete (h : s.Ledger limit t) {outcome : Except StoreError Nat × Store}
    (ho : s.Deleted id outcome) (hq : s.log.Quiet) : outcome.2.log.Quiet := by
  cases ho with
  | refused _ => exact hq
  | deleted hlog _ _ _ _ hp => exact hlog ((h.log_eq hp).symm ▸ hq)

/-- **An operation logs no error** when the books of the heap agree with the tree. -/
theorem Ledger.quiet (h : s.Ledger limit t) (hs : s.Sound) (hq : s.log.Quiet) (op : Operation) :
    (s.perform op).2.log.Quiet := by
  cases op with
  | createFile path => exact (s.created_create .file path).quiet hq
  | createDirectory path => exact (s.created_create .directory path).quiet hq
  | write id data => exact h.quiet_write (s.written_write id data) hq
  | delete id => exact h.quiet_delete (hs.deleted_delete id) hq
  | rename id name => exact (s.renamed_rename id name).quiet hq
  | changeDirectory id => exact (s.moved_changeDirectory id).quiet hq

theorem Ledger.quiet_run (h : s.Ledger limit t) (hs : s.Sound) (hq : s.log.Quiet)
    (ops : List Operation) : (s.run ops).log.Quiet := by
  induction ops generalizing s t with
  | nil => exact hq
  | cons op ops ih => exact ih (h.perform hs op) (hs.perform op) (h.quiet hs hq op)

/-! ## Deleting every entry -/

/-- After a deletion its entry is gone, and no entry is new. -/
theorem Sound.isUsed_delete (hs : s.Sound) (id : EntryId) {x : EntryId}
    (hx : (s.delete id).2.table.isUsed x = true) :
    s.table.isUsed x = true ∧ (x = id → x = .root) := by
  have ho := hs.deleted_delete id
  generalize s.delete id = outcome at ho hx
  cases ho with
  | refused hnone =>
    refine ⟨hx, ?_⟩
    rintro rfl
    by_contra hne
    simp [Table.isUsed, hnone hne] at hx
  | @deleted e order s' log _ hf _ hpre _ hp =>
    obtain ⟨hused, hv⟩ := (hp.isUsed_iff hs x).mp hx
    refine ⟨hused, ?_⟩
    rintro rfl
    exact absurd (List.mem_reverse.mpr (hpre.subset (List.mem_cons_self ..))) hv

/-- Deleting every entry, in whatever order, leaves the root. -/
theorem Sound.eq_root_of_run_delete (hs : s.Sound) {ids : List EntryId}
    (hids : ∀ x, s.table.isUsed x = true → x = .root ∨ x ∈ ids) {x : EntryId}
    (hx : (s.run (ids.map .delete)).table.isUsed x = true) : x = .root := by
  induction ids generalizing s with
  | nil => exact (hids x hx).resolve_right List.not_mem_nil
  | cons id ids ih =>
    -- What is left after the first deletion is the root, or to be deleted later.
    refine ih (hs.perform (.delete id)) (fun y hy => ?_) hx
    obtain ⟨hused, hid⟩ := hs.isUsed_delete id hy
    rcases hids y hused with hroot | hm
    · exact .inl hroot
    · rcases List.mem_cons.mp hm with rfl | hm
      · exact .inl (hid rfl)
      · exact .inr hm

/-- The root holds no buffer. -/
theorem Sound.held_eq_nil (hs : s.Sound) (hroot : ∀ x, s.table.isUsed x = true → x = .root) :
    s.table.held = [] := by
  rw [List.eq_nil_iff_forall_not_mem]
  intro b hb
  obtain ⟨x, hx⟩ := Table.mem_held.mp hb
  obtain rfl := hroot x (Table.isUsed_of_contentAt hx)
  obtain ⟨r, hr, hk, -⟩ := hs.linked.root
  rw [Table.contentAt_of_find? hr] at hx
  exact absurd (hk.symm.trans ((hs.fits hr).kind_of_content hx)) (by decide)

/-! ## The counters -/

/-- The counters of the heap, in terms of the tree and the tally of a run. -/
structure Accounted (config : Config) (limit : Option Nat) (t : Tally) (s : Store) : Prop where
  /-- The buffers that are out, each under a handle of its own. -/
  live : s.heap.live.Perm ((s.table.held ++ t.leaked config.writePolicy).map Buffer.ticket)
  nodup : (s.heap.live.map Prod.fst).Nodup
  capacity_eq : ∀ ⦃id e b⦄, s.table.find? id = some e → e.content = some b →
    b.capacity = e.size + config.writeSlack.toNat
  bytesInUse_le : ∀ ⦃n⦄, limit = some n → s.heap.stats.bytesInUse ≤ n
  totalAllocations_eq : s.heap.stats.totalAllocations = t.writes
  /-- No buffer that was offered back was refused, which would have been an error in the log. -/
  totalReleases_eq : s.heap.stats.totalReleases = (t.offered config.writePolicy).length
  quiet : s.log.Quiet
  /-- The heap takes back whatever an entry holds. -/
  grants : ∀ ⦃id e⦄, s.table.find? id = some e → s.heap.Grants e.content
  of_release : config.writePolicy = .releaseOnReplace →
    s.heap.stats.liveBuffers = s.table.held.length ∧
    s.heap.stats.bytesInUse = (s.table.held.map Buffer.capacity).sum ∧
    s.heap.stats.totalReleases = s.heap.stats.totalAllocations - s.heap.stats.liveBuffers
  of_leak : config.writePolicy = .leakOnReplace →
    s.heap.stats.liveBuffers = s.table.held.length + t.replaced.length ∧
    s.heap.stats.bytesInUse =
      (s.table.held.map Buffer.capacity).sum + (t.replaced.map Buffer.capacity).sum ∧
    s.heap.stats.totalReleases = t.deleted.length

theorem Ledger.accounted (h : s.Ledger limit t) (hs : s.Sound) (hq : s.log.Quiet) :
    s.Accounted s.config limit t where
  live := h.live
  nodup := h.nodup
  capacity_eq id e b hf hb := (hs.fits hf).capacity_eq hb
  bytesInUse_le := h.bytesInUse_le
  totalAllocations_eq := h.totalAllocations_eq
  totalReleases_eq := h.totalReleases_eq
  quiet := hq
  grants id e hf := h.grants hf
  of_release hp := by
    have hlen := h.liveBuffers_eq
    have hbytes := h.bytesInUse_eq
    have hgiven := h.given_eq
    have hall := h.totalAllocations_eq
    have hrel := h.totalReleases_eq
    simp only [hp, Tally.leaked, List.append_nil] at hlen hbytes hgiven hrel
    exact ⟨hlen, hbytes, by omega⟩
  of_leak hp := by
    have hlen := h.liveBuffers_eq
    have hbytes := h.bytesInUse_eq
    have hrel := h.totalReleases_eq
    simp only [hp, Tally.leaked, Tally.offered, List.length_append, List.map_append,
      List.sum_append] at hlen hbytes hrel
    exact ⟨hlen, hbytes, hrel⟩

/-- What leaked once is out for good. -/
theorem Ledger.mem_live_of_replaced (h : s.Ledger limit t) (hs : s.Sound)
    (hp : s.config.writePolicy = .leakOnReplace) {b : Buffer} (hb : b ∈ t.replaced)
    (ops : List Operation) : b.ticket ∈ (s.run ops).heap.live := by
  have hrun := (h.run hs ops).live
  rw [((reaches_run s ops).steps hs).config_eq, hp] at hrun
  refine hrun.mem_iff.mpr (List.mem_map_of_mem ?_)
  exact List.mem_append_right _ (List.mem_append_left _ hb)

theorem quiet_init (id : StoreId) (config : Config) (heap : Heap) :
    (init id config heap).log.Quiet := by
  refine Log.Quiet.record ?_ (by simp)
  intro r hr
  simp [Log.toList, Log.newestFirst] at hr

/-- **After every run the books of the heap agree with the tree**, on the buffers that are out and
in every counter, and no buffer was refused. Under the policy that releases replaced buffers,
nothing is out once every entry is deleted; under the one that leaks them, they stay out for
good. -/
theorem accounted_run {config : Config} (hc : config.check = .ok ()) (id : StoreId)
    (limit : Option Nat) (ops : List Operation) :
    ∃ s₀, fresh id config { limit := limit } = .ok s₀ ∧
      (s₀.run ops).Accounted config limit (s₀.tally ops) ∧
      (config.writePolicy = .releaseOnReplace → ∀ ids, (s₀.run ops).table.ids ⊆ ids →
        ((s₀.run ops).run (ids.map .delete)).heap.stats.liveBuffers = 0 ∧
        ((s₀.run ops).run (ids.map .delete)).heap.stats.bytesInUse = 0) ∧
      (config.writePolicy = .leakOnReplace → ∀ b ∈ (s₀.tally ops).replaced, ∀ more,
        b.ticket ∈ ((s₀.run ops).run more).heap.live) := by
  have hinit := sound_init hc id { limit := limit }
  have hledger := (ledger_init id config limit).run hinit ops
  rw [Tally.empty_join] at hledger
  have hquiet := (ledger_init id config limit).quiet_run hinit (quiet_init id config _) ops
  have hreach := reaches_run (init id config { limit := limit }) ops
  have hs := hreach.sound hinit
  have hconfig : ((init id config { limit := limit }).run ops).config = config :=
    (hreach.steps hinit).config_eq
  refine ⟨_, fresh_eq_ok_iff.mpr ⟨hc, rfl⟩, ?_, fun hp ids hids => ?_, fun hp b hb more => ?_⟩
  · have := hledger.accounted hs hquiet
    rwa [hconfig] at this
  · have hdel := reaches_run ((init id config { limit := limit }).run ops) (ids.map .delete)
    have hnil := (hdel.sound hs).held_eq_nil fun x hx => hs.eq_root_of_run_delete
      (fun y hy => .inr (hids (Table.mem_ids.mpr hy))) hx
    have hempty := hledger.run hs (ids.map .delete)
    unfold Ledger at hempty
    rw [(hdel.steps hs).config_eq, hconfig, hp, hnil] at hempty
    exact ⟨hempty.liveBuffers_eq, hempty.bytesInUse_eq⟩
  · exact hledger.mem_live_of_replaced hs ((congrArg Config.writePolicy hconfig).trans hp) hb more

/-- A file is written twice and its old buffer leaks; a third write is refused; then the file is
deleted with its directory. -/
theorem accounted_run_leak :
    let config : Config := { maxEntries := 4, writeSlack := 2, writePolicy := .leakOnReplace }
    let ops : List Operation :=
      [.createDirectory "d", .changeDirectory ⟨1⟩, .createFile "f", .write ⟨2⟩ [1, 2],
        .write ⟨2⟩ [3], .write ⟨2⟩ [4, 5, 6, 7], .delete ⟨1⟩]
    config.check = .ok () ∧
      ∃ s₀, fresh ⟨0⟩ config { limit := some 10 } = .ok s₀ ∧
        (s₀.run ops).Accounted config (some 10) (s₀.tally ops) ∧
        (config.writePolicy = .releaseOnReplace → ∀ ids, (s₀.run ops).table.ids ⊆ ids →
          ((s₀.run ops).run (ids.map .delete)).heap.stats.liveBuffers = 0 ∧
          ((s₀.run ops).run (ids.map .delete)).heap.stats.bytesInUse = 0) ∧
        (config.writePolicy = .leakOnReplace → ∀ b ∈ (s₀.tally ops).replaced, ∀ more,
          b.ticket ∈ ((s₀.run ops).run more).heap.live) :=
  ⟨rfl, accounted_run rfl ⟨0⟩ (some 10) _⟩

end FileTree.Store
