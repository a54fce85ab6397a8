import FileTree.Proofs.Store.Removal
import FileTree.Proofs.Table.Contents

/-!
# The heap and the tree agree

Every buffer that a heap has given for a write is held by an entry, or was replaced by a later
write, or went with a deleted entry. The books of the heap show exactly the buffers that are held
and, under the policy that leaks them, those that were replaced.

## Main definitions

* `Tally`: what a run has done with buffers
* `Store.tallyOf`, `Store.tally`: the tally of an operation, and of a run
* `Store.Ledger`: the books of the heap agree with the tree and a tally

## Main results

* `Store.Ledger.perform`, `Store.Ledger.run`: operations keep the books in agreement
-/

namespace FileTree

/-- What a run has done with buffers. -/
structure Tally where
  /-- Writes that succeeded. -/
  writes : Nat := 0
  /-- Buffers of the files that those writes found filled. -/
  replaced : List Buffer := []
  /-- Buffers of the entries that were deleted. -/
  deleted : List Buffer := []

namespace Tally

/-- One tally after another. -/
def join (t t' : Tally) : Tally where
  writes := t.writes + t'.writes
  replaced := t.replaced ++ t'.replaced
  deleted := t.deleted ++ t'.deleted

@[simp] theorem join_empty (t : Tally) : t.join {} = t := by
  simp [join]

@[simp] theorem empty_join (t : Tally) : ({} : Tally).join t = t := by
  simp [join]

theorem join_assoc (t₁ t₂ t₃ : Tally) : (t₁.join t₂).join t₃ = t₁.join (t₂.join t₃) := by
  simp [join, Nat.add_assoc]

/-- The buffers that are out though no entry holds them. -/
def leaked (t : Tally) : WritePolicy → List Buffer
  | .releaseOnReplace => []
  | .leakOnReplace => t.replaced

/-- The buffers that were offered back to the heap. -/
def offered (t : Tally) : WritePolicy → List Buffer
  | .releaseOnReplace => t.replaced ++ t.deleted
  | .leakOnReplace => t.deleted

end Tally

namespace Store

/-- What an operation does with buffers. -/
def tallyOf (s : Store) : Operation → Tally
  | .write id data =>
    match s.write id data with
    | (.ok _, _) => { writes := 1, replaced := (s.table.contentAt id).toList }
    | (.error _, _) => {}
  | .delete id =>
    match s.delete id with
    | (.ok _, after) =>
      { deleted := s.table.contents (s.table.ids.filter fun id => !after.table.isUsed id) }
    | (.error _, _) => {}
  | _ => {}

/-- What the operations of a run do with buffers. -/
def tally (s : Store) : List Operation → Tally
  | [] => {}
  | op :: ops => (s.tallyOf op).join ((s.perform op).2.tally ops)

/-- The books of the heap agree with the tree: exactly the buffers that entries hold are out, and
those that have leaked, after one was handed out for each write. -/
def Ledger (s : Store) (limit : Option Nat) (t : Tally) : Prop :=
  s.heap.Balances limit (s.table.held ++ t.leaked s.config.writePolicy) t.writes
    (t.offered s.config.writePolicy).length

variable {s s' : Store} {limit : Option Nat} {t : Tally} {id : EntryId} {e : Entry}

/-- A new store holds no buffer. -/
theorem held_init (id : StoreId) (config : Config) (heap : Heap) :
    (init id config heap).table.held = [] := by
  rw [List.eq_nil_iff_forall_not_mem]
  intro b hb
  obtain ⟨x, hx⟩ := Table.mem_held.mp hb
  change ((Table.new _).find? x).bind Entry.content = some b at hx
  rw [Table.find?_new] at hx
  split_ifs at hx <;> cases hx

theorem ledger_init (id : StoreId) (config : Config) (limit : Option Nat) :
    (init id config { limit := limit }).Ledger limit {} := by
  unfold Ledger
  rw [held_init]
  change Heap.Balances { limit := limit } limit ([] ++ Tally.leaked {} config.writePolicy) 0
    (Tally.offered {} config.writePolicy).length
  cases config.writePolicy <;> exact Heap.balances_new limit

/-- Only the heap, the policy and what the entries hold matter to the books. -/
theorem Ledger.congr (h : s.Ledger limit t) (hheap : s'.heap = s.heap)
    (hconfig : s'.config = s.config) (hheld : s'.table.held = s.table.held) :
    s'.Ledger limit t := by
  unfold Ledger
  rw [hheap, hconfig, hheld]
  exact h

theorem Ledger.join_empty (h : s.Ledger limit t) : s.Ledger limit (t.join {}) := by
  rwa [Tally.join_empty]

theorem Ledger.noted (h : s.Ledger limit t) (hn : s.Noted s') : s'.Ledger limit t := by
  obtain ⟨log, rfl, -⟩ := hn.exists_log
  exact h

/-! ## Operations that leave the heap alone -/

theorem Ledger.created {kind : EntryKind} {path : String}
    {outcome : Except StoreError EntryId × Store} (h : s.Ledger limit t) (hs : s.Sound)
    (ho : s.Created kind path outcome) : outcome.2.Ledger limit t := by
  cases ho with
  | refused hn => exact h.noted hn
  | found _ _ => exact h
  | made r _ _ hdir _ hfree =>
    refine h.congr rfl rfl (hs.coherent.held_attach hfree ?_ rfl)
    exact (hs.attachable hdir hfree).ne_parent

theorem Ledger.renamed {given : String} {outcome : Except StoreError Unit × Store}
    (h : s.Ledger limit t) (ho : s.Renamed id given outcome) : outcome.2.Ledger limit t := by
  cases ho with
  | refused => exact h
  | kept _ _ _ => exact h
  | renamed r _ _ _ _ _ => exact h.congr rfl rfl (Table.held_modify _ fun _ => rfl)

theorem Ledger.moved {outcome : Except StoreError Unit × Store} (h : s.Ledger limit t)
    (ho : s.Moved id outcome) : outcome.2.Ledger limit t := by
  cases ho with
  | refused => exact h
  | moved r _ _ => exact h

/-! ## Writing -/

/-- A buffer that is out and offered back is taken back. -/
theorem balances_takeBack {heap : Heap} {out : List Buffer} {given taken : Nat}
    {old : Option Buffer} (h : heap.Balances limit (old.toList ++ out) given taken) :
    (heap.takeBack old).Balances limit out given (taken + old.toList.length) := by
  cases old with
  | none => exact h
  | some b =>
    obtain ⟨heap', hr, h'⟩ := h.exists_release
    rw [Heap.takeBack, hr]
    exact h'

/-- A file filled from a new buffer holds that one and not the old one. -/
theorem held_filled {data : List UInt8} {buffer : Buffer} {heap : Heap}
    (hf : s.table.find? id = some e) :
    ((buffer.fill data) :: s.table.held).Perm
      (e.content.toList ++ (s.filled id e data buffer heap).table.held) := by
  have hsize : (s.filled id e data buffer heap).table.slots.size = s.table.slots.size := by
    simp [filled, Table.modify]
  have key := Table.held_perm hsize (Table.index_lt_of_find? hf) fun x hx => by
    rw [Table.contentAt, Table.contentAt, filled, Table.find?_modify, if_neg hx.symm]
  have hnew : (s.filled id e data buffer heap).table.contentAt id = some (buffer.fill data) := by
    rw [Table.contentAt, filled, Table.find?_modify, if_pos rfl, hf]
    rfl
  rw [hnew, Table.contentAt_of_find? hf] at key
  exact key

/-- When a file is filled the new buffer is out beside everything that was, and of that the old
buffer of the file is not held any more. -/
theorem out_perm_filled (hf : s.table.find? id = some e) (data : List UInt8) (buffer : Buffer)
    (heap : Heap) (others : List Buffer) :
    ((buffer :: (s.table.held ++ others)).map Buffer.ticket).Perm
      ((e.content.toList ++ ((s.filled id e data buffer heap).table.held ++ others)).map
        Buffer.ticket) := by
  have := ((@held_filled s id e data buffer heap hf).append_right others).map Buffer.ticket
  rwa [List.append_assoc] at this

/-- What is out before an entry is taken out is what the entry holds, and what is held after. -/
theorem out_perm_pruned (hf : s.table.find? id = some e) (others : List Buffer) :
    ((s.table.held ++ others).map Buffer.ticket).Perm
      ((e.content.toList ++ ((s.pruned id e).table.held ++ others)).map Buffer.ticket) := by
  rw [← List.append_assoc]
  exact ((Table.held_detach hf e.parent).append_right _).map _

/-- The old buffer of a rewritten file is taken back or leaks, as the policy has it. -/
theorem balances_retire {heap : Heap} {policy : WritePolicy} {held : List Buffer}
    {old : Option Buffer} {given : Nat}
    (h : heap.Balances limit (old.toList ++ (held ++ t.leaked policy)) given
      (t.offered policy).length) :
    (heap.retire policy old).Balances limit
      (held ++ (t.join { writes := 1, replaced := old.toList }).leaked policy) given
      ((t.join { writes := 1, replaced := old.toList }).offered policy).length := by
  cases policy with
  | releaseOnReplace =>
    have hlen : ((t.join { writes := 1, replaced := old.toList }).offered
        .releaseOnReplace).length = (t.offered .releaseOnReplace).length + old.toList.length := by
      simp only [Tally.offered, Tally.join, List.length_append, List.length_nil]
      omega
    rw [hlen]
    exact balances_takeBack h
  | leakOnReplace =>
    have hmove : (old.toList ++ (held ++ t.replaced)).Perm
        (held ++ (t.replaced ++ old.toList)) := by
      rw [← List.append_assoc held]
      exact List.perm_append_comm
    have := h.perm (hmove.map _)
    simpa [Heap.retire, Tally.join, Tally.leaked, Tally.offered] using this

theorem Ledger.filled {data : List UInt8} {buffer : Buffer} {heap : Heap} (log : Log)
    (h : s.Ledger limit t) (hf : s.table.find? id = some e)
    (ha : s.heap.allocate (data.length + s.config.writeSlack.toNat) = .ok (buffer, heap)) :
    { s.filled id e data buffer heap with log := log }.Ledger limit
      (t.join { writes := 1, replaced := e.content.toList }) :=
  balances_retire ((Heap.Balances.allocate h ha).perm (out_perm_filled hf data buffer heap _))

theorem Ledger.write (h : s.Ledger limit t) (id : EntryId) (data : List UInt8) :
    (s.write id data).2.Ledger limit (t.join (s.tallyOf (.write id data))) := by
  have ho := s.written_write id data
  simp only [tallyOf]
  generalize s.write id data = outcome at ho ⊢
  cases ho with
  | refused _ => simpa using h
  | exhausted _ hn => simpa using h.noted hn
  | @filled _ _ _ log _ hf hk ha =>
    simp only [Table.contentAt_of_find? hf]
    exact h.filled log hf ha

/-! ## Deleting -/

/-- The buffer of a deleted entry is taken back under either policy. -/
theorem balances_delete {heap : Heap} {policy : WritePolicy} {held : List Buffer}
    {old : Option Buffer} {given : Nat}
    (h : heap.Balances limit (old.toList ++ (held ++ t.leaked policy)) given
      (t.offered policy).length) :
    (heap.takeBack old).Balances limit
      (held ++ (t.join { deleted := old.toList }).leaked policy) given
      ((t.join { deleted := old.toList }).offered policy).length := by
  have hleaked : (t.join { deleted := old.toList }).leaked policy = t.leaked policy := by
    cases policy <;> simp [Tally.join, Tally.leaked]
  have hoffered : ((t.join { deleted := old.toList }).offered policy).length =
      (t.offered policy).length + old.toList.length := by
    cases policy <;> simp [Tally.join, Tally.offered, Nat.add_assoc]
  rw [hleaked, hoffered]
  exact balances_takeBack h

theorem Ledger.pruned (log : Log) (h : s.Ledger limit t) (hf : s.table.find? id = some e) :
    { s.pruned id e with log := log }.Ledger limit (t.join { deleted := e.content.toList }) :=
  balances_delete (Heap.Balances.perm h (out_perm_pruned hf _))

theorem Ledger.prunes {victims : List EntryId} (h : s.Ledger limit t) (hp : s.Prunes victims s')
    (hnd : victims.Nodup) :
    s'.Ledger limit (t.join { deleted := s.table.contents victims }) := by
  induction hp generalizing t with
  | nil => simpa [Table.contents] using h
  | @cons s s' id e rest log _ hd _ ih =>
    obtain ⟨hnot, hnd⟩ := List.nodup_cons.mp hnd
    have hrest := ih (h.pruned log hd.found) hnd
    rw [show (Store.pruned s id e).table.contents rest = s.table.contents rest from
      Table.contents_detach hnot e.parent, Tally.join_assoc] at hrest
    rw [Table.contents_cons hd.found]
    exact hrest

/-- Of the deleted buffers, only the number matters to the books. -/
theorem Ledger.of_length_deleted {t' : Tally} (h : s.Ledger limit t)
    (hw : t'.writes = t.writes) (hr : t'.replaced = t.replaced)
    (hd : t'.deleted.length = t.deleted.length) : s.Ledger limit t' := by
  unfold Ledger at h ⊢
  cases hp : s.config.writePolicy <;>
    simpa [hp, Tally.leaked, Tally.offered, hw, hr, hd] using h

/-- The entries taken out are those that were there before and are not after. -/
theorem Prunes.perm_filter {victims : List EntryId} (h : s.Prunes victims s') (hs : s.Sound)
    (hv : s.table.Removable victims) :
    (s.table.ids.filter fun id => !s'.table.isUsed id).Perm victims := by
  rw [List.perm_ext_iff_of_nodup (s.table.nodup_ids.filter _) hv.nodup]
  intro x
  rw [List.mem_filter, Table.mem_ids, Bool.not_eq_true', ← Bool.not_eq_true, h.isUsed_iff hs]
  constructor
  · rintro ⟨hx, hgone⟩
    by_contra hm
    exact hgone ⟨hx, hm⟩
  · exact fun hm => ⟨hv.used x hm, fun hleft => hleft.2 hm⟩

theorem Ledger.delete (h : s.Ledger limit t) (hs : s.Sound) (id : EntryId) :
    (s.delete id).2.Ledger limit (t.join (s.tallyOf (.delete id))) := by
  have ho := hs.deleted_delete id
  simp only [tallyOf]
  generalize s.delete id = outcome at ho ⊢
  cases ho with
  | refused _ => simpa using h
  | @deleted e order s' log _ hf hne hpre hnd hp =>
    have hv := hpre.removable_reverse hs.linked hne
    have hl := h.prunes hp hv.nodup
    have hlen := ((hp.perm_filter hs hv).filterMap s.table.contentAt).length_eq
    show s'.Ledger limit (t.join
      { deleted := s.table.contents (s.table.ids.filter fun x => !s'.table.isUsed x) })
    refine hl.of_length_deleted rfl rfl ?_
    simp only [Tally.join, List.length_append]
    exact congrArg (_ + ·) hlen

/-! ## Runs -/

/-- **Every operation keeps the books in agreement with the tree.** -/
theorem Ledger.perform (h : s.Ledger limit t) (hs : s.Sound) (op : Operation) :
    (s.perform op).2.Ledger limit (t.join (s.tallyOf op)) := by
  cases op with
  | createFile path => exact (h.created hs (s.created_create .file path)).join_empty
  | createDirectory path => exact (h.created hs (s.created_create .directory path)).join_empty
  | write id data => exact h.write id data
  | delete id => exact h.delete hs id
  | rename id name => exact (h.renamed (s.renamed_rename id name)).join_empty
  | changeDirectory id => exact (h.moved (s.moved_changeDirectory id)).join_empty

/-- **Every run keeps the books in agreement with the tree.** -/
theorem Ledger.run (h : s.Ledger limit t) (hs : s.Sound) (ops : List Operation) :
    (s.run ops).Ledger limit (t.join (s.tally ops)) := by
  induction ops generalizing s t with
  | nil => simpa [tally] using h
  | cons op ops ih =>
    have := ih (h.perform hs op) (hs.perform op)
    rwa [Tally.join_assoc] at this

end Store

end FileTree
