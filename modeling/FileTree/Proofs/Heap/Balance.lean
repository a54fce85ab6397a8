import FileTree.Heap
import Mathlib.Algebra.GroupWithZero.Nat
import Mathlib.Data.List.Nodup

/-!
# The books of a heap

The books of a heap balance when its counters agree with the handles that are out, no two of which
are the same. Handing out a buffer and taking one back keep the balance, and a buffer that is out
is not refused when it comes back.

## Main definitions

* `Buffer.ticket`: what the books keep of a buffer
* `Heap.Balances`: the books balance, with the given buffers out

## Main results

* `Heap.balances_new`: the books of a fresh heap balance
* `Heap.allocate_eq_ok`, `Heap.release_eq_ok`: what a heap does that does not refuse
* `Heap.Balances.allocate`, `Heap.Balances.exists_release`: so they do after a buffer was handed
  out or taken back, and a buffer that is out is taken back
-/

namespace FileTree

/-- What the books of a heap keep of a buffer: its handle and its capacity. -/
def Buffer.ticket (b : Buffer) : Nat × Nat :=
  (b.handle, b.capacity)

/-- Under distinct keys, what stands under a key is found, and nothing else goes with it. -/
theorem lookup_append_cons {α β : Type} [BEq α] [LawfulBEq α] {before after : List (α × β)}
    {k : α} {v : β} (hnd : ((before ++ (k, v) :: after).map Prod.fst).Nodup) :
    (before ++ (k, v) :: after).lookup k = some v ∧
      (before ++ (k, v) :: after).filter (·.1 != k) = before ++ after := by
  rw [List.map_append, List.map_cons, List.nodup_middle, List.nodup_cons, ← List.map_append] at hnd
  have hne : ∀ x ∈ before ++ after, x.1 ≠ k := fun x hx heq =>
    hnd.1 (List.mem_map.mpr ⟨x, hx, heq⟩)
  constructor
  · rw [List.lookup_eq_some_iff]
    refine ⟨before, after, rfl, fun p hp => ?_⟩
    exact bne_iff_ne.mpr (hne p (List.mem_append_left _ hp)).symm
  · rw [List.filter_append, List.filter_cons_of_neg (by simp), ← List.filter_append]
    exact List.filter_eq_self.mpr fun x hx => bne_iff_ne.mpr (hne x hx)

namespace Heap

/-- The books balance: exactly the buffers `out` are out, under handles of their own and within
the limit, after `given` were handed out and `taken` were taken back. -/
structure Balances (h : Heap) (limit : Option Nat) (out : List Buffer) (given taken : Nat) :
    Prop where
  limit_eq : h.limit = limit
  accepts : h.refusesReleases = false
  live : h.live.Perm (out.map Buffer.ticket)
  nodup : (h.live.map Prod.fst).Nodup
  handle_lt : ∀ x ∈ h.live, x.1 < h.nextHandle
  liveBuffers_eq : h.stats.liveBuffers = out.length
  bytesInUse_eq : h.stats.bytesInUse = (out.map Buffer.capacity).sum
  bytesInUse_le : ∀ ⦃n⦄, limit = some n → h.stats.bytesInUse ≤ n
  totalAllocations_eq : h.stats.totalAllocations = given
  totalReleases_eq : h.stats.totalReleases = taken
  given_eq : given = taken + out.length

theorem balances_new (limit : Option Nat) : ({ limit := limit } : Heap).Balances limit [] 0 0 where
  limit_eq := rfl
  accepts := rfl
  live := .nil
  nodup := .nil
  handle_lt x hx := by cases hx
  liveBuffers_eq := rfl
  bytesInUse_eq := rfl
  bytesInUse_le n _ := Nat.zero_le n
  totalAllocations_eq := rfl
  totalReleases_eq := rfl
  given_eq := rfl

variable {h h' : Heap} {limit : Option Nat} {out out' : List Buffer} {given taken size : Nat}
  {b : Buffer}

/-- The order of the buffers does not matter to the books, nor does their content. -/
theorem Balances.perm (hb : h.Balances limit out given taken)
    (hp : (out.map Buffer.ticket).Perm (out'.map Buffer.ticket)) :
    h.Balances limit out' given taken := by
  have hlen : out.length = out'.length := by
    have := hp.length_eq
    rwa [List.length_map, List.length_map] at this
  have hsum : (out.map Buffer.capacity).sum = (out'.map Buffer.capacity).sum := by
    have := (hp.map Prod.snd).sum_nat
    rwa [List.map_map, List.map_map] at this
  exact { hb with
    live := hb.live.trans hp
    liveBuffers_eq := hb.liveBuffers_eq.trans hlen
    bytesInUse_eq := hb.bytesInUse_eq.trans hsum
    given_eq := by rw [hb.given_eq, hlen] }

/-- What a heap grants fits into what its limit leaves. -/
theorem allocate_eq_ok {h h' : Heap} {size : Nat} {b : Buffer}
    (ha : h.allocate size = .ok (b, h')) :
    b = Buffer.zeros h.nextHandle size ∧ h' = h.lend size ∧
      ∀ n, h.limit = some n → h.stats.bytesInUse ≤ n → h.stats.bytesInUse + size ≤ n := by
  unfold allocate available at ha
  cases hl : h.limit with
  | none =>
    simp only [hl, Option.map_none, Except.ok.injEq, Prod.mk.injEq] at ha
    exact ⟨ha.1.symm, ha.2.symm, fun n hn => by cases hn⟩
  | some m =>
    simp only [hl, Option.map_some] at ha
    split_ifs at ha with hgt
    cases ha
    refine ⟨rfl, rfl, fun n hn hle => ?_⟩
    obtain rfl := Option.some.inj hn
    omega

/-- A heap without a limit hands out whatever is asked for. -/
theorem allocate_of_limit_none (hl : h.limit = none) (size : Nat) :
    h.allocate size = .ok (Buffer.zeros h.nextHandle size, h.lend size) := by
  simp only [allocate, available, hl, Option.map_none]

/-- What is taken back was out, and goes off the books. -/
theorem release_eq_ok (hr : h.release b = .ok h') : ∃ size, h.live.lookup b.handle = some size ∧
    h' = { h with
      live := h.live.filter (·.1 != b.handle)
      stats := { h.stats with
        liveBuffers := h.stats.liveBuffers - 1
        bytesInUse := h.stats.bytesInUse - size
        totalReleases := h.stats.totalReleases + 1 } } := by
  unfold release at hr
  split_ifs at hr
  split at hr
  · cases hr
  · rename_i size hlookup
    exact ⟨size, hlookup, (Except.ok.inj hr).symm⟩

/-- Handing out a buffer keeps the balance. -/
theorem Balances.allocate (hb : h.Balances limit out given taken)
    (ha : h.allocate size = .ok (b, h')) : h'.Balances limit (b :: out) (given + 1) taken := by
  obtain ⟨rfl, rfl, hroom⟩ := allocate_eq_ok ha
  -- The handles that are out are below the next one, which is therefore new.
  have hnew : h.nextHandle ∉ h.live.map Prod.fst := fun hm => by
    obtain ⟨x, hx, heq⟩ := List.mem_map.mp hm
    exact Nat.lt_irrefl _ (heq ▸ hb.handle_lt x hx)
  refine ⟨hb.limit_eq, hb.accepts, hb.live.cons _, List.nodup_cons.mpr ⟨hnew, hb.nodup⟩, ?_, ?_, ?_,
    ?_, ?_, hb.totalReleases_eq, ?_⟩
  · intro x hx
    rcases List.mem_cons.mp hx with rfl | hx
    · exact Nat.lt_succ_self _
    · exact Nat.lt_succ_of_lt (hb.handle_lt x hx)
  · exact congrArg (· + 1) hb.liveBuffers_eq
  · rw [List.map_cons, List.sum_cons, ← hb.bytesInUse_eq]
    exact Nat.add_comm _ _
  · intro n hn
    exact hroom n (hb.limit_eq.trans hn) (hb.bytesInUse_le hn)
  · exact congrArg (· + 1) hb.totalAllocations_eq
  · rw [List.length_cons, hb.given_eq]
    omega

/-- A buffer that is out is taken back, which keeps the balance. -/
theorem Balances.exists_release (hb : h.Balances limit (b :: out) given taken) :
    ∃ h', h.release b = .ok h' ∧ h'.Balances limit out given (taken + 1) := by
  obtain ⟨before, after, hlive⟩ : ∃ before after,
      h.live = before ++ (b.handle, b.capacity) :: after :=
    List.append_of_mem (hb.live.mem_iff.mpr (List.mem_cons_self ..))
  have hnd := hb.nodup
  rw [hlive] at hnd
  obtain ⟨hlookup, hfilter⟩ := lookup_append_cons hnd
  rw [← hlive] at hlookup hfilter
  have hsub : (before ++ after).Sublist h.live := by
    rw [hlive]
    exact (List.sublist_cons_self _ _).append_left _
  have hrest : (before ++ after).Perm (out.map Buffer.ticket) := by
    have := hb.live
    rw [hlive] at this
    exact (List.perm_middle.symm.trans this).cons_inv
  refine ⟨_, by simp only [release, hb.accepts, Bool.false_eq_true, if_false, hlookup]; rfl, ?_⟩
  rw [hfilter]
  have hlen := hb.liveBuffers_eq
  have hbytes := hb.bytesInUse_eq
  have hgiven := hb.given_eq
  rw [List.length_cons] at hlen hgiven
  rw [List.map_cons, List.sum_cons] at hbytes
  refine ⟨hb.limit_eq, rfl, hrest, hb.nodup.sublist (hsub.map _),
    fun x hx => hb.handle_lt x (hsub.subset hx), ?_, ?_, ?_, hb.totalAllocations_eq,
    congrArg (· + 1) hb.totalReleases_eq, ?_⟩
  · show h.stats.liveBuffers - 1 = _
    omega
  · show h.stats.bytesInUse - b.capacity = _
    omega
  · intro n hn
    exact Nat.le_trans (Nat.sub_le _ _) (hb.bytesInUse_le hn)
  · omega

end Heap

end FileTree
