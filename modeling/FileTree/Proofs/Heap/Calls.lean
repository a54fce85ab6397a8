import FileTree.Proofs.Heap.Balance
import Mathlib.Data.List.Induction

/-!
# Calls on a heap

A heap is called in any order and with any buffers: one that is out, one that came back before, one
of another heap under whatever handle. Some buffers never come back. The books keep the balance all
the same: a buffer is taken back exactly when its handle is out, and then the counters lose what
that handle had added to them.

## Main definitions

* `Heap.Call`: what is asked of a heap
* `Heap.after`, `Heap.run`: the heap after a call, and after a row of them
* `Heap.handsOut?`, `Heap.handedOut`: the buffers that are handed out meanwhile
* `Heap.Kept`: the books balance, and the handles were given out in order

## Main results

* `Heap.release_eq_ok_iff`, `Heap.release_eq_error_iff`: which buffers are taken back
* `Heap.Balances.release`: taking a buffer back keeps the balance, wherever the buffer is from
* `Heap.kept_run`, `Heap.balance_of_run`: so does every row of calls
-/

namespace FileTree.Heap

/-- What is asked of a heap: a buffer of the given size, or to take back a buffer, which may be from
anywhere. -/
inductive Call where
  | allocate (size : Nat)
  | release (b : Buffer)
  deriving DecidableEq

/-- The heap after a call; a refusal leaves it as it is. -/
def after (h : Heap) : Call → Heap
  | .allocate size =>
    match h.allocate size with
    | .ok (_, h') => h'
    | .error _ => h
  | .release b =>
    match h.release b with
    | .ok h' => h'
    | .error _ => h

/-- The heap after calls in order. -/
def run (h : Heap) (calls : List Call) : Heap :=
  calls.foldl after h

/-- The buffer that a call hands out, if it hands one out. -/
def handsOut? (h : Heap) : Call → Option Buffer
  | .allocate size => (h.allocate size).toOption.map Prod.fst
  | .release _ => none

/-- The buffers that calls in order hand out, the first one first. -/
def handedOut (h : Heap) : List Call → List Buffer
  | [] => []
  | c :: calls => (h.handsOut? c).toList ++ (h.after c).handedOut calls

variable {h h' : Heap} {limit : Option Nat} {out issued : List Buffer} {given taken size : Nat}
  {b : Buffer}

theorem run_concat (h : Heap) (calls : List Call) (c : Call) :
    h.run (calls ++ [c]) = (h.run calls).after c := by
  rw [run, List.foldl_append]
  rfl

theorem handedOut_concat (h : Heap) (calls : List Call) (c : Call) :
    h.handedOut (calls ++ [c]) = h.handedOut calls ++ ((h.run calls).handsOut? c).toList := by
  induction calls generalizing h with
  | nil => simp [handedOut, run]
  | cons first calls ih =>
    rw [List.cons_append, handedOut, handedOut, ih (h.after first), List.append_assoc]
    rfl

/-! ## Which buffers are taken back -/

/-- What is looked up in the books is on them. -/
theorem mem_live_of_lookup {n : Nat} (hl : h.live.lookup n = some size) : (n, size) ∈ h.live := by
  obtain ⟨before, later, heq, -⟩ := List.lookup_eq_some_iff.mp hl
  rw [heq]
  exact List.mem_append_right _ (List.mem_cons_self ..)

/-- A buffer is taken back exactly when its handle is out, whoever handed the buffer out. -/
theorem release_eq_ok_iff (ha : h.refusesReleases = false) :
    (∃ h', h.release b = .ok h') ↔ b.handle ∈ h.live.map Prod.fst := by
  constructor
  · rintro ⟨h', hr⟩
    obtain ⟨size, hl, -⟩ := release_eq_ok hr
    exact List.mem_map.mpr ⟨_, mem_live_of_lookup hl, rfl⟩
  · intro hm
    cases hl : h.live.lookup b.handle with
    | none =>
      obtain ⟨x, hx, heq⟩ := List.mem_map.mp hm
      have hne := List.lookup_eq_none_iff.mp hl x hx
      exact absurd heq.symm (bne_iff_ne.mp hne)
    | some size => exact ⟨_, by simp only [release, ha, Bool.false_eq_true, if_false, hl]; rfl⟩

/-- Every other buffer is refused under its handle. -/
theorem release_eq_error_iff (ha : h.refusesReleases = false) {e : HeapError} :
    h.release b = .error e ↔ b.handle ∉ h.live.map Prod.fst ∧ e = .unknownBuffer b.handle := by
  rw [← release_eq_ok_iff ha, not_exists]
  unfold release
  rw [if_neg (by simp [ha])]
  cases h.live.lookup b.handle with
  | none => simp [eq_comm]
  | some size => simp

/-- The handles that are out after a buffer was handed out. -/
theorem live_of_allocate (ha : h.allocate size = .ok (b, h')) :
    h'.live = (b.handle, size) :: h.live := by
  obtain ⟨rfl, rfl, -⟩ := allocate_eq_ok ha
  rfl

/-- The handles that are out after a buffer was taken back. -/
theorem mem_live_of_release (hr : h.release b = .ok h') (n : Nat) :
    n ∈ h'.live.map Prod.fst ↔ n ∈ h.live.map Prod.fst ∧ n ≠ b.handle := by
  obtain ⟨size, -, rfl⟩ := release_eq_ok hr
  simp only [List.mem_map, List.mem_filter, bne_iff_ne]
  constructor
  · rintro ⟨y, ⟨hy, hne⟩, rfl⟩
    exact ⟨⟨y, hy, rfl⟩, hne⟩
  · rintro ⟨⟨y, hy, rfl⟩, hne⟩
    exact ⟨y, ⟨hy, hne⟩, rfl⟩

/-- A heap refuses what its limit does not leave, and says how much that is. -/
theorem allocate_eq_error_iff {n : Nat} (hl : h.limit = some n) {e : HeapError} :
    h.allocate size = .error e ↔
      n - h.stats.bytesInUse < size ∧ e = .outOfMemory size (n - h.stats.bytesInUse) := by
  simp only [allocate, available, hl, Option.map_some]
  by_cases hgt : size > n - h.stats.bytesInUse
  · rw [if_pos hgt, Except.error.injEq]
    exact ⟨fun heq => ⟨hgt, heq.symm⟩, fun heq => heq.2.symm⟩
  · rw [if_neg hgt]
    constructor
    · intro hok
      cases hok
    · rintro ⟨hlt, -⟩
      exact absurd hlt hgt

/-! ## The balance -/

/-- A heap looks at nothing but the handle of what comes back. -/
theorem release_congr {b' : Buffer} (hb : b'.handle = b.handle) :
    h.release b' = h.release b := by
  unfold release
  rw [hb]

/-- Taking a buffer back keeps the balance: one of the buffers that are out goes off the books, the
one that has its handle. -/
theorem Balances.release (hb : h.Balances limit out given taken) (hr : h.release b = .ok h') :
    ∃ b' out', b'.handle = b.handle ∧ out.Perm (b' :: out') ∧
      h'.Balances limit out' given (taken + 1) := by
  have hm := (release_eq_ok_iff hb.accepts).mp ⟨h', hr⟩
  rw [List.Perm.mem_iff (hb.live.map Prod.fst), List.map_map] at hm
  obtain ⟨b', hmem, hhandle⟩ := List.mem_map.mp hm
  obtain ⟨before, later, heq⟩ := List.append_of_mem hmem
  have hperm : out.Perm (b' :: (before ++ later)) := heq ▸ List.perm_middle
  obtain ⟨h'', hr', hb'⟩ := (hb.perm (hperm.map _)).exists_release
  rw [release_congr hhandle, hr] at hr'
  cases hr'
  exact ⟨b', before ++ later, hhandle, hperm, hb'⟩

/-- What goes off the books with a buffer was on them: no counter falls below zero. -/
theorem Balances.counters_of_release (hb : h.Balances limit out given taken)
    (hr : h.release b = .ok h') :
    ∃ size, (b.handle, size) ∈ h.live ∧
      h'.stats.liveBuffers + 1 = h.stats.liveBuffers ∧
      h'.stats.bytesInUse + size = h.stats.bytesInUse := by
  obtain ⟨b', out', hhandle, hperm, hb'⟩ := hb.release hr
  have hmem : b' ∈ out := hperm.mem_iff.mpr (List.mem_cons_self ..)
  refine ⟨b'.capacity, ?_, ?_, ?_⟩
  · exact hb.live.mem_iff.mpr (List.mem_map.mpr ⟨b', hmem, by rw [Buffer.ticket, hhandle]⟩)
  · rw [hb'.liveBuffers_eq, hb.liveBuffers_eq, hperm.length_eq, List.length_cons]
  · have hsum := (hperm.map Buffer.capacity).sum_nat
    rw [List.map_cons, List.sum_cons] at hsum
    rw [hb'.bytesInUse_eq, hb.bytesInUse_eq, hsum, Nat.add_comm]

/-- The books balance, every buffer that is out was handed out, and the handles were given out in
order. -/
structure Kept (h : Heap) (limit : Option Nat) (issued : List Buffer) : Prop where
  balances : ∃ out taken, h.Balances limit out issued.length taken ∧ out ⊆ issued
  handles_eq : issued.map Buffer.handle = List.range h.nextHandle

theorem kept_new (limit : Option Nat) : ({ limit := limit } : Heap).Kept limit [] :=
  ⟨⟨[], 0, balances_new limit, List.nil_subset _⟩, rfl⟩

theorem Kept.nodup (hk : h.Kept limit issued) : (issued.map Buffer.handle).Nodup :=
  hk.handles_eq ▸ List.nodup_range

theorem Kept.limit_eq (hk : h.Kept limit issued) : h.limit = limit := by
  obtain ⟨out, taken, hb, -⟩ := hk.balances
  exact hb.limit_eq

theorem Kept.accepts (hk : h.Kept limit issued) : h.refusesReleases = false := by
  obtain ⟨out, taken, hb, -⟩ := hk.balances
  exact hb.accepts

theorem Kept.allocate (hk : h.Kept limit issued) (ha : h.allocate size = .ok (b, h')) :
    h'.Kept limit (issued ++ [b]) := by
  obtain ⟨out, taken, hb, hsub⟩ := hk.balances
  refine ⟨⟨b :: out, taken, ?_, ?_⟩, ?_⟩
  · rw [List.length_append, List.length_singleton]
    exact hb.allocate ha
  · apply List.cons_subset.mpr
    exact ⟨List.mem_append_right _ (List.mem_singleton_self b),
      fun x hx => List.mem_append_left _ (hsub hx)⟩
  · obtain ⟨rfl, rfl, -⟩ := allocate_eq_ok ha
    rw [List.map_append, hk.handles_eq]
    exact List.range_succ.symm

theorem Kept.release (hk : h.Kept limit issued) (hr : h.release b = .ok h') :
    h'.Kept limit issued := by
  obtain ⟨out, taken, hb, hsub⟩ := hk.balances
  obtain ⟨b', out', -, hperm, hb'⟩ := hb.release hr
  refine ⟨⟨out', taken + 1, hb', ?_⟩, ?_⟩
  · exact fun x hx => hsub (hperm.mem_iff.mpr (List.mem_cons_of_mem _ hx))
  · obtain ⟨size, -, rfl⟩ := release_eq_ok hr
    exact hk.handles_eq

/-- One call keeps the books. -/
theorem Kept.after (hk : h.Kept limit issued) (c : Call) :
    (h.after c).Kept limit (issued ++ (h.handsOut? c).toList) := by
  cases c with
  | allocate size =>
    simp only [Heap.after, handsOut?]
    cases ha : h.allocate size with
    | error e => simpa [Except.toOption] using hk
    | ok p => exact hk.allocate ha
  | release b =>
    simp only [Heap.after, handsOut?, Option.toList_none, List.append_nil]
    cases hr : h.release b with
    | error e => exact hk
    | ok h' => exact hk.release hr

/-- The books of a fresh heap are kept by every row of calls. -/
theorem kept_run (limit : Option Nat) (calls : List Call) :
    (run { limit := limit } calls).Kept limit (handedOut { limit := limit } calls) := by
  induction calls using List.reverseRecOn with
  | nil => exact kept_new limit
  | append_singleton calls c ih =>
    rw [run_concat, handedOut_concat]
    exact ih.after c

/-- **The books of a heap balance after every row of calls**, whatever buffers are handed to it.
The counters say what is out, and none falls below zero; no two buffers have one handle; a new
buffer has the size asked for and is all zero. A limit is never passed, and a request is refused
exactly when it would pass it, which changes nothing. -/
theorem balance_of_run {limit : Option Nat} {calls : List Call} {h : Heap}
    (hrun : run { limit := limit } calls = h) :
    h.stats.liveBuffers = h.live.length ∧
    (h.live.map Prod.fst).Nodup ∧
    h.stats.bytesInUse = (h.live.map Prod.snd).sum ∧
    h.stats.totalAllocations = h.stats.totalReleases + h.stats.liveBuffers ∧
    ((handedOut { limit := limit } calls).map Buffer.handle).Nodup ∧
    (∀ b h', h.release b = .ok h' → ∃ size, (b.handle, size) ∈ h.live ∧
      h'.stats.liveBuffers + 1 = h.stats.liveBuffers ∧
      h'.stats.bytesInUse + size = h.stats.bytesInUse) ∧
    (∀ size b h', h.allocate size = .ok (b, h') →
      b.capacity = size ∧ b.bytes = List.replicate size 0 ∧
        b.handle ∉ (handedOut { limit := limit } calls).map Buffer.handle) ∧
    (limit = none → ∀ size, ∃ b h', h.allocate size = .ok (b, h')) ∧
    ∀ L, limit = some L → h.stats.bytesInUse ≤ L ∧
      ∀ size, (h.allocate size = .error (.outOfMemory size (L - h.stats.bytesInUse)) ↔
          size > L - h.stats.bytesInUse) ∧
        ∀ e, h.allocate size = .error e →
          e = .outOfMemory size (L - h.stats.bytesInUse) ∧ h.after (.allocate size) = h := by
  subst hrun
  -- From here on all that matters is that the books are kept, not by which calls.
  have hk := kept_run limit calls
  generalize run { limit := limit } calls = h at hk ⊢
  generalize handedOut { limit := limit } calls = issued at hk ⊢
  obtain ⟨out, taken, hb, -⟩ := hk.balances
  refine ⟨?_, hb.nodup, ?_, ?_, hk.nodup, fun b h' hr => hb.counters_of_release hr, ?_, ?_, ?_⟩
  · rw [hb.liveBuffers_eq, hb.live.length_eq, List.length_map]
  · rw [hb.bytesInUse_eq, (hb.live.map Prod.snd).sum_nat, List.map_map]
    rfl
  · rw [hb.totalAllocations_eq, hb.totalReleases_eq, hb.liveBuffers_eq]
    exact hb.given_eq
  · intro size b h' ha
    obtain ⟨rfl, -, -⟩ := allocate_eq_ok ha
    refine ⟨rfl, Buffer.bytes_zeros _ _, ?_⟩
    rw [hk.handles_eq]
    exact fun hm => Nat.lt_irrefl _ (List.mem_range.mp hm)
  · intro hnone size
    exact ⟨_, _, allocate_of_limit_none (hk.limit_eq.trans hnone) size⟩
  · intro L hL
    have hlimit := hk.limit_eq.trans hL
    refine ⟨hb.bytesInUse_le hL, fun size => ⟨?_, ?_⟩⟩
    · rw [allocate_eq_error_iff hlimit]
      exact ⟨And.left, fun hgt => ⟨hgt, rfl⟩⟩
    · intro e he
      exact ⟨((allocate_eq_error_iff hlimit).mp he).2, by simp only [Heap.after, he]⟩

/-- A heap of ten bytes that was handed a buffer of another heap: two bytes are out, eight more are
granted and nine are not. -/
theorem balance_of_run_of_foreign_buffer :
    ∃ h, run { limit := some 10 } [.allocate 4, .release (.zeros 7 4), .allocate 2,
        .release (.zeros 0 4)] = h ∧
      h.live = [(1, 2)] ∧ h.stats.liveBuffers = h.live.length ∧
      h.stats.bytesInUse = (h.live.map Prod.snd).sum ∧
      h.stats.totalAllocations = h.stats.totalReleases + h.stats.liveBuffers ∧
      (∃ h' size, h.release (.zeros 1 2) = .ok h' ∧ (1, size) ∈ h.live ∧
        h'.stats.bytesInUse + size = h.stats.bytesInUse) ∧
      (∃ b h', h.allocate 8 = .ok (b, h') ∧ b.bytes = List.replicate 8 0) ∧
      h.allocate 9 = .error (.outOfMemory 9 (10 - h.stats.bytesInUse)) ∧
      h.after (.allocate 9) = h := by
  obtain ⟨hlive, -, hbytes, htotal, -, hback, hnew, -, hlimit⟩ := @balance_of_run (some 10)
    [.allocate 4, .release (.zeros 7 4), .allocate 2, .release (.zeros 0 4)] _ rfl
  obtain ⟨size, hmem, -, hsize⟩ := hback (.zeros 1 2) _ rfl
  obtain ⟨hle, hanswer⟩ := hlimit 10 rfl
  have hnine := (hanswer 9).1.mpr (by decide)
  exact ⟨_, rfl, rfl, hlive, hbytes, htotal, ⟨_, size, rfl, hmem, hsize⟩,
    ⟨_, _, rfl, (hnew 8 _ _ rfl).2.1⟩, hnine, ((hanswer 9).2 _ hnine).2⟩

end FileTree.Heap
