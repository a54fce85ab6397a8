import FileTree.Proofs.Heap.Calls

/-!
# Two heaps and the buffers of both

Buffers of two heaps are held side by side, and each may be handed to either heap, once. A heap
knows a buffer by its handle alone, and the two heaps number their buffers alike. So a heap takes a
buffer of the other for one of its own if the number is out, and then refuses its own.

## Main definitions

* `Side`: one of the two heaps
* `Exchange`: two heaps, the buffers that are held, and what either heap gave and took
* `Exchange.Deal`, `Exchange.deal`, `Exchange.run`: calls on either heap
* `Exchange.InOrder`: what every exchange comes down to

## Main results

* `Exchange.inOrder_run`: it holds after all calls, in whatever order
* `Exchange.release_iff_of_held`: which of the buffers that are held a heap takes back
* `Exchange.release_ok_of_foreign`: among them may be one that it never handed out
-/

namespace FileTree

/-- One of two heaps. -/
inductive Side where
  | left
  | right
  deriving DecidableEq

/-- The other one. -/
def Side.other : Side → Side
  | left => right
  | right => left

theorem Side.eq_other_of_ne {a b : Side} (h : a ≠ b) : a = b.other := by
  revert h
  cases a <;> cases b <;> decide

/-- Two heaps, and what became of their buffers. -/
structure Exchange where
  heap : Side → Heap
  /-- The buffers that are held, each with the heap that handed it out. -/
  held : List (Side × Buffer) := []
  /-- The buffers that a heap handed out. -/
  handedOut : Side → List Buffer := fun _ => []
  /-- The buffers that a heap took back, each with the heap that had handed it out. -/
  takenBack : Side → List (Side × Buffer) := fun _ => []

namespace Exchange

/-- Two heaps with the given limits, before any call. -/
def start (limit : Side → Option Nat) : Exchange where
  heap side := { limit := limit side }

/-- A call on one of the heaps: for a buffer, or to take back the buffer at the given place among
those that are held. -/
inductive Deal where
  | allocate (side : Side) (size : Nat)
  | release (side : Side) (place : Nat)
  deriving DecidableEq

/-- The exchange after a heap handed out a buffer. -/
def give (x : Exchange) (side : Side) (b : Buffer) (h : Heap) : Exchange :=
  { x with
    heap := Function.update x.heap side h
    held := x.held ++ [(side, b)]
    handedOut := Function.update x.handedOut side (x.handedOut side ++ [b]) }

/-- The exchange in which the buffer at the given place is not held any more. -/
def drop (x : Exchange) (place : Nat) : Exchange :=
  { x with held := x.held.eraseIdx place }

/-- The exchange after a heap took back the buffer at the given place. -/
def take (x : Exchange) (side : Side) (place : Nat) (p : Side × Buffer) (h : Heap) : Exchange :=
  { x.drop place with
    heap := Function.update x.heap side h
    takenBack := Function.update x.takenBack side (x.takenBack side ++ [p]) }

/-- The exchange after a call. A buffer that is handed to a heap is not held any more, whatever the
heap says to it. -/
def deal (x : Exchange) : Deal → Exchange
  | .allocate side size =>
    match (x.heap side).allocate size with
    | .ok (b, h) => x.give side b h
    | .error _ => x
  | .release side place =>
    match x.held[place]? with
    | none => x
    | some p =>
      match (x.heap side).release p.2 with
      | .ok h => x.take side place p h
      | .error _ => x.drop place

/-- The exchange after calls in order. -/
def run (x : Exchange) (deals : List Deal) : Exchange :=
  deals.foldl deal x

/-- What tells one buffer from all others: the heap that handed it out, and its handle. -/
def mark (p : Side × Buffer) : Side × Nat :=
  (p.1, p.2.handle)

/-- Either heap keeps its books. What is out has been handed out and did not come back, and nothing
comes back under a handle that was not handed out. What is held or came back has been handed out by
the heap that it is of, and what is held did not come back. -/
structure InOrder (x : Exchange) (limit : Side → Option Nat) : Prop where
  kept : ∀ side, (x.heap side).Kept (limit side) (x.handedOut side)
  mem_live_iff : ∀ side n, n ∈ (x.heap side).live.map Prod.fst ↔
    n ∈ (x.handedOut side).map Buffer.handle ∧ n ∉ (x.takenBack side).map (·.2.handle)
  handle_mem : ∀ side, ∀ q ∈ x.takenBack side, q.2.handle ∈ (x.handedOut side).map Buffer.handle
  held_handedOut : ∀ p ∈ x.held, p.2 ∈ x.handedOut p.1
  takenBack_handedOut : ∀ side, ∀ p ∈ x.takenBack side, p.2 ∈ x.handedOut p.1
  nodup_held : (x.held.map mark).Nodup
  held_not_takenBack : ∀ p ∈ x.held, ∀ side, ∀ q ∈ x.takenBack side, mark q ≠ mark p

variable {x : Exchange} {limit : Side → Option Nat} {side owner : Side} {size place : Nat}
  {b : Buffer} {h : Heap} {p : Side × Buffer}

theorem inOrder_start (limit : Side → Option Nat) : (start limit).InOrder limit where
  kept side := Heap.kept_new (limit side)
  mem_live_iff side n := by simp [start]
  handle_mem side q hq := by cases hq
  held_handedOut p hp := by cases hp
  takenBack_handedOut side p hp := by cases hp
  nodup_held := List.nodup_nil
  held_not_takenBack p hp := by cases hp

/-- A new buffer has a handle that its heap never gave out before. -/
theorem InOrder.handle_not_mem (hx : x.InOrder limit) {h' : Heap}
    (ha : (x.heap side).allocate size = .ok (b, h')) :
    b.handle ∉ (x.handedOut side).map Buffer.handle := by
  obtain ⟨rfl, -, -⟩ := Heap.allocate_eq_ok ha
  rw [(hx.kept side).handles_eq]
  exact fun hm => Nat.lt_irrefl _ (List.mem_range.mp hm)

/-- What was handed out before stays so. -/
theorem mem_update_append {given : Side → List Buffer} {b' : Buffer} (hb : b' ∈ given owner) :
    b' ∈ Function.update given side (given side ++ [b]) owner := by
  by_cases hs : owner = side
  · subst hs
    rw [Function.update_self]
    exact List.mem_append_left _ hb
  · rwa [Function.update_of_ne hs]

theorem InOrder.give (hx : x.InOrder limit) (ha : (x.heap side).allocate size = .ok (b, h)) :
    (x.give side b h).InOrder limit := by
  have hnew := hx.handle_not_mem ha
  have hmark : ∀ q : Side × Buffer, q.2 ∈ x.handedOut q.1 → mark q ≠ mark (side, b) := by
    rintro ⟨o, b'⟩ hq heq
    obtain ⟨rfl, hb⟩ := Prod.mk.inj heq
    exact hnew (hb ▸ List.mem_map_of_mem hq)
  refine ⟨fun s => ?_, fun s n => ?_, fun s q hq => ?_, fun q hq => ?_, fun s q hq => ?_, ?_,
    fun q hq s r hr => ?_⟩
  · by_cases hs : s = side
    · subst hs
      simp only [Exchange.give, Function.update_self]
      exact (hx.kept s).allocate ha
    · simp only [Exchange.give, Function.update_of_ne hs]
      exact hx.kept s
  · by_cases hs : s = side
    · subst hs
      simp only [Exchange.give, Function.update_self, Heap.live_of_allocate ha, List.map_cons,
        List.mem_cons, List.map_append, List.mem_append, List.map_nil, List.not_mem_nil, or_false,
        hx.mem_live_iff s n]
      constructor
      · rintro (rfl | ⟨hout, hback⟩)
        · -- what came back has been handed out, which the new handle has not
          refine ⟨.inr rfl, fun hm => ?_⟩
          obtain ⟨q, hq, heq⟩ := List.mem_map.mp hm
          exact hnew (heq ▸ hx.handle_mem s q hq)
        · exact ⟨.inl hout, hback⟩
      · rintro ⟨hout | rfl, hback⟩
        · exact .inr ⟨hout, hback⟩
        · exact .inl rfl
    · simp only [Exchange.give, Function.update_of_ne hs]
      exact hx.mem_live_iff s n
  · obtain ⟨b', hb', heq⟩ := List.mem_map.mp (hx.handle_mem s q hq)
    exact heq ▸ List.mem_map_of_mem (mem_update_append hb')
  · rcases List.mem_append.mp hq with hq | hq
    · exact mem_update_append (hx.held_handedOut q hq)
    · obtain rfl := List.mem_singleton.mp hq
      simp [Exchange.give]
  · exact mem_update_append (hx.takenBack_handedOut s q hq)
  · rw [Exchange.give, List.map_append, List.map_singleton, List.nodup_append]
    refine ⟨hx.nodup_held, List.nodup_singleton _, ?_⟩
    intro m hm m' hm'
    obtain ⟨q, hq, rfl⟩ := List.mem_map.mp hm
    obtain rfl := List.mem_singleton.mp hm'
    exact hmark q (hx.held_handedOut q hq)
  · rcases List.mem_append.mp hq with hq | hq
    · exact hx.held_not_takenBack q hq s r hr
    · obtain rfl := List.mem_singleton.mp hq
      exact hmark r (hx.takenBack_handedOut s r hr)

/-- A buffer that is handed to a heap is not held any more. -/
theorem InOrder.drop (hx : x.InOrder limit) (place : Nat) : (x.drop place).InOrder limit := by
  have hsub := List.eraseIdx_sublist x.held place
  exact { hx with
    held_handedOut := fun q hq => hx.held_handedOut q (hsub.subset hq)
    nodup_held := hx.nodup_held.sublist (hsub.map mark)
    held_not_takenBack := fun q hq => hx.held_not_takenBack q (hsub.subset hq) }

theorem InOrder.take (hx : x.InOrder limit) (hp : x.held[place]? = some p)
    (hr : (x.heap side).release p.2 = .ok h) : (x.take side place p h).InOrder limit := by
  have hmem := List.mem_of_getElem? hp
  have hout := (Heap.release_eq_ok_iff (hx.kept side).accepts).mp ⟨h, hr⟩
  have hsub := List.eraseIdx_sublist x.held place
  have hleft : ∀ q ∈ x.held.eraseIdx place, mark p ≠ mark q := by
    obtain ⟨hlt, rfl⟩ := List.getElem?_eq_some_iff.mp hp
    have hperm := (List.perm_cons_erase hmem).trans ((List.erase_getElem hlt).cons _)
    have hnd := (hperm.map mark).nodup_iff.mp hx.nodup_held
    intro q hq heq
    exact (List.nodup_cons.mp hnd).1 (heq ▸ List.mem_map_of_mem hq)
  have hback : ∀ s, ∀ q ∈ Function.update x.takenBack side (x.takenBack side ++ [p]) s,
      q ∈ x.takenBack s ∨ s = side ∧ q = p := by
    intro s q hq
    by_cases hs : s = side
    · subst hs
      rw [Function.update_self] at hq
      rcases List.mem_append.mp hq with hq | hq
      · exact .inl hq
      · exact .inr ⟨rfl, List.mem_singleton.mp hq⟩
    · rw [Function.update_of_ne hs] at hq
      exact .inl hq
  refine ⟨fun s => ?_, fun s n => ?_, fun s q hq => ?_, fun q hq => ?_, fun s q hq => ?_, ?_,
    fun q hq s r hr' => ?_⟩
  · by_cases hs : s = side
    · subst hs
      simp only [Exchange.take, Function.update_self]
      exact (hx.kept s).release hr
    · simp only [Exchange.take, Function.update_of_ne hs]
      exact hx.kept s
  · by_cases hs : s = side
    · subst hs
      simp only [Exchange.take, Function.update_self]
      rw [Heap.mem_live_of_release hr, hx.mem_live_iff s n]
      simp only [List.map_append, List.map_singleton, List.mem_append, List.mem_singleton, not_or,
        and_assoc]
      rfl
    · simp only [Exchange.take, Function.update_of_ne hs]
      exact hx.mem_live_iff s n
  · rcases hback s q hq with hq | ⟨rfl, rfl⟩
    · exact hx.handle_mem s q hq
    · exact ((hx.mem_live_iff s _).mp hout).1
  · exact hx.held_handedOut q (hsub.subset hq)
  · rcases hback s q hq with hq | ⟨rfl, rfl⟩
    · exact hx.takenBack_handedOut s q hq
    · exact hx.held_handedOut q hmem
  · exact hx.nodup_held.sublist (hsub.map mark)
  · rcases hback s r hr' with hr' | ⟨rfl, rfl⟩
    · exact hx.held_not_takenBack q (hsub.subset hq) s r hr'
    · exact hleft q hq

theorem InOrder.deal (hx : x.InOrder limit) (d : Deal) : (x.deal d).InOrder limit := by
  cases d with
  | allocate side size =>
    simp only [Exchange.deal]
    cases ha : (x.heap side).allocate size with
    | error e => exact hx
    | ok q => exact hx.give ha
  | release side place =>
    simp only [Exchange.deal]
    cases hp : x.held[place]? with
    | none => exact hx
    | some p =>
      dsimp only
      cases hr : (x.heap side).release p.2 with
      | error e => exact hx.drop place
      | ok h => exact hx.take hp hr

/-- Both heaps stay in order whatever calls are made on them. -/
theorem inOrder_run (limit : Side → Option Nat) (deals : List Deal) :
    ((start limit).run deals).InOrder limit := by
  induction deals using List.reverseRecOn with
  | nil => exact inOrder_start limit
  | append_singleton deals d ih =>
    rw [run, List.foldl_append]
    exact ih.deal d

/-- **A heap takes back the buffers whose number is out**: it gave the number out, and no buffer of
that number came back to it. All others it refuses under their handle, and stays as it is. So it is
the heap's own buffers that are taken back as long as the other heap has not given out the same
number. -/
theorem release_iff_of_held {limit : Side → Option Nat} {deals : List Deal} {x : Exchange}
    (hrun : (start limit).run deals = x) {owner : Side} {b : Buffer} (hb : (owner, b) ∈ x.held)
    (side : Side) :
    ((∃ h, (x.heap side).release b = .ok h) ↔
      b.handle ∈ (x.handedOut side).map Buffer.handle ∧
        b.handle ∉ (x.takenBack side).map (·.2.handle)) ∧
    (b.handle ∉ (x.handedOut owner.other).map Buffer.handle →
      ((∃ h, (x.heap side).release b = .ok h) ↔ owner = side)) ∧
    ∀ e, (x.heap side).release b = .error e →
      e = .unknownBuffer b.handle ∧ (x.heap side).after (.release b) = x.heap side := by
  subst hrun
  have hx := inOrder_run limit deals
  generalize (start limit).run deals = x at hx hb ⊢
  have hiff : (∃ h, (x.heap side).release b = .ok h) ↔
      b.handle ∈ (x.handedOut side).map Buffer.handle ∧
        b.handle ∉ (x.takenBack side).map (·.2.handle) :=
    (Heap.release_eq_ok_iff (hx.kept side).accepts).trans (hx.mem_live_iff side b.handle)
  refine ⟨hiff, fun hother => hiff.trans ⟨?_, ?_⟩, fun e he => ?_⟩
  · rintro ⟨hmem, -⟩
    by_contra hne
    exact hother (Side.eq_other_of_ne (Ne.symm hne) ▸ hmem)
  · rintro rfl
    refine ⟨List.mem_map_of_mem (hx.held_handedOut _ hb), fun hm => ?_⟩
    obtain ⟨⟨o, b'⟩, hq, heq⟩ := List.mem_map.mp hm
    by_cases ho : o = owner
    · exact hx.held_not_takenBack _ hb _ _ hq (Prod.ext ho heq)
    · have hgiven := hx.takenBack_handedOut _ _ hq
      exact hother (heq ▸ List.mem_map_of_mem (Side.eq_other_of_ne ho ▸ hgiven))
  · exact ⟨((Heap.release_eq_error_iff (hx.kept side).accepts).mp he).2,
      by simp only [Heap.after, he]⟩

/-- The left heap gave out one buffer and the right heap two. The left one refuses the second of
the right one, whose number it did not give out. -/
theorem release_iff_of_held_of_new_number :
    ∃ x, (start fun _ => none).run [.allocate .left 4, .allocate .right 8, .allocate .right 8] = x ∧
      (.right, Buffer.zeros 1 8) ∈ x.held ∧
      Buffer.handle (.zeros 1 8) ∉ (x.handedOut .left).map Buffer.handle ∧
      ¬ (∃ h, (x.heap .left).release (.zeros 1 8) = .ok h) ∧
      (x.heap .left).release (.zeros 1 8) = .error (.unknownBuffer 1) ∧
      (x.heap .left).after (.release (.zeros 1 8)) = x.heap .left := by
  have hheld : (Side.right, Buffer.zeros 1 8) ∈ ((start fun _ => none).run
      [.allocate .left 4, .allocate .right 8, .allocate .right 8]).held := by decide
  obtain ⟨-, howner, herror⟩ := release_iff_of_held rfl hheld .left
  have hrefused := herror (.unknownBuffer 1) rfl
  exact ⟨_, rfl, hheld, by decide, fun hok => absurd ((howner (by decide)).mp hok) (by decide), rfl,
    hrefused.2⟩

/-- The left heap takes back a buffer that it did not hand out, since it gave out the same number;
its own buffer of that number is then refused, though it never came back. -/
theorem release_ok_of_foreign :
    ∃ x, (start fun _ => none).run [.allocate .left 4, .allocate .right 8] = x ∧
      (.right, Buffer.zeros 0 8) ∈ x.held ∧ Buffer.zeros 0 8 ∉ x.handedOut .left ∧
      (∃ h, (x.heap .left).release (.zeros 0 8) = .ok h) ∧
      (.left, Buffer.zeros 0 4) ∈ (x.deal (.release .left 1)).held ∧
      ((x.deal (.release .left 1)).heap .left).release (.zeros 0 4) =
        .error (.unknownBuffer 0) :=
  ⟨_, rfl, by decide, by decide, ⟨_, rfl⟩, by decide, rfl⟩

end Exchange

end FileTree
