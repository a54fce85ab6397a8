import FileTree.Proofs.Session.Files

/-!
# How descriptors are handed out

A table that starts empty takes calls in any order: files are opened and closed, and positions
moved.  Holes appear wherever a file is closed.  The files still stand in order and below the
limit, which is all that the search for a gap relies on; so the table hands out the lowest number
that is free, refuses only when there is none, and a number means one file from the time it is
handed out until it is closed.

## Main definitions

* `OpenFiles.Call`, `OpenFiles.run`: what is asked of a table, and the table after a list of calls
* `OpenFiles.handedOut`: the descriptors that a list of calls hands out
* `OpenFiles.Called`: what a call can come to
* `OpenFiles.Within`: the files stand in order, and below the limit
* `OpenFiles.HandsOut`: what a table does with the next call, and with those after it

## Main results

* `OpenFiles.Within.call`, `OpenFiles.Within.run`: no call puts a file out of order or over the
  limit
* `OpenFiles.handsOut_run`: every table that calls lead to hands out its descriptors properly
-/

namespace FileTree.OpenFiles

/-- What can be asked of the open files. -/
inductive Call
  | acquire (entry : EntryId) (generation : UInt32)
  | close (fd : Descriptor)
  | seek (fd : Descriptor) (offset : Nat)
  deriving DecidableEq

/-- The open files after a call.  A call that is refused changes nothing. -/
def call (t : OpenFiles) : Call → OpenFiles
  | .acquire entry generation =>
    match t.acquire entry generation with
    | .ok (_, t') => t'
    | .error _ => t
  | .close fd =>
    match t.close fd with
    | .ok (_, t') => t'
    | .error _ => t
  | .seek fd offset => t.seek fd offset

/-- The open files after one call after another. -/
def run (t : OpenFiles) (calls : List Call) : OpenFiles :=
  calls.foldl call t

/-- The descriptor that a call hands out, when it does. -/
def given? (t : OpenFiles) : Call → Option Descriptor
  | .acquire entry generation => (t.acquire entry generation).toOption.map Prod.fst
  | .close _ | .seek _ _ => none

/-- The descriptors that are handed out in the course of the calls. -/
def handedOut (t : OpenFiles) : List Call → List Descriptor
  | [] => []
  | c :: calls => (t.given? c).toList ++ (t.call c).handedOut calls

variable {t t' : OpenFiles} {fd other : Descriptor} {file : OpenFile} {entry : EntryId}
  {generation : UInt32} {c : Call}

theorem call_acquire (ha : t.acquire entry generation = .ok (fd, t')) :
    t.call (.acquire entry generation) = t' := by
  rw [call, ha]

theorem call_close (hc : t.close fd = .ok (file, t')) : t.call (.close fd) = t' := by
  rw [call, hc]

theorem call_of_refused {cause : SyscallError} (ha : t.acquire entry generation = .error cause) :
    t.call (.acquire entry generation) = t := by
  rw [call, ha]

/-- What a call can come to: the descriptor that it hands out, and the open files after it. -/
inductive Called (t : OpenFiles) : Call → Option Descriptor → OpenFiles → Prop
  | acquired {entry : EntryId} {generation : UInt32} {fd : Descriptor} {t' : OpenFiles} :
      t.acquire entry generation = .ok (fd, t') → Called t (.acquire entry generation) (some fd) t'
  | closed {fd : Descriptor} {file : OpenFile} {t' : OpenFiles} :
      t.close fd = .ok (file, t') → Called t (.close fd) none t'
  | moved (fd : Descriptor) (offset : Nat) :
      Called t (.seek fd offset) none (t.seek fd offset)
  | refused (c : Call) : Called t c none t

theorem called_call (t : OpenFiles) (c : Call) : t.Called c (t.given? c) (t.call c) := by
  cases c with
  | acquire entry generation =>
    rw [given?, call]
    cases ha : t.acquire entry generation with
    | error cause => exact .refused _
    | ok p => exact .acquired ha
  | close fd =>
    rw [given?, call]
    cases hc : t.close fd with
    | error cause => exact .refused _
    | ok p => exact .closed hc
  | seek fd offset => exact .moved fd offset

/-! ## The number that is handed out -/

/-- Every number before the one that is handed out is in use. -/
theorem find?_ne_none_of_lt_acquire (ha : t.acquire entry generation = .ok (fd, t'))
    (hle : firstNumber ≤ other.number.toNat) (hlt : other.number.toNat < fd.number.toNat) :
    t.find? other ≠ none := by
  have hused := isSome_find?_of_lt_firstGap hle ((number_of_acquire ha).1 ▸ hlt)
  rw [show (⟨other.number.toNat.toUInt32⟩ : Descriptor) = other from
    congrArg Descriptor.mk UInt32.ofNat_toNat] at hused
  exact Option.isSome_iff_ne_none.mp hused

/-! ## What every call keeps -/

/-- The files stand in order, on numbers below the limit. -/
structure Within (t : OpenFiles) : Prop extends t.Ordered where
  lt_limit : ∀ fd, t.find? fd ≠ none → fd.number.toNat < limit

theorem within_empty : ({} : OpenFiles).Within where
  toOrdered := ordered_empty
  lt_limit _ h := absurd rfl h

theorem Within.acquire (h : t.Within) (ha : t.acquire entry generation = .ok (fd, t')) :
    t'.Within := by
  obtain ⟨hordered, -, -, hfind⟩ := h.toOrdered.acquire ha
  refine ⟨hordered, fun other hused => ?_⟩
  rw [hfind] at hused
  split_ifs at hused with heq
  · exact heq ▸ (number_of_acquire ha).2.1
  · exact h.lt_limit other hused

theorem Within.close (h : t.Within) (hc : t.close fd = .ok (file, t')) : t'.Within := by
  refine ⟨(h.toOrdered.close hc).1, fun other hused => ?_⟩
  rw [find?_of_close hc] at hused
  split_ifs at hused
  · exact absurd rfl hused
  · exact h.lt_limit other hused

theorem Within.seek (h : t.Within) (fd : Descriptor) (offset : Nat) :
    (t.seek fd offset).Within := by
  refine ⟨h.toOrdered.seek fd offset, fun other hused => h.lt_limit other ?_⟩
  rw [find?_seek] at hused
  split_ifs at hused
  · exact fun hnone => hused (by rw [hnone, Option.map_none])
  · exact hused

theorem Within.call (h : t.Within) (c : Call) : (t.call c).Within := by
  have hcalled := t.called_call c
  generalize t.given? c = given, t.call c = t' at hcalled ⊢
  cases hcalled with
  | acquired ha => exact h.acquire ha
  | closed hc => exact h.close hc
  | moved fd offset => exact h.seek fd offset
  | refused _ => exact h

theorem Within.run (h : t.Within) (calls : List Call) : (t.run calls).Within := by
  induction calls generalizing t with
  | nil => exact h
  | cons c calls ih => exact ih (h.call c)

/-! ## A number from when it is handed out -/

/-- A call other than closing its descriptor leaves an open file open. -/
theorem Within.exists_offset_call (h : t.Within) (hf : t.find? fd = some file)
    (hc : c ≠ .close fd) : ∃ offset, (t.call c).find? fd = some { file with offset := offset } := by
  have hcalled := t.called_call c
  generalize t.given? c = given, t.call c = t' at hcalled ⊢
  cases hcalled with
  | acquired ha => exact ⟨file.offset, h.toOrdered.find?_of_acquire ha hf⟩
  | @closed other _ _ hclose =>
    have hne : fd ≠ other := fun heq => hc (congrArg Call.close heq.symm)
    exact ⟨file.offset, by rw [find?_of_close hclose, if_neg hne, hf]⟩
  | moved other offset => exact exists_offset_seek hf other offset
  | refused _ => exact ⟨file.offset, hf⟩

/-- An open file stays open on its descriptor, until that one is closed. -/
theorem Within.exists_offset_run (h : t.Within) (hf : t.find? fd = some file) {calls : List Call}
    (hcalls : .close fd ∉ calls) :
    ∃ offset, (t.run calls).find? fd = some { file with offset := offset } := by
  induction calls generalizing t file with
  | nil => exact ⟨file.offset, hf⟩
  | cons c calls ih =>
    rw [List.mem_cons, not_or] at hcalls
    -- after the first call it is the same file at another position, from which the rest goes on
    obtain ⟨offset, hf'⟩ := h.exists_offset_call hf (Ne.symm hcalls.1)
    obtain ⟨last, hlast⟩ := ih (h.call c) hf' hcalls.2
    exact ⟨last, hlast⟩

/-- A descriptor that a call does not hand out stays unknown. -/
theorem Within.find?_call_eq_none (h : t.Within) (hf : t.find? fd = none)
    (hc : fd ∉ t.given? c) : (t.call c).find? fd = none := by
  have hcalled := t.called_call c
  generalize t.given? c = given, t.call c = t' at hcalled hc ⊢
  cases hcalled with
  | @acquired _ _ other _ ha =>
    obtain ⟨-, -, -, hfind⟩ := h.toOrdered.acquire ha
    have hne : fd ≠ other := fun heq => hc (congrArg some heq.symm)
    rw [hfind, if_neg hne, hf]
  | closed hclose => rw [find?_of_close hclose, hf, ite_self]
  | moved _ _ => rw [find?_seek, hf, Option.map_none, ite_self]
  | refused _ => exact hf

/-- A descriptor stays unknown until it is handed out. -/
theorem Within.find?_run_eq_none (h : t.Within) (hf : t.find? fd = none) {calls : List Call}
    (hcalls : fd ∉ t.handedOut calls) : (t.run calls).find? fd = none := by
  induction calls generalizing t with
  | nil => exact hf
  | cons c calls ih =>
    rw [handedOut, List.mem_append, not_or, Option.mem_toList] at hcalls
    exact ih (h.call c) (h.find?_call_eq_none hf hcalls.1) hcalls.2

/-! ## The contract -/

/-- What a table does with the next call, and with those after it. -/
structure HandsOut (t : OpenFiles) : Prop where
  /-- The numbers in use lie between the standard ones and the limit. -/
  mem_range : ∀ fd, t.find? fd ≠ none → firstNumber ≤ fd.number.toNat ∧ fd.number.toNat < limit
  /-- A new file gets a number of this range, the smallest that is free. -/
  least_free : ∀ entry generation fd t', t.acquire entry generation = .ok (fd, t') →
    (firstNumber ≤ fd.number.toNat ∧ fd.number.toNat < limit ∧ t.find? fd = none) ∧
      ∀ other, firstNumber ≤ other.number.toNat → other.number.toNat < fd.number.toNat →
        t.find? other ≠ none
  /-- There the file stands at its start, and all else is as before. -/
  opened : ∀ entry generation fd t', t.acquire entry generation = .ok (fd, t') →
    t.call (.acquire entry generation) = t' ∧
      ∀ other, t'.find? other = if other = fd then some ⟨entry, generation, 0⟩ else t.find? other
  /-- A file is refused exactly when the range is used up. -/
  refused_iff : ∀ entry generation, t.acquire entry generation = .error (.tooManyOpenFiles limit) ↔
    ∀ fd, firstNumber ≤ fd.number.toNat → fd.number.toNat < limit → t.find? fd ≠ none
  /-- A refusal gives this cause, and changes nothing. -/
  refused : ∀ entry generation cause, t.acquire entry generation = .error cause →
    cause = .tooManyOpenFiles limit ∧ t.call (.acquire entry generation) = t
  /-- A descriptor means its entry, of its generation, until it is closed. -/
  keeps : ∀ fd file calls, t.find? fd = some file → Call.close fd ∉ calls →
    ∃ offset, (t.run calls).find? fd = some { file with offset := offset }
  /-- An open descriptor can be closed, and is unknown then until it is handed out again. -/
  closed : ∀ fd file, t.find? fd = some file →
    ∃ t', t.close fd = .ok (file, t') ∧ t.call (.close fd) = t' ∧
      ∀ calls, fd ∉ t'.handedOut calls →
        (t'.run calls).find? fd = none ∧ (t'.run calls).close fd = .error (.badDescriptor fd)

theorem close_of_find? (hf : t.find? fd = some file) : ∃ t', t.close fd = .ok (file, t') := by
  rw [close, hf]
  exact ⟨_, rfl⟩

theorem close_eq_badDescriptor (hf : t.find? fd = none) :
    t.close fd = .error (.badDescriptor fd) := by
  rw [close, hf]

theorem Within.mem_range (h : t.Within) (hused : t.find? fd ≠ none) :
    firstNumber ≤ fd.number.toNat ∧ fd.number.toNat < limit := by
  obtain ⟨file, hf⟩ := Option.ne_none_iff_exists'.mp hused
  exact ⟨h.firstNumber_le_of_find? hf, h.lt_limit fd hused⟩

theorem Within.acquire_eq_error_iff (h : t.Within) (entry : EntryId) (generation : UInt32) :
    t.acquire entry generation = .error (.tooManyOpenFiles limit) ↔
      ∀ fd, firstNumber ≤ fd.number.toNat → fd.number.toNat < limit → t.find? fd ≠ none := by
  constructor
  · intro hrefused fd hle hlt hfree
    obtain ⟨fd', t', ha⟩ := exists_acquire_of_free hle hlt hfree entry generation
    rw [ha] at hrefused
    cases hrefused
  · intro hfull
    cases ha : t.acquire entry generation with
    | error cause => rw [eq_tooManyOpenFiles_of_acquire ha]
    | ok p =>
      obtain ⟨-, hle, hnone, -⟩ := h.toOrdered.acquire ha
      exact absurd hnone (hfull p.1 hle (number_of_acquire ha).2.1)

theorem Within.handsOut (h : t.Within) : t.HandsOut where
  mem_range fd hused := h.mem_range hused
  least_free entry generation fd t' ha := by
    obtain ⟨-, hle, hnone, -⟩ := h.toOrdered.acquire ha
    exact ⟨⟨hle, (number_of_acquire ha).2.1, hnone⟩,
      fun other hle' hlt => find?_ne_none_of_lt_acquire ha hle' hlt⟩
  opened entry generation fd t' ha := ⟨call_acquire ha, (h.toOrdered.acquire ha).2.2.2⟩
  refused_iff entry generation := h.acquire_eq_error_iff entry generation
  refused entry generation cause ha := ⟨eq_tooManyOpenFiles_of_acquire ha, call_of_refused ha⟩
  keeps fd file calls hf hcalls := h.exists_offset_run hf hcalls
  closed fd file hf := by
    obtain ⟨t', hc⟩ := close_of_find? hf
    refine ⟨t', hc, call_close hc, fun calls hcalls => ?_⟩
    have hunknown : t'.find? fd = none := by rw [find?_of_close hc, if_pos rfl]
    have hnone := (h.close hc).find?_run_eq_none hunknown hcalls
    exact ⟨hnone, close_eq_badDescriptor hnone⟩

/-- Every table that calls lead to from the empty one hands out the smallest number that is free,
refuses when there is none, and keeps what is open until it is closed. -/
theorem handsOut_run (calls : List Call) : (({} : OpenFiles).run calls).HandsOut :=
  (within_empty.run calls).handsOut

/-- A hole that is left in the middle is filled before the numbers go on. -/
example : ({} : OpenFiles).handedOut [.acquire ⟨1⟩ 0, .acquire ⟨2⟩ 0, .close ⟨3⟩, .seek ⟨4⟩ 7,
    .acquire ⟨5⟩ 1, .acquire ⟨6⟩ 0] = [⟨3⟩, ⟨4⟩, ⟨3⟩, ⟨5⟩] := by
  decide

end FileTree.OpenFiles
