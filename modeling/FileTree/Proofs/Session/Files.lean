import FileTree.Lookup
import FileTree.OpenFiles
import FileTree.Syscall.Request
import Mathlib.Data.List.Basic

/-!
# The descriptors of a process

Open files stand in ascending order of their numbers, which start at the first that is handed
out. So the gap that a new file fills is a number not in use, and no other descriptor changes.

## Main definitions

* `OpenFiles.Ordered`: the files stand in order
* `OpenFiles.Dense`: the numbers in use are the first that are handed out
* `OpenFiles.Change`: what serving a request does to the open files

## Main results

* `OpenFiles.Ordered.acquire`, `OpenFiles.Ordered.close`, `OpenFiles.Ordered.seek`: the changes
  keep the order, and each changes one descriptor only
* `OpenFiles.Ordered.acquire_eq`: a file gets the lowest number that is free
* `OpenFiles.exists_acquire_of_free`: it gets one as long as there is one
* `OpenFiles.Ordered.close_of_acquire`: a file that is opened and closed again leaves no trace
* `OpenFiles.Dense.exists_acquire`, `OpenFiles.Dense.acquire_eq_error`: files that are opened one
  after another take one number after another, as long as there are any
* `OpenFiles.Change.exists_offset`: an open file stays open until it is closed
-/

namespace FileTree.OpenFiles

/-- The files stand in ascending order of their numbers, none of which is a standard one. -/
structure Ordered (t : OpenFiles) : Prop where
  ascending : t.files.Pairwise fun p q => p.1.number.toNat < q.1.number.toNat
  firstNumber_le : ∀ p ∈ t.files, firstNumber ≤ p.1.number.toNat

theorem ordered_empty : ({} : OpenFiles).Ordered where
  ascending := .nil
  firstNumber_le p hp := by cases hp

variable {t t' : OpenFiles} {fd other : Descriptor} {file : OpenFile} {entry : EntryId}
  {generation : UInt32} {files : List (Descriptor × OpenFile)}

/-- The descriptor of an open file is none of the standard ones. -/
theorem Ordered.firstNumber_le_of_find? (h : t.Ordered) (hf : t.find? fd = some file) :
    firstNumber ≤ fd.number.toNat := by
  obtain ⟨before, later, heq, -⟩ := List.lookup_eq_some_iff.mp hf
  exact h.firstNumber_le (fd, file) (by simp [heq])

/-- The gap is none of the numbers in use. -/
theorem firstGap_spec {candidate : Nat}
    (hasc : files.Pairwise fun p q => p.1.number.toNat < q.1.number.toNat)
    (hle : ∀ p ∈ files, candidate ≤ p.1.number.toNat) :
    candidate ≤ firstGap candidate files ∧
      ∀ p ∈ files, p.1.number.toNat ≠ firstGap candidate files := by
  induction files generalizing candidate with
  | nil => exact ⟨Nat.le_refl _, fun p hp => by cases hp⟩
  | cons p rest ih =>
    obtain ⟨fd, file⟩ := p
    obtain ⟨hlt, hasc⟩ := List.pairwise_cons.mp hasc
    have hhead := hle (fd, file) (List.mem_cons_self ..)
    rw [firstGap]
    split_ifs with heq
    · obtain ⟨hgap, hne⟩ := @ih (candidate + 1) hasc fun q hq => heq ▸ hlt q hq
      refine ⟨Nat.le_of_succ_le hgap, fun q hq => ?_⟩
      rcases List.mem_cons.mp hq with rfl | hq
      · exact fun h => Nat.ne_of_lt hgap (heq.symm.trans h)
      · exact hne q hq
    · refine ⟨Nat.le_refl _, fun q hq => ?_⟩
      rcases List.mem_cons.mp hq with rfl | hq
      · exact heq
      · have := hlt q hq
        simp only at hhead this
        omega

/-- Every number before the gap is in use. -/
theorem exists_mem_of_lt_firstGap {candidate n : Nat} (hle : candidate ≤ n)
    (hlt : n < firstGap candidate files) : ∃ p ∈ files, p.1.number.toNat = n := by
  induction files generalizing candidate with
  | nil => exact absurd hlt (Nat.not_lt.mpr hle)
  | cons p rest ih =>
    obtain ⟨fd, file⟩ := p
    rw [firstGap] at hlt
    split_ifs at hlt with heq
    · rcases Nat.lt_or_eq_of_le hle with hlt' | rfl
      · obtain ⟨q, hq, hn⟩ := ih hlt' hlt
        exact ⟨q, List.mem_cons_of_mem _ hq, hn⟩
      · exact ⟨(fd, file), List.mem_cons_self .., heq⟩
    · exact absurd hlt (Nat.not_lt.mpr hle)

theorem mem_insert {p : Descriptor × OpenFile} :
    p ∈ insert fd file files ↔ p = (fd, file) ∨ p ∈ files := by
  induction files with
  | nil => simp [insert]
  | cons q rest ih =>
    rw [insert]
    split_ifs
    · exact List.mem_cons
    · rw [List.mem_cons, List.mem_cons, ih]
      tauto

/-- A new descriptor is found, and the others are as before. -/
theorem lookup_insert_of_new (hnew : ∀ p ∈ files, p.1 ≠ fd) :
    (insert fd file files).lookup other =
      if other = fd then some file else files.lookup other := by
  induction files with
  | nil => exact lookup_cons_eq_ite _ _ _
  | cons q rest ih =>
    have hq := hnew q (List.mem_cons_self ..)
    rw [insert]
    split_ifs with hlt heq heq
    · rw [lookup_cons_eq_ite, if_pos heq]
    · rw [lookup_cons_eq_ite, if_neg heq]
    · have hne : other ≠ q.1 := fun h => hq (h.symm.trans heq)
      rw [lookup_cons_eq_ite, if_neg hne, ih fun p hp => hnew p (List.mem_cons_of_mem _ hp),
        if_pos heq]
    · rw [lookup_cons_eq_ite, lookup_cons_eq_ite,
        ih fun p hp => hnew p (List.mem_cons_of_mem _ hp), if_neg heq]

theorem filter_insert_of_new (hnew : ∀ p ∈ files, p.1 ≠ fd) :
    (insert fd file files).filter (·.1 != fd) = files := by
  induction files with
  | nil => exact List.filter_cons_of_neg (by simp)
  | cons q rest ih =>
    obtain ⟨hq, hrest⟩ := List.forall_mem_cons.mp hnew
    rw [insert]
    split_ifs
    · rw [List.filter_cons_of_neg (by simp)]
      exact List.filter_eq_self.mpr fun p hp => bne_iff_ne.mpr (hnew p hp)
    · rw [List.filter_cons_of_pos (by simpa using hq), ih hrest]

theorem pairwise_insert
    (hasc : files.Pairwise fun p q => p.1.number.toNat < q.1.number.toNat)
    (hnew : ∀ p ∈ files, p.1.number.toNat ≠ fd.number.toNat) :
    (insert fd file files).Pairwise fun p q => p.1.number.toNat < q.1.number.toNat := by
  induction files with
  | nil => exact List.pairwise_singleton _ _
  | cons q rest ih =>
    obtain ⟨hlt, hasc'⟩ := List.pairwise_cons.mp hasc
    have hq := hnew q (List.mem_cons_self ..)
    rw [insert]
    split_ifs with h
    · refine List.pairwise_cons.mpr ⟨fun p hp => ?_, hasc⟩
      have h := UInt32.lt_iff_toNat_lt.mp h
      rcases List.mem_cons.mp hp with rfl | hp
      · exact h
      · exact Nat.lt_trans h (hlt p hp)
    · refine List.pairwise_cons.mpr ⟨fun p hp => ?_,
        ih hasc' fun p hp => hnew p (List.mem_cons_of_mem _ hp)⟩
      rcases mem_insert.mp hp with rfl | hp
      · exact Nat.lt_of_le_of_ne (Nat.le_of_not_lt fun hl => h (UInt32.lt_iff_toNat_lt.mpr hl)) hq
      · exact hlt p hp

/-- The number that is handed out is the gap, which is below the limit. -/
theorem number_of_acquire (ha : t.acquire entry generation = .ok (fd, t')) :
    fd.number.toNat = firstGap firstNumber t.files ∧ fd.number.toNat < limit ∧
      t' = ⟨insert fd ⟨entry, generation, 0⟩ t.files⟩ := by
  unfold acquire at ha
  dsimp only at ha
  split_ifs at ha with hfull
  cases ha
  have hlt := Nat.lt_of_not_le hfull
  have hnumber : (firstGap firstNumber t.files).toUInt32.toNat = firstGap firstNumber t.files :=
    Nat.mod_eq_of_lt (Nat.lt_trans hlt (by decide))
  exact ⟨hnumber, hnumber.symm ▸ hlt, rfl⟩

/-- A new file gets a number that is not in use, and no other descriptor changes. -/
theorem Ordered.acquire (h : t.Ordered) (ha : t.acquire entry generation = .ok (fd, t')) :
    t'.Ordered ∧ firstNumber ≤ fd.number.toNat ∧ t.find? fd = none ∧
      ∀ other, t'.find? other =
        if other = fd then some ⟨entry, generation, 0⟩ else t.find? other := by
  obtain ⟨hgap, hnew⟩ := firstGap_spec h.ascending h.firstNumber_le
  obtain ⟨hnumber, -, rfl⟩ := number_of_acquire ha
  rw [← hnumber] at hgap hnew
  have hkey : ∀ p ∈ t.files, p.1 ≠ fd := fun p hp heq => hnew p hp (by rw [heq])
  refine ⟨⟨pairwise_insert h.ascending hnew, fun p hp => ?_⟩, hgap, ?_, fun x => ?_⟩
  · rcases mem_insert.mp hp with rfl | hp
    · exact hgap
    · exact h.firstNumber_le p hp
  · rw [find?, List.lookup_eq_none_iff]
    exact fun p hp => bne_iff_ne.mpr (hkey p hp).symm
  · exact lookup_insert_of_new hkey

/-- A file that is open stays where it is when another is opened. -/
theorem Ordered.find?_of_acquire (h : t.Ordered)
    (ha : t.acquire entry generation = .ok (other, t')) (hf : t.find? fd = some file) :
    t'.find? fd = some file := by
  obtain ⟨-, -, hnone, hfind⟩ := h.acquire ha
  have hne : fd ≠ other := by
    rintro rfl
    rw [hf] at hnone
    cases hnone
  rw [hfind, if_neg hne, hf]

/-- As long as some number is free, a file gets one. -/
theorem exists_acquire_of_free (hle : firstNumber ≤ fd.number.toNat)
    (hlt : fd.number.toNat < limit) (hfree : t.find? fd = none) (entry : EntryId)
    (generation : UInt32) : ∃ fd' t', t.acquire entry generation = .ok (fd', t') := by
  unfold acquire
  dsimp only
  split_ifs with hfull
  · -- the free number comes before the gap, so it is in use
    obtain ⟨p, hp, hnumber⟩ := exists_mem_of_lt_firstGap hle (Nat.lt_of_lt_of_le hlt hfull)
    have hkey : p.1 = fd := congrArg Descriptor.mk (UInt32.toNat_inj.mp hnumber)
    have hne := bne_iff_ne.mp (List.lookup_eq_none_iff.mp hfree p hp)
    exact absurd hkey.symm hne
  · exact ⟨_, _, rfl⟩

theorem isSome_find?_of_lt_firstGap {n : Nat} (hle : firstNumber ≤ n)
    (hlt : n < firstGap firstNumber t.files) : (t.find? ⟨n.toUInt32⟩).isSome = true := by
  obtain ⟨p, hp, rfl⟩ := exists_mem_of_lt_firstGap hle hlt
  refine List.lookup_isSome_iff.mpr ⟨p, hp, beq_iff_eq.mpr ?_⟩
  exact congrArg Descriptor.mk UInt32.ofNat_toNat

/-- A new file takes the lowest number that is free. -/
theorem Ordered.acquire_eq (h : t.Ordered) (entry : EntryId) (generation : UInt32) :
    t.acquire entry generation =
      match ((List.range' firstNumber (limit - firstNumber)).map
        fun n => (⟨n.toUInt32⟩ : Descriptor)).find? fun fd => (t.find? fd).isNone with
      | none => .error (.tooManyOpenFiles limit)
      | some fd => .ok (fd, ⟨insert fd ⟨entry, generation, 0⟩ t.files⟩) := by
  rw [List.find?_map]
  by_cases hfull : limit ≤ firstGap firstNumber t.files
  · have hnone : (List.range' firstNumber (limit - firstNumber)).find?
        ((fun fd => (t.find? fd).isNone) ∘ fun n => ⟨n.toUInt32⟩) = none := by
      rw [List.find?_range'_eq_none]
      intro n hle hlt
      have hused := isSome_find?_of_lt_firstGap hle
        (Nat.lt_of_lt_of_le (show n < limit from hlt) hfull)
      rw [Function.comp_apply, Option.isNone_eq_false_iff.mpr hused]
      rfl
    rw [hnone, OpenFiles.acquire, if_pos hfull]
    rfl
  · have hlt := Nat.lt_of_not_le hfull
    have hacquire : t.acquire entry generation =
        .ok (⟨(firstGap firstNumber t.files).toUInt32⟩,
          ⟨insert ⟨(firstGap firstNumber t.files).toUInt32⟩ ⟨entry, generation, 0⟩ t.files⟩) := by
      rw [OpenFiles.acquire, if_neg hfull]
    obtain ⟨-, -, hnone, -⟩ := h.acquire hacquire
    have hgap : (List.range' firstNumber (limit - firstNumber)).find?
        ((fun fd => (t.find? fd).isNone) ∘ fun n => ⟨n.toUInt32⟩) =
          some (firstGap firstNumber t.files) := by
      rw [List.find?_range'_eq_some]
      refine ⟨by rw [Function.comp_apply, hnone, Option.isNone_none], ?_, fun n hle hn => ?_⟩
      · exact List.mem_range'_1.mpr
          ⟨(firstGap_spec h.ascending h.firstNumber_le).1, hlt⟩
      · rw [Function.comp_apply,
          Option.isNone_eq_false_iff.mpr (isSome_find?_of_lt_firstGap hle hn)]
        rfl
    rw [hgap, hacquire]
    rfl

/-- A descriptor that is closed is free, and the others are as before. -/
theorem find?_of_close (hc : t.close fd = .ok (file, t')) :
    t'.find? other = if other = fd then none else t.find? other := by
  unfold close at hc
  split at hc
  · cases hc
  cases hc
  simp only [find?]
  induction t.files with
  | nil => exact (ite_self _).symm
  | cons q rest ih =>
    by_cases hq : q.1 = fd
    · rw [List.filter_cons_of_neg (by simp [hq]), ih, lookup_cons_eq_ite, hq]
      split_ifs <;> rfl
    · rw [List.filter_cons_of_pos (by simpa using hq), lookup_cons_eq_ite, lookup_cons_eq_ite, ih]
      split_ifs with h₁ h₂
      · exact absurd (h₁.symm.trans h₂) hq
      · rfl
      · rfl
      · rfl

/-- A file that is opened and closed again leaves no trace. -/
theorem Ordered.close_of_acquire (h : t.Ordered) (ha : t.acquire entry generation = .ok (fd, t')) :
    t'.close fd = .ok (⟨entry, generation, 0⟩, t) := by
  obtain ⟨-, -, hnone, hfind⟩ := h.acquire ha
  have hnew : ∀ p ∈ t.files, p.1 ≠ fd := fun p hp =>
    (bne_iff_ne.mp (List.lookup_eq_none_iff.mp hnone p hp)).symm
  obtain ⟨-, -, rfl⟩ := number_of_acquire ha
  rw [OpenFiles.close, hfind, if_pos rfl]
  dsimp only
  rw [filter_insert_of_new hnew]

/-- Where the position was does not matter when a file is closed. -/
theorem close_seek (t : OpenFiles) (fd : Descriptor) (offset : Nat) :
    (t.seek fd offset).close fd =
      (t.close fd).map fun p => ({ p.1 with offset := offset }, p.2) := by
  have hfilter : (t.seek fd offset).files.filter (·.1 != fd) = t.files.filter (·.1 != fd) := by
    rw [seek]
    induction t.files with
    | nil => rfl
    | cons p rest ih =>
      rw [List.map_cons]
      split_ifs with hp
      · rw [List.filter_cons_of_neg (by simp [hp]), List.filter_cons_of_neg (by simp [hp])]
        exact ih
      · rw [List.filter_cons_of_pos (by simpa using hp),
          List.filter_cons_of_pos (by simpa using hp), ih]
  unfold close
  rw [find?_seek, if_pos rfl, hfilter]
  cases t.find? fd <;> rfl

/-- Closing a descriptor leaves the others alone. -/
theorem Ordered.close (h : t.Ordered) (hc : t.close fd = .ok (file, t')) :
    t'.Ordered ∧ ∀ other, other ≠ fd → t'.find? other = t.find? other := by
  refine ⟨?_, fun other hne => (find?_of_close hc).trans (if_neg hne)⟩
  unfold OpenFiles.close at hc
  split at hc
  · cases hc
  cases hc
  exact ⟨h.ascending.filter _, fun p hp => h.firstNumber_le p (List.mem_of_mem_filter hp)⟩

theorem Ordered.seek (h : t.Ordered) (fd : Descriptor) (offset : Nat) :
    (t.seek fd offset).Ordered where
  ascending := by
    refine List.pairwise_map.mpr (h.ascending.imp fun {p q} hlt => ?_)
    split_ifs <;> exact hlt
  firstNumber_le p hp := by
    obtain ⟨q, hq, rfl⟩ := List.mem_map.mp hp
    have := h.firstNumber_le q hq
    split_ifs <;> exact this

/-- A file stays open when a position is moved, its own or another. -/
theorem exists_offset_seek (hf : t.find? fd = some file) (other : Descriptor) (offset : Nat) :
    ∃ offset', (t.seek other offset).find? fd = some { file with offset := offset' } := by
  rw [find?_seek, hf]
  split_ifs
  · exact ⟨offset, rfl⟩
  · exact ⟨file.offset, rfl⟩

theorem eq_tooManyOpenFiles_of_acquire {cause : SyscallError}
    (h : t.acquire entry generation = .error cause) : cause = .tooManyOpenFiles limit := by
  unfold acquire at h
  dsimp only at h
  split_ifs at h
  exact (Except.error.inj h).symm

/-! ## Files opened one after another -/

/-- The numbers in use are the first that are handed out. -/
def Dense (t : OpenFiles) : Prop :=
  t.files.map (·.1.number.toNat) = List.range' firstNumber t.size

theorem dense_empty : ({} : OpenFiles).Dense := rfl

theorem firstGap_of_map_eq {candidate : Nat}
    (h : files.map (·.1.number.toNat) = List.range' candidate files.length) :
    firstGap candidate files = candidate + files.length := by
  induction files generalizing candidate with
  | nil => rfl
  | cons p rest ih =>
    rw [List.map_cons, List.length_cons, List.range'_succ, List.cons.injEq] at h
    rw [firstGap, if_pos h.1, ih h.2, List.length_cons, Nat.add_right_comm, Nat.add_assoc]

theorem Dense.firstGap_eq (h : t.Dense) : firstGap firstNumber t.files = firstNumber + t.size :=
  firstGap_of_map_eq h

theorem insert_eq_append (h : ∀ p ∈ files, p.1.number.toNat < fd.number.toNat) :
    insert fd file files = files ++ [(fd, file)] := by
  induction files with
  | nil => rfl
  | cons p rest ih =>
    obtain ⟨hp, hrest⟩ := List.forall_mem_cons.mp h
    rw [insert, if_neg fun hlt => Nat.lt_asymm hp (UInt32.lt_iff_toNat_lt.mp hlt), ih hrest,
      List.cons_append]

theorem Dense.append (h : t.Dense) (hnumber : fd.number.toNat = firstNumber + t.size) :
    Dense ⟨t.files ++ [(fd, file)]⟩ := by
  have hsize : size ⟨t.files ++ [(fd, file)]⟩ = t.size + 1 := List.length_append
  rw [Dense, hsize, List.range'_concat, List.map_append, h, List.map_singleton, hnumber,
    Nat.one_mul]

/-- As long as there are numbers left, one more file takes the next one. -/
theorem Dense.exists_acquire (h : t.Dense) (hlt : firstNumber + t.size < limit) (entry : EntryId)
    (generation : UInt32) : ∃ fd t', t.acquire entry generation = .ok (fd, t') ∧ t'.Dense ∧
      t'.size = t.size + 1 := by
  let fd : Descriptor := ⟨(firstNumber + t.size).toUInt32⟩
  have hnumber : fd.number.toNat = firstNumber + t.size :=
    Nat.mod_eq_of_lt (Nat.lt_trans hlt (by decide))
  have hinsert : insert fd ⟨entry, generation, 0⟩ t.files =
      t.files ++ [(fd, ⟨entry, generation, 0⟩)] := by
    refine insert_eq_append fun p hp => ?_
    have hmem := h ▸ List.mem_map_of_mem hp
    rw [hnumber]
    exact (List.mem_range'_1.mp hmem).2
  refine ⟨fd, ⟨insert fd ⟨entry, generation, 0⟩ t.files⟩, ?_, ?_, ?_⟩
  · rw [acquire, h.firstGap_eq, if_neg (Nat.not_le_of_lt hlt)]
  · rw [hinsert]
    exact h.append hnumber
  · rw [hinsert]
    exact List.length_append

/-- When no number is left, no more files are opened. -/
theorem Dense.acquire_eq_error (h : t.Dense) (hfull : limit ≤ firstNumber + t.size)
    (entry : EntryId) (generation : UInt32) :
    t.acquire entry generation = .error (.tooManyOpenFiles limit) := by
  rw [acquire, h.firstGap_eq, if_pos hfull]

/-! ## What a request does -/

/-- What serving a request does to the open files. -/
inductive Change (r : Request) (t : OpenFiles) : OpenFiles → Prop
  | same : Change r t t
  | seek (fd : Descriptor) (offset : Nat) : Change r t (t.seek fd offset)
  | acquire {entry : EntryId} {generation : UInt32} {fd : Descriptor} {t' : OpenFiles} :
      t.acquire entry generation = .ok (fd, t') → Change r t t'
  | close {fd : Descriptor} {file : OpenFile} {t' : OpenFiles} : r = .closeFile fd →
      t.close fd = .ok (file, t') → Change r t t'

variable {r : Request}

theorem Change.ordered (hc : t.Change r t') (h : t.Ordered) : t'.Ordered := by
  cases hc with
  | same => exact h
  | seek fd offset => exact h.seek fd offset
  | acquire ha => exact (h.acquire ha).1
  | close _ hc => exact (h.close hc).1

/-- A file that is open stays open on its descriptor until that one is closed. -/
theorem Change.exists_offset (hc : t.Change r t') (h : t.Ordered) (hf : t.find? fd = some file)
    (hr : r ≠ .closeFile fd) : ∃ offset, t'.find? fd = some { file with offset := offset } := by
  cases hc with
  | same => exact ⟨file.offset, hf⟩
  | seek other offset => exact exists_offset_seek hf other offset
  | acquire ha => exact ⟨file.offset, h.find?_of_acquire ha hf⟩
  | @close other _ _ hother hc =>
    have hne : fd ≠ other := by
      rintro rfl
      exact hr hother
    exact ⟨file.offset, ((h.close hc).2 fd hne).trans hf⟩

end FileTree.OpenFiles
