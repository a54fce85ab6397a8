import FileTree.Traversal
import Mathlib.Data.List.Infix

/-!
# Absolute paths

An absolute path is put together from names, each after a separator. Reading it gives the names
back, as long as none is empty or has a separator in it. Rendering keeps as many names as fit.

## Main definitions

* `Path.absolute`: the absolute path with the given names
* `Path.LongestFit`: the names, from the first on, whose path fits

## Main results

* `Path.separator_notMem_of_mem_segments`: no separator is left in a segment
* `Path.segments_absolute`: the segments of an absolute path are its names
* `Path.exists_longestFit_render`: a rendered path has as many names as fit
-/

namespace FileTree.Path

/-! ## Segments -/

theorem segmentsOf_of_notMem {cs : List Char} (h : separator ∉ cs) (hne : cs ≠ []) :
    segmentsOf cs = [cs] := by
  simp [segmentsOf, List.splitOn_eq_singleton h, hne]

/-- No separator is left in a segment. -/
theorem separator_notMem_of_mem_segmentsOf {cs seg : List Char} (h : seg ∈ segmentsOf cs) :
    separator ∉ seg := by
  -- The induction is on the length: a separator cuts the row into two shorter ones.
  induction hn : cs.length using Nat.strongRecOn generalizing cs with
  | ind n ih =>
    subst hn
    by_cases hs : separator ∈ cs
    · obtain ⟨p, q, rfl⟩ := List.append_of_mem hs
      rw [List.length_append, List.length_cons] at ih
      rw [segmentsOf_append_separator, List.mem_append] at h
      rcases h with h | h
      · exact ih p.length (by omega) h rfl
      · exact ih q.length (by omega) h rfl
    · rw [segmentsOf, List.splitOn_eq_singleton hs] at h
      obtain rfl := List.mem_singleton.mp (List.mem_of_mem_filter h)
      exact hs

theorem separator_notMem_of_mem_segments {path name : String} (h : name ∈ segments path) :
    separator ∉ name.toList := by
  obtain ⟨seg, hseg, rfl⟩ := List.mem_map.mp h
  rw [String.toList_ofList]
  exact separator_notMem_of_mem_segmentsOf hseg

/-- A name without separators is its own only segment. -/
theorem segments_of_notMem {name : String} (h : separator ∉ name.toList) (hne : name ≠ "") :
    segments name = [name] := by
  have hlist : name.toList ≠ [] := by simpa using hne
  simp [segments, segmentsOf_of_notMem h hlist]

/-- A name without separators does not start at the root. -/
theorem isAbsolute_of_notMem {name : String} (h : separator ∉ name.toList) :
    isAbsolute name = false := by
  rw [isAbsolute, beq_eq_false_iff_ne]
  exact fun hhead => h (List.mem_of_mem_head? hhead)

/-- A name without separators is given to a new entry as it is. -/
theorem creationName_of_notMem {name : String} (h : separator ∉ name.toList) :
    creationName name = name := by
  have hdrop : name.toList.dropWhile (· == separator) = name.toList := by
    cases hcs : name.toList with
    | nil => rfl
    | cons c cs =>
      rw [hcs, List.mem_cons, not_or] at h
      exact List.dropWhile_cons_of_neg (by simpa using Ne.symm h.1)
  rw [creationName, hdrop, String.ofList_toList]

theorem segmentsOf_dropWhile (cs : List Char) :
    segmentsOf (cs.dropWhile (· == separator)) = segmentsOf cs := by
  induction cs with
  | nil => rfl
  | cons c cs ih =>
    by_cases hc : c = separator
    · subst hc
      rw [List.dropWhile_cons_of_pos (by simp), ih]
      exact (segmentsOf_append_separator [] cs).symm
    · rw [List.dropWhile_cons_of_neg (by simpa using hc)]

/-- Leading separators do not count. -/
theorem segments_creationName (path : String) : segments (creationName path) = segments path := by
  rw [segments, segments, creationName, String.toList_ofList, segmentsOf_dropWhile]

/-! ## Absolute paths -/

/-- The absolute path with the given names. -/
def absolute (names : List String) : String :=
  "/" ++ "/".intercalate names

variable {names start kept other : List String} {name : String} {limit : Nat}

@[simp] theorem isAbsolute_absolute (names : List String) : isAbsolute (absolute names) = true := by
  simp [isAbsolute, absolute, separator]

@[simp] theorem absolute_nil : absolute [] = "/" := rfl

theorem absolute_singleton (name : String) : absolute [name] = "/" ++ name := by
  simp [absolute]

/-- A further name comes after a separator. -/
theorem absolute_append (h : start ≠ []) (hne : names ≠ []) :
    absolute (start ++ names) = absolute start ++ "/" ++ "/".intercalate names := by
  rw [absolute, String.intercalate_append_of_ne_nil h hne, absolute]
  simp only [String.append_assoc]

theorem segments_intercalate (h : ∀ name ∈ names, name ≠ "" ∧ separator ∉ name.toList) :
    segments ("/".intercalate names) = names := by
  induction names with
  | nil => rw [String.intercalate_nil, segments_empty]
  | cons name names ih =>
    obtain ⟨⟨hne, hsep⟩, hnames⟩ := List.forall_mem_cons.mp h
    cases names with
    | nil => rw [String.intercalate_singleton, segments_of_notMem hsep hne]
    | cons next names =>
      rw [String.intercalate_cons_cons, segments_append_slash_append, ih hnames,
        segments_of_notMem hsep hne, List.singleton_append]

/-- The segments of an absolute path are its names. -/
theorem segments_absolute (h : ∀ name ∈ names, name ≠ "" ∧ separator ∉ name.toList) :
    segments (absolute names) = names := by
  have hcut := segments_append_slash_append "" ("/".intercalate names)
  rw [String.empty_append, segments_empty, List.nil_append] at hcut
  rw [absolute, hcut, segments_intercalate h]

/-! ## As much as fits -/

/-- One more name takes its bytes, and a byte for the separator except at the start. -/
theorem utf8ByteSize_absolute_concat (start : List String) (name : String) :
    (absolute (start ++ [name])).utf8ByteSize =
      (absolute start).utf8ByteSize + (if start = [] then 0 else 1) + name.utf8ByteSize := by
  by_cases h : start = []
  · subst h
    rw [List.nil_append, absolute_singleton, String.utf8ByteSize_append, if_pos rfl]
    rfl
  · rw [absolute_append h (by simp), String.intercalate_singleton, String.utf8ByteSize_append,
      String.utf8ByteSize_append, if_neg h]
    rfl

theorem utf8ByteSize_absolute_le (h : kept <+: names) :
    (absolute kept).utf8ByteSize ≤ (absolute names).utf8ByteSize := by
  obtain ⟨more, rfl⟩ := h
  induction more using List.reverseRecOn with
  | nil => rw [List.append_nil]
  | append_singleton more name ih =>
    rw [← List.append_assoc, utf8ByteSize_absolute_concat]
    omega

/-- The longest row of names from the first on whose absolute path has at most `limit` bytes. -/
structure LongestFit (limit : Nat) (names kept : List String) : Prop where
  initial : kept <+: names
  fits : (absolute kept).utf8ByteSize ≤ limit
  longest : ∀ ⦃other⦄, other <+: names → (absolute other).utf8ByteSize ≤ limit → other <+: kept

/-- Where everything fits, everything is kept. -/
theorem LongestFit.eq_of_fits (h : LongestFit limit names kept)
    (hfits : (absolute names).utf8ByteSize ≤ limit) : kept = names :=
  h.initial.eq_of_length_le (h.longest List.prefix_rfl hfits).length_le

/-- What fits is the longest that fits if it is everything, or if the next name is too much. -/
theorem longestFit_self (h : (absolute names).utf8ByteSize ≤ limit) :
    LongestFit limit names names :=
  ⟨List.prefix_rfl, h, fun _ hother _ => hother⟩

theorem longestFit_of_exceeds (h : (absolute start).utf8ByteSize ≤ limit)
    (hbig : limit < (absolute (start ++ [name])).utf8ByteSize) :
    LongestFit limit (start ++ name :: names) start where
  initial := List.prefix_append _ _
  fits := h
  longest other hother hfits := by
    have hnext : start ++ [name] <+: start ++ name :: names := ⟨names, by simp⟩
    rcases List.prefix_or_prefix_of_prefix hother hnext with hpre | hpre
    · rcases List.prefix_concat_iff.mp hpre with rfl | hpre
      · omega
      · exact hpre
    · have := utf8ByteSize_absolute_le hpre
      omega

theorem exists_longestFit_extend (hne : start ≠ [])
    (h : (absolute start).utf8ByteSize ≤ limit) (names : List String) :
    ∃ kept, LongestFit limit (start ++ names) kept ∧
      extend limit (absolute start) names = absolute kept := by
  induction names generalizing start with
  | nil => exact ⟨start, by simpa using longestFit_self h, rfl⟩
  | cons name names ih =>
    have hsize := utf8ByteSize_absolute_concat start name
    rw [if_neg hne] at hsize
    rw [extend]
    split_ifs with hbig
    · exact ⟨start, longestFit_of_exceeds h (by omega), rfl⟩
    · obtain ⟨kept, hkept, heq⟩ := @ih (start ++ [name]) (by simp) (by omega)
      rw [absolute_append hne (by simp), String.intercalate_singleton] at heq
      exact ⟨kept, by simpa using hkept, heq⟩

/-- A rendered path has as many names as fit. -/
theorem exists_longestFit_render (hlimit : 0 < limit) (names : List String) :
    ∃ kept, LongestFit limit names kept ∧ render limit names = absolute kept := by
  have hroot : (absolute []).utf8ByteSize ≤ limit := hlimit
  cases names with
  | nil => exact ⟨[], longestFit_self hroot, rfl⟩
  | cons name names =>
    have hsize := utf8ByteSize_absolute_concat [] name
    rw [List.nil_append, if_pos rfl, absolute_nil] at hsize
    have hslash : "/".utf8ByteSize = 1 := rfl
    rw [render]
    split_ifs with hbig
    · exact ⟨[], longestFit_of_exceeds hroot (by rw [List.nil_append]; omega), rfl⟩
    · obtain ⟨kept, hkept, heq⟩ := @exists_longestFit_extend [name] limit (by simp) (by omega) names
      rw [absolute_singleton] at heq
      exact ⟨kept, hkept, heq⟩

end FileTree.Path
