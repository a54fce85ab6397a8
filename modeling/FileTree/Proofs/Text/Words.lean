import FileTree.Text.Blank
import Mathlib.Data.List.Basic
import Mathlib.Data.List.DropRight

/-!
# Words between blanks

A text is put together from words and what is between them. Trimming takes away exactly the blanks
around a text that has none at its ends, and cutting at the first blank takes off exactly the first
word; what is inside the rest, blanks among it, stays as it is.

## Main definitions

* `Text.Blank`: a text of blanks only, which may be empty
* `Text.Trimmed`: a text with no blank at its ends
* `Text.IsWord`: a text without blanks

## Main results

* `Text.trim_append`: trimming takes away the blanks around a trimmed text
* `Text.trim_trim`: trimming twice is trimming once
* `Text.exists_cutAtBlank?_eq`: a text is cut behind its first word
-/

namespace FileTree.Text

/-- There is nothing but blanks in the text. -/
def Blank (s : String) : Prop :=
  ∀ c ∈ s.toList, isBlank c = true

/-- The text is not empty, and has no blank at its ends. -/
structure Trimmed (s : String) : Prop where
  ne_empty : s ≠ ""
  head : ∀ c ∈ s.toList.head?, isBlank c = false
  last : ∀ c ∈ s.toList.getLast?, isBlank c = false

/-- The text is not empty, and has no blank anywhere. -/
structure IsWord (s : String) : Prop where
  ne_empty : s ≠ ""
  isBlank_eq : ∀ c ∈ s.toList, isBlank c = false

/-! Whether a text is such is found out by looking at its characters one by one. -/

theorem trimmed_iff {s : String} : Trimmed s ↔ s ≠ "" ∧
    s.toList.head?.all (fun c => !isBlank c) = true ∧
      s.toList.getLast?.all (fun c => !isBlank c) = true := by
  simp only [Option.all_eq_true, Bool.not_eq_true']
  exact ⟨fun h => ⟨h.ne_empty, h.head, h.last⟩, fun h => ⟨h.1, h.2.1, h.2.2⟩⟩

theorem isWord_iff {s : String} :
    IsWord s ↔ s ≠ "" ∧ s.toList.all (fun c => !isBlank c) = true := by
  simp only [List.all_eq_true, Bool.not_eq_true']
  exact ⟨fun h => ⟨h.ne_empty, h.isBlank_eq⟩, fun h => ⟨h.1, h.2⟩⟩

instance (s : String) : Decidable (Blank s) :=
  decidable_of_iff (s.toList.all isBlank = true) List.all_eq_true

instance (s : String) : Decidable (Trimmed s) :=
  decidable_of_iff _ trimmed_iff.symm

instance (s : String) : Decidable (IsWord s) :=
  decidable_of_iff _ isWord_iff.symm

variable {s t n w v : String} {cs blanks : List Char}

theorem blank_empty : Blank "" := by simp [Blank]

theorem blank_space : Blank " " := by decide +kernel

theorem IsWord.trimmed (h : IsWord n) : Trimmed n where
  ne_empty := h.ne_empty
  head c hc := h.isBlank_eq c (List.mem_of_mem_head? hc)
  last c hc := h.isBlank_eq c (List.mem_of_mem_getLast? hc)

theorem Trimmed.toList_ne_nil (h : Trimmed s) : s.toList ≠ [] := by
  simpa using h.ne_empty

/-- Whatever is between two trimmed texts, they make a trimmed text together. -/
theorem Trimmed.append (hs : Trimmed s) (ht : Trimmed t) (between : String) :
    Trimmed (s ++ between ++ t) where
  ne_empty h := ht.ne_empty (String.append_eq_empty_iff.mp h).2
  head c hc := by
    rw [String.append_assoc, String.toList_append,
      List.head?_append_of_ne_nil _ hs.toList_ne_nil] at hc
    exact hs.head c hc
  last c hc := by
    rw [String.toList_append, List.getLast?_append_of_ne_nil _ ht.toList_ne_nil] at hc
    exact ht.last c hc

/-! ## Trimming -/

/-- Blanks in front of something that starts with none are dropped, and nothing else. -/
theorem dropWhile_isBlank_append (hblanks : ∀ c ∈ blanks, isBlank c = true)
    (hcs : ∀ c ∈ cs.head?, isBlank c = false) : (blanks ++ cs).dropWhile isBlank = cs := by
  rw [List.dropWhile_append_of_pos hblanks]
  cases cs with
  | nil => rfl
  | cons c cs => rw [List.dropWhile_cons_of_neg (by simp [hcs c rfl])]

/-- Trimming takes away the blanks around a trimmed text. -/
theorem trim_append (hw : Blank w) (ht : Trimmed t) (hv : Blank v) : trim (w ++ t ++ v) = t := by
  have hhead : ∀ c ∈ (t.toList ++ v.toList).head?, isBlank c = false := by
    rw [List.head?_append_of_ne_nil _ ht.toList_ne_nil]
    exact ht.head
  have hlast : ∀ c ∈ t.toList.reverse.head?, isBlank c = false := by
    rw [List.head?_reverse]
    exact ht.last
  have hv' : ∀ c ∈ v.toList.reverse, isBlank c = true := fun c hc => hv c (List.mem_reverse.mp hc)
  have hchars : trimChars (w ++ t ++ v).toList = t.toList := by
    rw [trimChars, String.toList_append, String.toList_append, List.append_assoc,
      dropWhile_isBlank_append hw hhead, List.reverse_append, dropWhile_isBlank_append hv' hlast,
      List.reverse_reverse]
  rw [trim, hchars, String.ofList_toList]

theorem Trimmed.trim_eq (h : Trimmed s) : trim s = s := by
  simpa using trim_append blank_empty h blank_empty

theorem trimChars_eq_rdropWhile (cs : List Char) :
    trimChars cs = (cs.dropWhile isBlank).rdropWhile isBlank :=
  rfl

/-- What is left by trimming has no blank in front. -/
theorem dropWhile_trimChars (cs : List Char) : (trimChars cs).dropWhile isBlank = trimChars cs := by
  cases h : trimChars cs with
  | nil => rfl
  | cons c rest =>
    obtain ⟨more, heq⟩ : c :: rest <+: cs.dropWhile isBlank := h ▸ List.rdropWhile_prefix isBlank _
    have hc := List.head?_dropWhile_not isBlank cs
    rw [← heq, List.cons_append, List.head?_cons] at hc
    exact List.dropWhile_cons_of_neg (Bool.eq_false_iff.mp hc)

/-- Trimming twice is trimming once. -/
theorem trim_trim (s : String) : trim (trim s) = trim s := by
  have hchars : trimChars (trimChars s.toList) = trimChars s.toList := by
    rw [trimChars_eq_rdropWhile, dropWhile_trimChars, trimChars_eq_rdropWhile,
      List.rdropWhile_idempotent]
  rw [trim, trim, String.toList_ofList, hchars]

/-! ## Cutting -/

/-- A text is cut behind its first word, at the first of the blanks there. -/
theorem exists_cutAtBlank?_eq (hn : IsWord n) (hw : Blank w) (hne : w ≠ "") (rest : String) :
    ∃ more, Blank more ∧ cutAtBlank? (n ++ w ++ rest) = some (n, more ++ rest) := by
  have hword : ∀ c ∈ n.toList, (!isBlank c) = true := fun c hc => by rw [hn.isBlank_eq c hc]; rfl
  obtain ⟨b, bs, hcons⟩ := List.exists_cons_of_ne_nil (show w.toList ≠ [] by simpa using hne)
  rw [Blank, hcons, List.forall_mem_cons] at hw
  have hstop : (!isBlank b) = false := by rw [hw.1]; rfl
  refine ⟨String.ofList bs, by simpa [Blank] using hw.2, ?_⟩
  rw [cutAtBlank?, cutCharsAtBlank?, String.toList_append, String.toList_append, hcons,
    List.append_assoc, List.dropWhile_append_of_pos hword, List.takeWhile_append_of_pos hword,
    List.cons_append, List.dropWhile_cons_of_neg (by simp [hstop]),
    List.takeWhile_cons_of_neg (by simp [hstop])]
  simp

end FileTree.Text
