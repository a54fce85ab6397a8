import FileTree.Host

/-!
# The lines of an input

An input is cut behind every line feed. Nothing is lost, and as a line feed is no part of another
character, no character is cut: the lines of a text are texts again.

## Main results

* `Host.flatten_inputLines`: the lines joined are the input
* `Host.exists_bytes_of_mem_inputLines`: the lines of a text are texts
-/

namespace FileTree

/-- The line feed is the only character in whose form its byte stands. -/
theorem Text.eq_lineFeed_of_mem {c : Char} (h : 10 ∈ String.utf8EncodeChar c) : c = '\n' :=
  (toUInt8_mem_utf8EncodeChar_iff (d := '\n') (by decide)).mp h

namespace Host

/-- A byte that is no line feed goes to the first line of the rest. -/
theorem inputLines_cons {b : UInt8} (h : b ≠ 10) (rest : List UInt8) :
    inputLines (b :: rest) = (b :: (inputLines rest).headD []) :: (inputLines rest).tail := by
  rw [inputLines, if_neg h]
  cases inputLines rest <;> rfl

theorem flatten_headD_tail (lines : List (List UInt8)) :
    lines.headD [] ++ lines.tail.flatten = lines.flatten := by
  cases lines <;> rfl

/-- **The lines of an input, joined, are the input.** -/
theorem flatten_inputLines (bytes : List UInt8) : (inputLines bytes).flatten = bytes := by
  induction bytes with
  | nil => rfl
  | cons b rest ih =>
    by_cases hb : b = 10
    · rw [inputLines, if_pos hb, List.flatten_cons, ih, List.singleton_append]
    · rw [inputLines_cons hb, List.flatten_cons, List.cons_append, flatten_headD_tail, ih]

/-- Bytes without a line feed go to the first line of the rest. -/
theorem inputLines_append {piece : List UInt8} (hne : piece ≠ []) (h : 10 ∉ piece)
    (rest : List UInt8) :
    inputLines (piece ++ rest) =
      (piece ++ (inputLines rest).headD []) :: (inputLines rest).tail := by
  induction piece with
  | nil => exact absurd rfl hne
  | cons b more ih =>
    have hb : b ≠ 10 := fun hb => h (hb ▸ List.mem_cons_self)
    rw [List.cons_append, inputLines_cons hb]
    cases more with
    | nil => rfl
    | cons b' more =>
      rw [ih (List.cons_ne_nil b' more) fun hmem => h (List.mem_cons_of_mem b hmem)]
      rfl

theorem exists_chars_of_mem_inputLines {cs : List Char} {line : List UInt8}
    (h : line ∈ inputLines (cs.flatMap String.utf8EncodeChar)) :
    ∃ us : List Char, line = us.flatMap String.utf8EncodeChar := by
  induction cs generalizing line with
  | nil => cases h
  | cons c cs ih =>
    rw [List.flatMap_cons] at h
    by_cases hc : c = '\n'
    · subst hc
      rcases List.mem_cons.mp h with rfl | hline
      · exact ⟨['\n'], rfl⟩
      · exact ih hline
    · have hpiece : 10 ∉ String.utf8EncodeChar c := fun hmem => hc (Text.eq_lineFeed_of_mem hmem)
      rw [inputLines_append String.utf8EncodeChar_ne_nil hpiece] at h
      generalize inputLines (cs.flatMap String.utf8EncodeChar) = lines at ih h
      rcases List.mem_cons.mp h with rfl | hline
      · cases lines with
        | nil => exact ⟨[c], rfl⟩
        | cons first lines =>
          obtain ⟨us, rfl⟩ := ih List.mem_cons_self
          exact ⟨c :: us, rfl⟩
      · exact ih (List.mem_of_mem_tail hline)

/-- **The lines of a text are texts.** -/
theorem exists_bytes_of_mem_inputLines {text : String} {line : List UInt8}
    (h : line ∈ inputLines (Text.bytes text)) : ∃ u, line = Text.bytes u := by
  obtain ⟨us, rfl⟩ := exists_chars_of_mem_inputLines h
  exact ⟨String.ofList us, by rw [Text.bytes, String.toList_ofList]⟩

end Host

end FileTree
