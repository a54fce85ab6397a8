import FileTree.Proofs.ByPath.Writing
import FileTree.Proofs.Text.Words
import FileTree.Shell

/-!
# The words of a line

A line is cut into its command and what is left, and a command with two operands cuts its first
operand off. Blanks around the three are of no account, how many and of whatever kind; the blanks
inside the last one are kept. So what is written by a line is read back by another, blanks and all.

## Main definitions

* `Command.takesTwo`: the commands that cut their operands into two

## Main results

* `Command.firstWord_append`: a word is cut off, and the blanks around what follows it
* `Command.parse_append`: a line spells its first word with what is left as operands
* `Shell.execute_spaced`: a line with two operands is carried out like the one with single spaces,
  and a text that it writes is read back
-/

namespace FileTree

open Text

namespace Command

variable {name n t w w₀ w₁ w₂ w₃ : String}

/-- The commands that cut their operands into two. -/
def takesTwo : List String :=
  ["write", "mv", "cp", "set"]

/-- The first word is cut off, and the blanks around what follows it do not count. -/
theorem firstWord_append (hn : IsWord n) (h₁ : Blank w₁) (hne : w₁ ≠ "") (ht : Trimmed t)
    (h₂ : Blank w₂) : firstWord (n ++ w₁ ++ t ++ w₂) = (n, t) := by
  obtain ⟨more, hmore, hcut⟩ := exists_cutAtBlank?_eq hn h₁ hne (t ++ w₂)
  rw [String.append_assoc, firstWord, hcut]
  show (n, trim _) = _
  rw [← String.append_assoc, trim_append hmore ht h₂]

theorem firstWord_append_trimmed (hn : IsWord n) (hw : Blank w) (hne : w ≠ "") (ht : Trimmed t) :
    firstWord (n ++ w ++ t) = (n, t) := by
  simpa using firstWord_append hn hw hne ht blank_empty

/-- A line spells the command that its first word names, with what is left as operands. -/
theorem parse_append (hname : IsWord name) (h₀ : Blank w₀) (h₁ : Blank w₁) (hne : w₁ ≠ "")
    (ht : Trimmed t) (h₃ : Blank w₃) :
    parse (w₀ ++ (name ++ w₁ ++ t) ++ w₃) = ofWords name t := by
  rw [parse, trim_append h₀ (hname.trimmed.append ht w₁) h₃,
    firstWord_append_trimmed hname h₁ hne ht]

theorem isWord_of_mem_takesTwo (h : name ∈ takesTwo) : IsWord name := by
  simp only [takesTwo, List.mem_cons, List.not_mem_nil, or_false] at h
  rcases h with rfl | rfl | rfl | rfl <;> decide +kernel

/-- To a command that cuts its operands into two, nothing counts but the two. -/
theorem ofWords_congr (h : name ∈ takesTwo) {operands others : String}
    (hwords : firstWord operands = firstWord others) :
    ofWords name operands = ofWords name others := by
  simp only [takesTwo, List.mem_cons, List.not_mem_nil, or_false] at h
  rcases h with rfl | rfl | rfl | rfl <;> simp only [ofWords, withTwoOperands, hwords]

/-- A line with two operands spells its command with the two, whatever blanks are around them. -/
theorem parse_two (hname : name ∈ takesTwo) (hn : IsWord n) (ht : Trimmed t) (h₀ : Blank w₀)
    (h₁ : Blank w₁) (hne₁ : w₁ ≠ "") (h₂ : Blank w₂) (hne₂ : w₂ ≠ "") (h₃ : Blank w₃) :
    parse (w₀ ++ name ++ w₁ ++ n ++ w₂ ++ t ++ w₃) = ofWords name (n ++ " " ++ t) := by
  have hline : w₀ ++ name ++ w₁ ++ n ++ w₂ ++ t ++ w₃ =
      w₀ ++ (name ++ w₁ ++ (n ++ w₂ ++ t)) ++ w₃ := by simp only [String.append_assoc]
  rw [hline, parse_append (isWord_of_mem_takesTwo hname) h₀ h₁ hne₁ (hn.trimmed.append ht w₂) h₃]
  refine ofWords_congr hname ?_
  rw [firstWord_append_trimmed hn h₂ hne₂ ht,
    firstWord_append_trimmed hn blank_space (by decide) ht]

/-- The line with single spaces is one of these. -/
theorem parse_two_of_spaces (hname : name ∈ takesTwo) (hn : IsWord n) (ht : Trimmed t) :
    parse (name ++ " " ++ n ++ " " ++ t) = ofWords name (n ++ " " ++ t) := by
  simpa using parse_two hname hn ht blank_empty blank_space (by decide) blank_space (by decide)
    blank_empty

theorem ofWords_write (hn : IsWord n) (ht : Trimmed t) :
    ofWords "write" (n ++ " " ++ t) = .ok (.file (.write n t)) := by
  have hne : ¬ t.isEmpty = true := fun h => ht.ne_empty (String.isEmpty_iff.mp h)
  simp only [ofWords, withTwoOperands, firstWord_append_trimmed hn blank_space (by decide) ht,
    if_neg hne]

theorem parse_cat (hn : IsWord n) : parse ("cat " ++ n) = .ok (.file (.cat n)) := by
  have hne : ¬ n.isEmpty = true := fun h => hn.ne_empty (String.isEmpty_iff.mp h)
  have hcat : IsWord "cat" := by decide +kernel
  have hparse := parse_append hcat blank_empty blank_space (by decide) hn.trimmed blank_empty
  rw [String.empty_append, String.append_empty] at hparse
  show parse ("cat" ++ " " ++ n) = _
  rw [hparse]
  simp only [ofWords, withOperand, if_neg hne]

end Command

namespace Shell

variable {sh sh' : Shell} {name n t w₀ w₁ w₂ w₃ line other : String}

theorem execute_congr (h : Command.parse line = Command.parse other) :
    sh.execute line = sh.execute other := by
  unfold execute
  rw [h]

theorem execute_of_parse {command : Command} (h : Command.parse line = .ok command) :
    sh.execute line = sh.perform command := by
  unfold execute
  rw [h]

/-- What a command wrote into a file of the current directory, another reads back. -/
theorem perform_cat_of_write (hsep : Path.separator ∉ n.toList)
    (hlen : n.length ≤ sh.session.store.config.maxNameLength.toNat) {answer : String}
    (h : sh.perform (.file (.write n t)) = (.ok answer, sh')) :
    (sh'.perform (.file (.cat n))).1 = .ok t := by
  simp only [perform, FileCommand.run, mayMoveCursor] at h ⊢
  generalize hw : ByPath.write sh.session.store n (Text.bytes t) = outcome at h
  obtain ⟨cause | id, store⟩ := outcome
  · cases h
  · obtain ⟨-, rfl⟩ := Prod.mk.inj h
    have hread := (ByPath.agrees_of_notMem hsep hlen).read_of_write hw
    show FileCommand.look _ _ (ByPath.read store n) = _
    rw [hread, FileCommand.look, Text.lossy_bytes]

/-- **Blanks around the operands of a line are of no account**, and a text that a line writes into a
file of the current directory is read back as it was, with the blanks in it. -/
theorem execute_spaced (sh : Shell) (hname : name ∈ Command.takesTwo) (hn : IsWord n)
    (ht : Trimmed t) (h₀ : Blank w₀) (h₁ : Blank w₁) (hne₁ : w₁ ≠ "") (h₂ : Blank w₂)
    (hne₂ : w₂ ≠ "") (h₃ : Blank w₃) :
    let line := w₀ ++ name ++ w₁ ++ n ++ w₂ ++ t ++ w₃
    sh.execute line = sh.execute (name ++ " " ++ n ++ " " ++ t) ∧
      (name = "write" → Path.separator ∉ n.toList →
        n.length ≤ sh.session.store.config.maxNameLength.toNat →
        ∀ answer, (sh.execute line).1 = .ok answer →
          ((sh.execute line).2.execute ("cat " ++ n)).1 = .ok t) := by
  intro line
  have hparse : Command.parse line = Command.ofWords name (n ++ " " ++ t) :=
    Command.parse_two hname hn ht h₀ h₁ hne₁ h₂ hne₂ h₃
  refine ⟨?_, ?_⟩
  · exact execute_congr (hparse.trans (Command.parse_two_of_spaces hname hn ht).symm)
  · rintro rfl hsep hlen answer hok
    rw [execute_of_parse (hparse.trans (Command.ofWords_write hn ht))] at hok ⊢
    rw [execute_of_parse (Command.parse_cat hn)]
    exact perform_cat_of_write hsep hlen (Prod.ext hok rfl)

/-- Blanks of several kinds around the operands, and two of them in the text, which is written in a
directory below the root under a name of the greatest length. -/
theorem execute_spaced_of_other_blanks :
    let config : Config := { maxEntries := 4, maxNameLength := 2 }
    let start : Shell := { session := { store := Store.init ⟨0⟩ config {} } }
    let sh := ((start.execute "mkdir d").2.execute "cd d").2
    let line := "\t" ++ "write" ++ "\u3000 " ++ "né" ++ "\n" ++ "a \u2003b" ++ "\u2028"
    ("write" ∈ Command.takesTwo ∧ IsWord "né" ∧ Trimmed "a \u2003b" ∧ Blank "\t" ∧ Blank "\u3000 " ∧
      Blank "\n" ∧ Blank "\u2028" ∧ (sh.execute line).1 = .ok "Wrote 6 bytes to né") ∧
      sh.execute line = sh.execute ("write" ++ " " ++ "né" ++ " " ++ "a \u2003b") ∧
      ((sh.execute line).2.execute ("cat " ++ "né")).1 = .ok "a \u2003b" := by
  intro config start sh line
  have hname : "write" ∈ Command.takesTwo := by decide
  have hn : IsWord "né" := by decide +kernel
  have ht : Trimmed "a \u2003b" := by decide +kernel
  have h₀ : Blank "\t" := by decide +kernel
  have h₁ : Blank "\u3000 " := by decide +kernel
  have h₂ : Blank "\n" := by decide +kernel
  have h₃ : Blank "\u2028" := by decide +kernel
  have hok : (sh.execute line).1 = .ok "Wrote 6 bytes to né" := by decide +kernel
  obtain ⟨hsame, hback⟩ := sh.execute_spaced hname hn ht h₀ h₁ (by decide) h₂ (by decide) h₃
  exact ⟨⟨hname, hn, ht, h₀, h₁, h₂, h₃, hok⟩, hsame,
    hback rfl (by decide +kernel) (by decide +kernel) _ hok⟩

end Shell

end FileTree
