import FileTree.Proofs.Shell.InStep

/-!
# What a line shows

A line that is carried out results in a text, an answer or a message.  The shell shows it as a line
of the console, unless it is an empty answer.  The text and the line feed go out as one request to
write, and the console shows what it is asked to write up to the first NUL: a text that has one is
cut there, and its line is not ended.

## Main definitions

* `Shell.resultText`: the answer or the message
* `Shell.display`: what is to be shown of it

## Main results

* `Shell.runLine_eq`: showing a result changes nothing but the console
* `Shell.shows_runLine`: what the console shows of a result, and when that is all of it
* `Shell.output_runLine_of_nul`: a result that is not shown as a whole
-/

namespace FileTree.Shell

/-- The text that a line results in: the answer, or the message. -/
def resultText : Except CommandError String → String
  | .ok answer => answer
  | .error e => e.message

/-- What is to be shown of a result: nothing of an empty answer, and of any other the text on a
line of its own. -/
def display : Except CommandError String → String
  | .ok answer => if answer.isEmpty then "" else answer ++ "\n"
  | .error e => e.message ++ "\n"

/-- The bytes before the first NUL. -/
def untilNul (bytes : List UInt8) : List UInt8 :=
  bytes.takeWhile (· != 0)

theorem untilNul_eq_self_iff (bytes : List UInt8) : untilNul bytes = bytes ↔ 0 ∉ bytes := by
  rw [untilNul, List.takeWhile_eq_self_iff]
  refine ⟨fun h hmem => bne_iff_ne.mp (h 0 hmem) rfl, fun h b hb => bne_iff_ne.mpr ?_⟩
  exact fun hzero => h (hzero ▸ hb)

/-- What is to be shown has a NUL where the text has one. -/
theorem zero_mem_bytes_display_iff (result : Except CommandError String) :
    0 ∈ Text.bytes (display result) ↔ '\x00' ∈ (resultText result).toList := by
  have hnul := Text.toUInt8_mem_bytes_iff (d := '\x00') (by decide) (display result)
  refine hnul.trans ?_
  cases result with
  | error e => simp [display, resultText]
  | ok answer =>
    rw [display, resultText]
    split_ifs with hempty
    · rw [String.isEmpty_iff.mp hempty]
    · simp

/-- **Showing a result changes nothing but the console**, which takes what is to be shown up to the
first NUL. -/
theorem runLine_eq (sh : Shell) (line : String) :
    sh.runLine line = (sh.execute line).2.equip sh.session.keyboard
      (sh.session.console.write (untilNul (Text.bytes (display (sh.execute line).1))))
      sh.editor := by
  obtain ⟨hkeyboard, hconsole, heditor, -⟩ := sh.devices_execute line
  unfold runLine
  generalize sh.execute line = outcome at hkeyboard hconsole heditor ⊢
  obtain ⟨e | answer, after⟩ := outcome
  all_goals
    dsimp only [display] at hkeyboard hconsole heditor ⊢
    rw [← hkeyboard, ← hconsole, ← heditor]
  · exact after.print_eq (.inr rfl) _
  · split_ifs
    · rfl
    · exact after.print_eq (.inl rfl) _

/-- **What a line shows**: it leaves the shell that carrying it out leaves, but for the console.
What is to be shown of the result stands there, behind what stood there before, up to the first
NUL; so all of it does exactly when the text has no NUL. -/
theorem shows_runLine (sh : Shell) (line : String) :
    let result := (sh.execute line).1
    (sh.execute line).2.Shown (sh.runLine line) ∧
      (sh.runLine line).session.console.output =
        sh.session.console.output ++ untilNul (Text.bytes (display result)) ∧
      ((sh.runLine line).session.console.output =
          sh.session.console.output ++ Text.bytes (display result) ↔
        '\x00' ∉ (resultText result).toList) := by
  intro result
  have houtput : (sh.runLine line).session.console.output =
      sh.session.console.output ++ untilNul (Text.bytes (display result)) := by
    rw [runLine_eq]
    exact Console.output_write _ _
  refine ⟨shown_runLine sh line, houtput, ?_⟩
  rw [houtput, List.append_cancel_left_eq, untilNul_eq_self_iff, zero_mem_bytes_display_iff]

/-- A file with a NUL between two letters is read as a text of three, of which one is shown. -/
theorem output_runLine_of_nul :
    let config : Config := { maxEntries := 4, logCapacity := 0 }
    let start : Shell := { session := { store := Store.init ⟨0⟩ config {} } }
    let sh := (start.execute "write f a\x00b").2
    (sh.execute "cat f").1 = .ok "a\x00b" ∧ sh.session.console.output = [] ∧
      (sh.runLine "cat f").session.console.output = [97] ∧
      (sh.runLine "cat f").session.console.output ≠
        sh.session.console.output ++ Text.bytes ("a\x00b" ++ "\n") := by
  decide +kernel

end FileTree.Shell
