import FileTree.Proofs.Shell.Feeding

/-!
# Typed lines

A row of typed bytes spells lines: it is cut where a line ends, and each piece is read with its
corrections. Feeding the bytes to a shell does what carrying out these lines does, one after the
other until the shell ends, except that blank lines are passed over. What is shown on the console
meanwhile does not matter.

## Main definitions

* `Typing.edit`, `Typing.kept`: what is kept of the bytes typed into one line
* `Typing.lines`, `Typing.unfinished`: the lines that a row of bytes ends, and what is kept of the
  line that it does not end
* `Typing.commandLines`: the lines that are not blank
* `LineEditor.Pressed`: what a byte does to the line of the editor
* `Shell.executeLines`: carries out lines until the shell ends

## Main results

* `LineEditor.pressed_press`: a typed byte does that
* `Shell.follows_feed`: what is fed is carried out line by line
* `Shell.exists_end_of_feed`: where a shell ends that ends while it is fed
* `Shell.executes_feed`: the two together
-/

namespace FileTree

namespace Typing

/-- What is kept of a line after one more byte: backspace and delete take the last byte away, a
printable byte is added while fewer than 255 are kept, and every other byte is dropped. -/
def edit (kept : List UInt8) (b : UInt8) : List UInt8 :=
  if b = 8 ∨ b = 127 then kept.dropLast
  else if 32 ≤ b ∧ b ≤ 126 ∧ kept.length < 255 then kept ++ [b]
  else kept

/-- What is kept of the bytes typed into one line. -/
def kept (bytes : List UInt8) : List UInt8 :=
  bytes.foldl edit []

/-- The pieces between the line feeds and carriage returns. -/
def pieces (bytes : List UInt8) : List (List UInt8) :=
  bytes.splitOnP fun b => b == 10 || b == 13

/-- The lines that the bytes end: one for every line feed and carriage return. -/
def lines (bytes : List UInt8) : List String :=
  (pieces bytes).dropLast.map fun piece => LineEditor.asciiText (kept piece)

/-- What is kept of the line that the bytes do not end. -/
def unfinished (bytes : List UInt8) : List UInt8 :=
  kept ((pieces bytes).getLastD [])

/-- The lines that the bytes end and that are not blank. -/
def commandLines (bytes : List UInt8) : List String :=
  (lines bytes).filter fun line => !(Text.trim line).isEmpty

/-! ## One more byte -/

variable {b : UInt8} (bytes : List UInt8)

theorem exists_pieces : ∃ before last, pieces bytes = before ++ [last] := by
  have hne : pieces bytes ≠ [] := List.splitOnP_ne_nil _ bytes
  exact ⟨_, _, (List.dropLast_concat_getLast hne).symm⟩

theorem pieces_concat_of_end (h : LineEditor.isLineEnd b = true) :
    pieces (bytes ++ [b]) = pieces bytes ++ [[]] := by
  have hsplit := List.splitOnP_append_cons (p := fun b => b == 10 || b == 13) bytes [] h
  rwa [List.splitOnP_nil] at hsplit

/-- A byte that ends no line goes to the last piece. -/
theorem exists_pieces_concat (h : LineEditor.isLineEnd b = false) :
    ∃ before last, pieces bytes = before ++ [last] ∧
      pieces (bytes ++ [b]) = before ++ [last ++ [b]] := by
  induction bytes with
  | nil =>
    refine ⟨[], [], List.splitOnP_nil, ?_⟩
    have hb : (b == 10 || b == 13) = false := h
    simp [pieces, List.splitOnP_cons_eq_if_modifyHead, hb]
  | cons first bytes ih =>
    obtain ⟨before, last, hpieces, hconcat⟩ := ih
    unfold pieces at hpieces hconcat ⊢
    rw [List.cons_append, List.splitOnP_cons_eq_if_modifyHead,
      List.splitOnP_cons_eq_if_modifyHead, hpieces, hconcat]
    split_ifs
    · exact ⟨[] :: before, last, rfl, rfl⟩
    · cases before with
      | nil => exact ⟨[], first :: last, rfl, rfl⟩
      | cons piece before => exact ⟨(first :: piece) :: before, last, rfl, rfl⟩

theorem unfinished_concat_of_end (h : LineEditor.isLineEnd b = true) :
    unfinished (bytes ++ [b]) = [] := by
  rw [unfinished, pieces_concat_of_end bytes h, List.getLastD_concat]
  rfl

theorem unfinished_concat (h : LineEditor.isLineEnd b = false) :
    unfinished (bytes ++ [b]) = edit (unfinished bytes) b := by
  obtain ⟨before, last, hpieces, hconcat⟩ := exists_pieces_concat bytes h
  rw [unfinished, unfinished, hpieces, hconcat, List.getLastD_concat, List.getLastD_concat, kept,
    List.foldl_append]
  rfl

theorem lines_concat_of_end (h : LineEditor.isLineEnd b = true) :
    lines (bytes ++ [b]) = lines bytes ++ [LineEditor.asciiText (unfinished bytes)] := by
  obtain ⟨before, last, hpieces⟩ := exists_pieces bytes
  rw [lines, lines, unfinished, pieces_concat_of_end bytes h, List.dropLast_concat, hpieces,
    List.dropLast_concat, List.getLastD_concat, List.map_append, List.map_singleton]

theorem lines_concat (h : LineEditor.isLineEnd b = false) : lines (bytes ++ [b]) = lines bytes := by
  obtain ⟨before, last, hpieces, hconcat⟩ := exists_pieces_concat bytes h
  rw [lines, lines, hpieces, hconcat, List.dropLast_concat, List.dropLast_concat]

theorem commandLines_concat_of_end (h : LineEditor.isLineEnd b = true) :
    commandLines (bytes ++ [b]) = commandLines bytes ++
      (Shell.unlessBlank (LineEditor.asciiText (unfinished bytes))).toList := by
  rw [commandLines, commandLines, lines_concat_of_end bytes h, List.filter_append,
    Shell.unlessBlank]
  split_ifs with hblank <;> simp [hblank]

theorem commandLines_concat (h : LineEditor.isLineEnd b = false) :
    commandLines (bytes ++ [b]) = commandLines bytes := by
  rw [commandLines, commandLines, lines_concat bytes h]

/-- More bytes end more lines after those ended before. -/
theorem exists_commandLines_concat (b : UInt8) :
    ∃ more, commandLines (bytes ++ [b]) = commandLines bytes ++ more := by
  cases h : LineEditor.isLineEnd b with
  | true => exact ⟨_, commandLines_concat_of_end bytes h⟩
  | false => exact ⟨[], by rw [commandLines_concat bytes h, List.append_nil]⟩

end Typing

/-! ## The line editor -/

namespace LineEditor

variable {b : UInt8} (e : LineEditor)

/-- What a byte does to a line: Enter submits it, a backspace or a delete takes its last byte away,
a printable byte is added as long as there is room, and nothing else changes it. -/
inductive Pressed (e : LineEditor) (b : UInt8) : KeyOutcome → LineEditor → Prop
  | submitted (hb : b = 10 ∨ b = 13) : Pressed e b (.submit e.text) {}
  | erased (hb : b = 8 ∨ b = 127) (hne : e.typed ≠ []) : Pressed e b .erase ⟨e.typed.dropLast⟩
  | echoed (hb : 32 ≤ b ∧ b ≤ 126) (hlen : e.typed.length < 255) :
      Pressed e b (.echo b) ⟨e.typed ++ [b]⟩
  | ignored (hend : ¬ (b = 10 ∨ b = 13)) (herase : ¬ ((b = 8 ∨ b = 127) ∧ e.typed ≠ []))
      (hroom : ¬ ((32 ≤ b ∧ b ≤ 126) ∧ e.typed.length < 255)) : Pressed e b .ignored e

theorem pressed_press (e : LineEditor) (b : UInt8) : e.Pressed b (e.press b).1 (e.press b).2 := by
  have hroom_iff : (isPrintable b && decide (e.typed.length < maxLength)) = true ↔
      (32 ≤ b ∧ b ≤ 126) ∧ e.typed.length < 255 := by
    rw [Bool.and_eq_true, isPrintable_iff, decide_eq_true_iff, maxLength]
  unfold press
  simp only [isLineEnd_iff, isErase_iff, hroom_iff, List.isEmpty_iff]
  split_ifs with hend herase hempty hroom
  · exact .submitted hend
  · refine .ignored hend (fun h => h.2 hempty) fun h => ?_
    exact (not_control_of_isPrintable (isPrintable_iff.mpr h.1)).2 (isErase_iff.mpr herase)
  · exact .erased herase hempty
  · exact .echoed hroom.1 hroom.2
  · exact .ignored hend (fun h => herase h.1) hroom

theorem press_of_end (h : isLineEnd b = true) : e.press b = (.submit e.text, {}) := by
  rw [press, if_pos h]

/-- A byte that ends no line edits it. -/
theorem press_of_not_end (h : isLineEnd b = false) :
    (e.press b).2.typed = Typing.edit e.typed b ∧ ∀ line, (e.press b).1 ≠ .submit line := by
  have hp := e.pressed_press b
  generalize e.press b = pressed at hp ⊢
  obtain ⟨outcome, editor⟩ := pressed
  dsimp only at hp ⊢
  cases hp with
  | submitted hb =>
    rw [isLineEnd_iff.mpr hb] at h
    cases h
  | erased hb hne => exact ⟨(if_pos hb).symm, fun line => KeyOutcome.noConfusion⟩
  | echoed hb hlen =>
    have herase : ¬ (b = 8 ∨ b = 127) :=
      isErase_iff.not.mp (not_control_of_isPrintable (isPrintable_iff.mpr hb)).2
    refine ⟨?_, fun line => KeyOutcome.noConfusion⟩
    rw [Typing.edit, if_neg herase, if_pos ⟨hb.1, hb.2, hlen⟩]
  | ignored hend herase hroom =>
    refine ⟨?_, fun line => KeyOutcome.noConfusion⟩
    unfold Typing.edit
    split_ifs with hb hprint
    · rw [not_not.mp fun hne => herase ⟨hb, hne⟩]
      rfl
    · exact absurd ⟨⟨hprint.1, hprint.2.1⟩, hprint.2.2⟩ hroom
    · rfl

end LineEditor

namespace Shell

/-- Carries out the lines in order, up to the first one that ends the shell. -/
def executeLines (sh : Shell) : List String → Shell
  | [] => sh
  | line :: rest =>
    if (sh.execute line).2.running then (sh.execute line).2.executeLines rest
    else (sh.execute line).2

variable {sh sh' : Shell} {b : UInt8} {bytes : List UInt8} {line : String}

theorem executeLines_append (h : sh.running = true) (lines more : List String) :
    sh.executeLines (lines ++ more) =
      if (sh.executeLines lines).running then (sh.executeLines lines).executeLines more
      else sh.executeLines lines := by
  induction lines generalizing sh with
  | nil => rw [List.nil_append, executeLines, if_pos h]
  | cons line rest ih =>
    rw [List.cons_append, executeLines, executeLines]
    by_cases hrun : (sh.execute line).2.running = true
    · rw [if_pos hrun, if_pos hrun]
      exact ih hrun
    · rw [if_neg hrun, if_neg hrun, if_neg hrun]

/-- Carrying out a line unless it is blank. -/
theorem executeLines_unlessBlank (sh : Shell) (line : String) :
    sh.executeLines (unlessBlank line).toList = sh.afterLine line := by
  unfold unlessBlank afterLine
  split_ifs
  · rfl
  · rw [Option.toList_some, executeLines]
    split_ifs <;> rfl

theorem Agrees.afterLine (h : sh.Agrees Eq sh') (line : String) :
    (sh.afterLine line).Agrees Eq (sh'.afterLine line) := by
  unfold Shell.afterLine
  split_ifs
  · exact h
  · exact h.execute FileCommand.respects_eq line

theorem afterByte_of_end (h : LineEditor.isLineEnd b = true) :
    sh.afterByte b = (sh.afterLine sh.editor.text).withEditor {} := by
  rw [afterByte, LineEditor.press_of_end _ h]

theorem afterByte_of_not_end (h : LineEditor.isLineEnd b = false) :
    sh.afterByte b = sh.withEditor (sh.editor.press b).2 := by
  have hsubmit := (sh.editor.press_of_not_end h).2
  unfold afterByte
  split
  · rename_i line editor hpress
    exact absurd (congrArg Prod.fst hpress) (hsubmit line)
  · rename_i editor hpress
    rw [hpress]

theorem agrees_withEditor (sh : Shell) (editor : LineEditor) :
    sh.Agrees Eq (sh.withEditor editor) :=
  sh.agrees_equip _ _ editor

/-! ## What is fed is carried out line by line -/

/-- The shell is as if it had carried out the lines that the bytes end and that are not blank; if
it still runs, what is kept of the unfinished line stands in the line editor. -/
structure Follows (sh : Shell) (bytes : List UInt8) (sh' : Shell) : Prop where
  agrees : (sh.executeLines (Typing.commandLines bytes)).Agrees Eq sh'
  typed_eq : sh'.running = true → sh'.editor.typed = Typing.unfinished bytes

section Feed

variable (hrun : sh.running = true)

include hrun

/-- A shell that has followed the bytes, and still runs, follows them with one more. -/
theorem Follows.press (h : sh.Follows bytes sh') (hrun' : sh'.running = true) (b : UInt8) :
    sh.Follows (bytes ++ [b]) (sh'.press b) := by
  have hruns : (sh.executeLines (Typing.commandLines bytes)).running = true :=
    h.agrees.running_eq.symm.trans hrun'
  have hshown := (sh'.shown_press b).agrees
  cases hend : LineEditor.isLineEnd b with
  | true =>
    have hline : LineEditor.asciiText (Typing.unfinished bytes) = sh'.editor.text := by
      rw [LineEditor.text, h.typed_eq hrun']
    refine ⟨?_, fun _ => ?_⟩
    · rw [Typing.commandLines_concat_of_end bytes hend, executeLines_append hrun, if_pos hruns,
        executeLines_unlessBlank, hline]
      rw [afterByte_of_end hend] at hshown
      exact ((h.agrees.afterLine _).trans (agrees_withEditor _ _)).trans hshown
    · rw [Typing.unfinished_concat_of_end bytes hend, editor_press,
        LineEditor.press_of_end _ hend]
  | false =>
    refine ⟨?_, fun _ => ?_⟩
    · rw [Typing.commandLines_concat bytes hend]
      rw [afterByte_of_not_end hend] at hshown
      exact (h.agrees.trans (agrees_withEditor _ _)).trans hshown
    · rw [Typing.unfinished_concat bytes hend, editor_press,
        (sh'.editor.press_of_not_end hend).1, h.typed_eq hrun']

/-- A shell that has ended follows whatever comes. -/
theorem Follows.withKeyboard (h : sh.Follows bytes sh') (hrun' : sh'.running = false)
    (keyboard : Keyboard) (b : UInt8) : sh.Follows (bytes ++ [b]) (sh'.withKeyboard keyboard) := by
  have hended : ¬ (sh.executeLines (Typing.commandLines bytes)).running = true := by
    rw [← h.agrees.running_eq, hrun']
    exact Bool.false_ne_true
  obtain ⟨more, hmore⟩ := Typing.exists_commandLines_concat bytes b
  refine ⟨?_, fun hrun'' => absurd (hrun'.symm.trans hrun'') Bool.false_ne_true⟩
  rw [hmore, executeLines_append hrun, if_neg hended]
  exact h.agrees.trans (sh'.agrees_equip _ _ _)

/-- **What is fed is carried out line by line**, if at first nothing is typed or pending. -/
theorem follows_feed (heditor : sh.editor = {}) (hkeys : sh.session.keyboard = {})
    (bytes : List UInt8) : sh.Follows bytes (sh.feed bytes) := by
  -- from the end, as the bytes before decide whether the last one is still taken
  induction bytes using List.reverseRecOn with
  | nil =>
    rw [(settled_of_taken hkeys).feed_nil]
    exact ⟨.refl sh, fun _ => by rw [heditor]; rfl⟩
  | append_singleton bytes b ih =>
    rw [← feed_append]
    cases hrun' : (sh.feed bytes).running with
    | true =>
      rw [feed_singleton hrun' (sh.settled_feed bytes hrun')]
      exact ih.press hrun hrun' b
    | false =>
      rw [feed_of_ended hrun']
      exact ih.withKeyboard hrun hrun' _ b

/-- **Where a shell ends** that ends while it is fed: at a byte that ends a line, which is carried
out. What comes after that byte stays pending, and nothing stands in the line editor. -/
theorem exists_end_of_feed (heditor : sh.editor = {}) (hkeys : sh.session.keyboard = {})
    (hended : (sh.feed bytes).running = false) :
    ∃ before b rest, bytes = before ++ b :: rest ∧ LineEditor.isLineEnd b = true ∧
      (sh.executeLines (Typing.commandLines before)).running = true ∧
      (sh.executeLines (Typing.commandLines (before ++ [b]))).running = false ∧
      (sh.feed bytes).session.keyboard.pending = rest ∧ (sh.feed bytes).editor.typed = [] := by
  induction bytes using List.reverseRecOn with
  | nil =>
    rw [(settled_of_taken hkeys).feed_nil, hrun] at hended
    cases hended
  | append_singleton bytes b ih =>
    have hfollows := follows_feed hrun heditor hkeys bytes
    have hfollows' := follows_feed hrun heditor hkeys (bytes ++ [b])
    rw [← feed_append] at hended hfollows' ⊢
    cases hrun' : (sh.feed bytes).running with
    | true =>
      have hkeys' := sh.settled_feed bytes hrun'
      rw [feed_singleton hrun' hkeys'] at hended hfollows' ⊢
      cases hend : LineEditor.isLineEnd b with
      | true =>
        refine ⟨bytes, b, [], rfl, hend, ?_, ?_, ?_, ?_⟩
        · exact hfollows.agrees.running_eq.symm.trans hrun'
        · exact hfollows'.agrees.running_eq.symm.trans hended
        · rw [keyboard_press, hkeys']
        · rw [editor_press, LineEditor.press_of_end _ hend]
      | false =>
        have hshown := ((sh.feed bytes).shown_press b).agrees.running_eq
        rw [afterByte_of_not_end hend, hended] at hshown
        exact absurd (hshown.trans hrun') Bool.false_ne_true
    | false =>
      rw [feed_of_ended hrun']
      obtain ⟨before, b', rest, rfl, hend, hbefore, hafter, hpending, htyped⟩ := ih hrun'
      refine ⟨before, b', rest ++ [b], by simp, hend, hbefore, hafter, ?_, htyped⟩
      exact congrArg (· ++ [b]) hpending

/-- **Typing bytes is carrying out the lines that they spell**, one after the other until one of
them ends the shell. If none does, nothing is left pending and the unfinished line stands in the
line editor; otherwise what comes after the byte that submitted the last line stays pending. -/
theorem executes_feed (heditor : sh.editor = {}) (hkeys : sh.session.keyboard = {})
    (bytes : List UInt8) :
    (sh.executeLines (Typing.commandLines bytes)).Agrees Eq (sh.feed bytes) ∧
      ((sh.feed bytes).running = true ∧ (sh.feed bytes).session.keyboard.pending = [] ∧
          (sh.feed bytes).editor.typed = Typing.unfinished bytes ∨
        (sh.feed bytes).running = false ∧ ∃ before b rest, bytes = before ++ b :: rest ∧
          LineEditor.isLineEnd b = true ∧
          (sh.executeLines (Typing.commandLines before)).running = true ∧
          (sh.executeLines (Typing.commandLines (before ++ [b]))).running = false ∧
          (sh.feed bytes).session.keyboard.pending = rest ∧ (sh.feed bytes).editor.typed = []) := by
  have hfollows := follows_feed hrun heditor hkeys bytes
  refine ⟨hfollows.agrees, ?_⟩
  cases hrun' : (sh.feed bytes).running with
  | true =>
    have hkeys' := sh.settled_feed bytes hrun'
    exact .inl ⟨rfl, by rw [hkeys'], hfollows.typed_eq hrun'⟩
  | false => exact .inr ⟨rfl, exists_end_of_feed hrun heditor hkeys hrun'⟩

end Feed

/-- A line with corrections, one that is longer than the editor has room for, a blank one, and one
that ends the shell before the bytes do. -/
theorem executes_feed_of_exit :
    let sh : Shell := { session := { store := Store.init ⟨0⟩ { maxEntries := 4 } {} } }
    let bytes : List UInt8 := Text.bytes "mkdir dx" ++ [8, 7, 13] ++ Text.bytes "touch " ++
      List.replicate 300 102 ++ [127, 13, 10] ++ Text.bytes "  \nexit 3\ntouch g\n"
    sh.running = true ∧ sh.editor = {} ∧ sh.session.keyboard = {} ∧
      (sh.executeLines (Typing.commandLines bytes)).Agrees Eq (sh.feed bytes) ∧
      ((sh.feed bytes).running = true ∧ (sh.feed bytes).session.keyboard.pending = [] ∧
          (sh.feed bytes).editor.typed = Typing.unfinished bytes ∨
        (sh.feed bytes).running = false ∧ ∃ before b rest, bytes = before ++ b :: rest ∧
          LineEditor.isLineEnd b = true ∧
          (sh.executeLines (Typing.commandLines before)).running = true ∧
          (sh.executeLines (Typing.commandLines (before ++ [b]))).running = false ∧
          (sh.feed bytes).session.keyboard.pending = rest ∧
          (sh.feed bytes).editor.typed = []) := by
  intro sh bytes
  exact ⟨rfl, rfl, rfl, executes_feed rfl rfl rfl bytes⟩

end Shell

end FileTree
