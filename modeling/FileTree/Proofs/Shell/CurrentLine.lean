import FileTree.Proofs.Shell.Answers
import FileTree.Proofs.Shell.Typing
import Mathlib.Data.List.DropRight

/-!
# The line being typed

For every byte the line editor tells what became of the line, and keeps the line to itself. Who
replays what it tells has the same line at all times: a byte that is echoed is added, and an erasure
takes the last one away, of which there is one whenever an erasure is told. So a line that is
submitted is the one replayed.

The shell replays on its console, which shows a byte where the cursor stands, and moves the cursor
back for a backspace. What stands between the beginning of the line and the cursor is then the line
that Enter would submit, and there are only blanks behind the cursor.

## Main definitions

* `KeyOutcome.replay`, `LineEditor.replayed`: the line after an outcome, and after those of typed
  bytes
* `Row`: a row of the console with the cursor in it
* `LineEditor.Reproduced`: the line of the editor is the one replayed and the one shown

## Main results

* `LineEditor.Pressed.press_eq`: the byte and the line decide what becomes of the line
* `LineEditor.fst_press_eq_iff`: what is told of a byte, and so exactly when it is echoed, when it
  erases and when it is ignored
* `LineEditor.typed_pressAll`: the line of the editor is the one replayed
* `LineEditor.Fits.pressAll`: a line is short and printable
* `Shell.exists_shown`: what the console has shown since the last line ended
* `LineEditor.reproduced`: all of it, after any bytes
-/

namespace FileTree

/-! ## What is told of a byte -/

namespace KeyOutcome

/-- The line after an outcome. -/
def replay (line : List UInt8) : KeyOutcome → List UInt8
  | .echo b => line ++ [b]
  | .erase => line.dropLast
  | .submit _ => []
  | .ignored => line

/-- The bytes that show an outcome within a line: an erasure goes back, puts a blank in place of the
last byte, and goes back again. -/
def shown : KeyOutcome → List UInt8
  | .echo b => [b]
  | .erase => [8, 32, 8]
  | .submit _ | .ignored => []

end KeyOutcome

namespace LineEditor

variable {e e' : LineEditor} {b : UInt8} {outcome : KeyOutcome}

/-- The editor after bytes in order. -/
def pressAll (e : LineEditor) (bytes : List UInt8) : LineEditor :=
  bytes.foldl (fun e b => (e.press b).2) e

/-- What the editor tells of the bytes. -/
def outcomes (e : LineEditor) : List UInt8 → List KeyOutcome
  | [] => []
  | b :: bytes => (e.press b).1 :: (e.press b).2.outcomes bytes

/-- The line that the outcomes of the bytes give on an empty line. -/
def replayed (bytes : List UInt8) : List UInt8 :=
  (outcomes {} bytes).foldl KeyOutcome.replay []

/-- The byte and the line decide what becomes of the line. -/
theorem Pressed.press_eq (h : e.Pressed b outcome e') : e.press b = (outcome, e') := by
  cases h with
  | submitted hb => exact press_of_end e (isLineEnd_iff.mpr hb)
  | erased hb hne =>
    have hempty : ¬ e.typed.isEmpty = true := List.isEmpty_iff.not.mpr hne
    have hend : ¬ isLineEnd b = true := by rcases hb with rfl | rfl <;> decide
    rw [press, if_neg hend, if_pos (isErase_iff.mpr hb), if_neg hempty]
  | echoed hb hlen =>
    have hprint : isPrintable b = true := isPrintable_iff.mpr hb
    obtain ⟨hend, herase⟩ := not_control_of_isPrintable hprint
    rw [press, if_neg hend, if_neg herase, if_pos]
    rw [hprint, Bool.true_and]
    exact decide_eq_true hlen
  | ignored hend herase hroom =>
    have hp := e.pressed_press b
    generalize e.press b = pressed at hp ⊢
    obtain ⟨outcome, editor⟩ := pressed
    cases hp with
    | submitted hb => exact absurd hb hend
    | erased hb hne => exact absurd ⟨hb, hne⟩ herase
    | echoed hb hlen => exact absurd ⟨hb, hlen⟩ hroom
    | ignored => rfl

theorem fst_press_eq_iff : (e.press b).1 = outcome ↔ ∃ e', e.Pressed b outcome e' := by
  constructor
  · rintro rfl
    exact ⟨_, e.pressed_press b⟩
  · rintro ⟨e', h⟩
    rw [h.press_eq]

theorem fst_press_eq_echo_iff {c : UInt8} : (e.press b).1 = .echo c ↔
    c = b ∧ (32 ≤ b ∧ b ≤ 126) ∧ e.typed.length < 255 := by
  rw [fst_press_eq_iff]
  constructor
  · rintro ⟨_, h⟩
    cases h with
    | echoed hb hlen => exact ⟨rfl, hb, hlen⟩
  · rintro ⟨rfl, hb, hlen⟩
    exact ⟨_, .echoed hb hlen⟩

theorem fst_press_eq_erase_iff : (e.press b).1 = .erase ↔ (b = 8 ∨ b = 127) ∧ e.typed ≠ [] := by
  rw [fst_press_eq_iff]
  constructor
  · rintro ⟨_, h⟩
    cases h with
    | erased hb hne => exact ⟨hb, hne⟩
  · rintro ⟨hb, hne⟩
    exact ⟨_, .erased hb hne⟩

theorem fst_press_eq_submit_iff {line : String} : (e.press b).1 = .submit line ↔
    (b = 10 ∨ b = 13) ∧ line = e.text := by
  rw [fst_press_eq_iff]
  constructor
  · rintro ⟨_, h⟩
    cases h with
    | submitted hb => exact ⟨hb, rfl⟩
  · rintro ⟨hb, rfl⟩
    exact ⟨_, .submitted hb⟩

theorem fst_press_eq_ignored_iff : (e.press b).1 = .ignored ↔ ¬ (b = 10 ∨ b = 13) ∧
    ¬ ((b = 8 ∨ b = 127) ∧ e.typed ≠ []) ∧
    ¬ ((32 ≤ b ∧ b ≤ 126) ∧ e.typed.length < 255) := by
  rw [fst_press_eq_iff]
  constructor
  · rintro ⟨_, h⟩
    cases h with
    | ignored hend herase hroom => exact ⟨hend, herase, hroom⟩
  · rintro ⟨hend, herase, hroom⟩
    exact ⟨_, .ignored hend herase hroom⟩

/-! ## Replaying -/

theorem Pressed.typed_eq (h : e.Pressed b outcome e') : e'.typed = outcome.replay e.typed := by
  cases h <;> rfl

/-- **The line of the editor is the one replayed.** -/
theorem typed_pressAll (e : LineEditor) (bytes : List UInt8) :
    (e.pressAll bytes).typed = (e.outcomes bytes).foldl KeyOutcome.replay e.typed := by
  induction bytes generalizing e with
  | nil => rfl
  | cons b bytes ih =>
    rw [outcomes, List.foldl_cons, ← (e.pressed_press b).typed_eq]
    exact ih (e.press b).2

/-- The line is short and printable. -/
structure Fits (e : LineEditor) : Prop where
  length_le : e.typed.length ≤ 255
  printable : ∀ b ∈ e.typed, 32 ≤ b ∧ b ≤ 126

theorem fits_empty : ({} : LineEditor).Fits :=
  ⟨Nat.zero_le _, fun _ hb => absurd hb List.not_mem_nil⟩

theorem Fits.pressed (h : e.Fits) (hp : e.Pressed b outcome e') : e'.Fits := by
  cases hp with
  | submitted hb => exact fits_empty
  | erased hb hne =>
    refine ⟨?_, fun c hc => h.printable c (List.mem_of_mem_dropLast hc)⟩
    exact (List.dropLast_sublist e.typed).length_le.trans h.length_le
  | echoed hb hlen =>
    refine ⟨List.length_append.trans_le hlen, fun c hc => ?_⟩
    rcases List.mem_append.mp hc with hc | hc
    · exact h.printable c hc
    · exact List.eq_of_mem_singleton hc ▸ hb
  | ignored hend herase hroom => exact h

theorem Fits.pressAll (h : e.Fits) (bytes : List UInt8) : (e.pressAll bytes).Fits := by
  induction bytes generalizing e with
  | nil => exact h
  | cons b bytes ih => exact ih (h.pressed (e.pressed_press b))

/-! ## The line as text -/

theorem utf8EncodeChar_ofNat (hb : b ≤ 126) : String.utf8EncodeChar (Char.ofNat b.toNat) = [b] := by
  have hle : b.toNat ≤ 126 := UInt8.le_iff_toNat_le.mp hb
  have hvalid : b.toNat.isValidChar := .inl (by omega)
  have hval : (Char.ofNat b.toNat).val = b.toUInt32 := by
    unfold Char.ofNat
    rw [dif_pos hvalid]
    rfl
  have hsize : (Char.ofNat b.toNat).utf8Size = 1 := by
    rw [Char.utf8Size, hval, if_pos]
    rw [UInt32.le_iff_toNat_le, UInt8.toNat_toUInt32]
    exact hle.trans (by decide)
  rw [String.utf8EncodeChar_eq_singleton hsize, hval, UInt8.toUInt8_toUInt32]

/-- The text of printable bytes has these as its UTF-8 form. -/
theorem bytes_asciiText {bytes : List UInt8} (h : ∀ b ∈ bytes, 32 ≤ b ∧ b ≤ 126) :
    Text.bytes (asciiText bytes) = bytes := by
  rw [Text.bytes, asciiText, String.toList_ofList]
  induction bytes with
  | nil => rfl
  | cons b bytes ih =>
    rw [List.forall_mem_cons] at h
    rw [List.map_cons, List.flatMap_cons, utf8EncodeChar_ofNat h.1.2, ih h.2]
    rfl

end LineEditor

/-! ## What the console shows -/

/-- A row of the console: the cells before the cursor, and those from the cursor on. -/
structure Row where
  before : List UInt8
  after : List UInt8 := []

namespace Row

/-- The row after a byte: a backspace moves the cursor back, and any other byte is shown in the cell
at the cursor, which moves on. -/
def put (r : Row) (b : UInt8) : Row :=
  if b = 8 then ⟨r.before.dropLast, r.before.getLast?.toList ++ r.after⟩
  else ⟨r.before ++ [b], r.after.tail⟩

/-- The row after bytes in order. -/
def write (r : Row) (bytes : List UInt8) : Row :=
  bytes.foldl put r

theorem write_append (r : Row) (a b : List UInt8) : r.write (a ++ b) = (r.write a).write b :=
  List.foldl_append

/-- The row shows a line behind what stands there, with the cursor at its end and blanks from there
on. -/
def Displays (r : Row) (start line : List UInt8) : Prop :=
  ∃ n, r = ⟨start ++ line, List.replicate n 32⟩

variable {r : Row} {start : List UInt8} {e e' : LineEditor} {b : UInt8} {outcome : KeyOutcome}

theorem displays_nil (start : List UInt8) : Displays ⟨start, []⟩ start [] :=
  ⟨0, by rw [List.append_nil]; rfl⟩

/-- **Showing an outcome replays it**, and leaves what stands before the line. -/
theorem Displays.write (h : r.Displays start e.typed) (hb : LineEditor.isLineEnd b = false)
    (hp : e.Pressed b outcome e') : (r.write outcome.shown).Displays start e'.typed := by
  obtain ⟨n, rfl⟩ := h
  cases hp with
  | submitted hend =>
    rw [LineEditor.isLineEnd_iff.mpr hend] at hb
    cases hb
  | erased hback hne =>
    obtain ⟨line, last, htyped⟩ := (List.eq_nil_or_concat e.typed).resolve_left hne
    refine ⟨n + 1, ?_⟩
    simp [htyped, KeyOutcome.shown, Row.write, put, ← List.append_assoc, List.replicate_succ]
  | echoed hprint hlen =>
    have hne : b ≠ 8 := by
      rintro rfl
      exact absurd hprint.1 (by decide)
    refine ⟨n - 1, ?_⟩
    simp [KeyOutcome.shown, Row.write, put, hne]
  | ignored hend herase hroom => exact ⟨n, rfl⟩

end Row

namespace Shell

variable {sh : Shell} {b : UInt8}

/-- The shell after typed bytes in order. -/
def pressAll (sh : Shell) (bytes : List UInt8) : Shell :=
  bytes.foldl press sh

theorem pressAll_concat (sh : Shell) (bytes : List UInt8) (b : UInt8) :
    sh.pressAll (bytes ++ [b]) = (sh.pressAll bytes).press b := by
  rw [pressAll, List.foldl_append]
  rfl

theorem editor_pressAll (sh : Shell) (bytes : List UInt8) :
    (sh.pressAll bytes).editor = sh.editor.pressAll bytes := by
  induction bytes generalizing sh with
  | nil => rfl
  | cons b bytes ih =>
    exact (ih (sh.press b)).trans (congrArg (·.pressAll bytes) (editor_press sh b))

theorem echo_withEditor (sh : Shell) (editor : LineEditor) :
    (sh.withEditor editor).echo = sh.echo := rfl

theorem echo_afterLine (sh : Shell) (line : String) : (sh.afterLine line).echo = sh.echo := by
  unfold afterLine
  split_ifs
  · rfl
  · exact (sh.devices_execute line).2.2.2

/-- No typed byte turns the echo on or off. -/
theorem echo_press (sh : Shell) (b : UInt8) : (sh.press b).echo = sh.echo := by
  have hafter : (sh.afterByte b).echo = sh.echo := by
    unfold afterByte
    split
    · rw [echo_withEditor, echo_afterLine]
    · rw [echo_withEditor]
  obtain ⟨console, hpress⟩ := sh.shown_press b
  rw [hpress]
  exact hafter

theorem echo_pressAll (sh : Shell) (bytes : List UInt8) : (sh.pressAll bytes).echo = sh.echo := by
  induction bytes generalizing sh with
  | nil => rfl
  | cons b bytes ih => exact (ih (sh.press b)).trans (echo_press sh b)

/-- What is echoed is shown as a whole, unless it has a NUL. -/
theorem output_echoText (hecho : sh.echo = true) {text : String} (hnul : 0 ∉ Text.bytes text) :
    (sh.echoText text).session.console.output = sh.session.console.output ++ Text.bytes text := by
  have htake : untilNul (Text.bytes text) = Text.bytes text := (untilNul_eq_self_iff _).mpr hnul
  rw [untilNul] at htake
  rw [echoText, if_pos hecho, print_eq sh (.inl rfl), htake]
  exact Console.output_write _ _

/-- Within a line, the console takes what shows the outcome of the byte. -/
theorem output_press (hecho : sh.echo = true) (hb : LineEditor.isLineEnd b = false) :
    (sh.press b).session.console.output =
      sh.session.console.output ++ (sh.editor.press b).1.shown := by
  have hp := sh.editor.pressed_press b
  unfold press
  generalize sh.editor.press b = pressed at hp ⊢
  obtain ⟨outcome, editor⟩ := pressed
  dsimp only at hp ⊢
  have hecho' : ({ sh with editor := editor } : Shell).echo = true := hecho
  cases hp with
  | submitted hend =>
    rw [LineEditor.isLineEnd_iff.mpr hend] at hb
    cases hb
  | erased hback hne => exact output_echoText hecho' (by decide +kernel)
  | echoed hprint hlen =>
    have hbytes : Text.bytes (LineEditor.asciiText [b]) = [b] :=
      LineEditor.bytes_asciiText fun c hc => List.eq_of_mem_singleton hc ▸ hprint
    have hnul : 0 ∉ Text.bytes (LineEditor.asciiText [b]) := by
      rw [hbytes]
      intro hzero
      rw [← List.eq_of_mem_singleton hzero] at hprint
      exact absurd hprint.1 (by decide)
    have houtput := output_echoText hecho' hnul
    rwa [hbytes] at houtput
  | ignored hend herase hroom => exact (List.append_nil _).symm

end Shell

/-- The bytes up to the last one that ends a line. -/
def Typing.ended (bytes : List UInt8) : List UInt8 :=
  bytes.rdropWhile fun b => !LineEditor.isLineEnd b

/-- **What the console shows since the last line ended** is the line of the editor, whatever stands
before it in the row. -/
theorem Shell.exists_shown {sh : Shell} (hecho : sh.echo = true) (heditor : sh.editor = {})
    (bytes : List UInt8) :
    ∃ shown, (sh.pressAll bytes).session.console.output =
        (sh.pressAll (Typing.ended bytes)).session.console.output ++ shown ∧
      ∀ start, (Row.write ⟨start, []⟩ shown).Displays start (sh.pressAll bytes).editor.typed := by
  induction bytes using List.reverseRecOn with
  | nil =>
    refine ⟨[], (List.append_nil _).symm, fun start => ?_⟩
    rw [show (sh.pressAll []).editor = {} from heditor]
    exact Row.displays_nil start
  | append_singleton bytes b ih =>
    cases hend : LineEditor.isLineEnd b with
    | true =>
      have hended : Typing.ended (bytes ++ [b]) = bytes ++ [b] :=
        List.rdropWhile_concat_neg _ _ _ (by simp [hend])
      refine ⟨[], by rw [hended, List.append_nil], fun start => ?_⟩
      rw [pressAll_concat, editor_press, LineEditor.press_of_end _ hend]
      exact Row.displays_nil start
    | false =>
      obtain ⟨shown, houtput, hdisplays⟩ := ih
      have hended : Typing.ended (bytes ++ [b]) = Typing.ended bytes :=
        List.rdropWhile_concat_pos _ _ _ (by simp [hend])
      refine ⟨shown ++ ((sh.pressAll bytes).editor.press b).1.shown, ?_, fun start => ?_⟩
      · rw [pressAll_concat, output_press ((echo_pressAll sh bytes).trans hecho) hend, houtput,
          hended, List.append_assoc]
      · rw [Row.write_append, pressAll_concat, editor_press]
        exact (hdisplays start).write hend (LineEditor.pressed_press _ b)

/-! ## The contract -/

namespace LineEditor

/-- After the bytes, the line of a fresh editor is the one replayed and the one shown. -/
structure Reproduced (bytes : List UInt8) : Prop where
  /-- Replaying what is told of the bytes gives the line of the editor. -/
  typed_eq : (pressAll {} bytes).typed = replayed bytes
  /-- As text, the line has these bytes, and no others. -/
  bytes_text : Text.bytes (pressAll {} bytes).text = replayed bytes
  length_le : (pressAll {} bytes).typed.length ≤ 255
  printable : ∀ b ∈ (pressAll {} bytes).typed, 32 ≤ b ∧ b ≤ 126
  /-- A byte is echoed exactly when it is printable and there is room for it, -/
  echo_iff : ∀ b c, ((pressAll {} bytes).press b).1 = .echo c ↔
    c = b ∧ (32 ≤ b ∧ b ≤ 126) ∧ (replayed bytes).length < 255
  /-- erases exactly when it is a backspace or a delete and the line is not empty, -/
  erase_iff : ∀ b, ((pressAll {} bytes).press b).1 = .erase ↔
    (b = 8 ∨ b = 127) ∧ replayed bytes ≠ []
  /-- submits exactly when it is an Enter, and then the line replayed, -/
  submit_iff : ∀ b line, ((pressAll {} bytes).press b).1 = .submit line ↔
    (b = 10 ∨ b = 13) ∧ line = asciiText (replayed bytes)
  /-- which leaves an empty one, -/
  typed_of_submit : ∀ b line, ((pressAll {} bytes).press b).1 = .submit line →
    ((pressAll {} bytes).press b).2.typed = []
  /-- and is ignored otherwise. -/
  ignored_iff : ∀ b, ((pressAll {} bytes).press b).1 = .ignored ↔ ¬ (b = 10 ∨ b = 13) ∧
    ¬ ((b = 8 ∨ b = 127) ∧ replayed bytes ≠ []) ∧
    ¬ ((32 ≤ b ∧ b ≤ 126) ∧ (replayed bytes).length < 255)
  /-- A shell that shows what is typed has this line in its editor. Since the last line ended, its
  console took what displays the line, whatever stands before it in the row. -/
  shown : ∀ sh : Shell, sh.echo = true → sh.editor = {} →
    (sh.pressAll bytes).editor = pressAll {} bytes ∧
      ∃ shown, (sh.pressAll bytes).session.console.output =
          (sh.pressAll (Typing.ended bytes)).session.console.output ++ shown ∧
        ∀ start, (Row.write ⟨start, []⟩ shown).Displays start (replayed bytes)

/-- **What is shown is what Enter would submit**: after any bytes, the line of a fresh editor is the
one replayed and the one shown. -/
theorem reproduced (bytes : List UInt8) : Reproduced bytes := by
  have htyped : (pressAll {} bytes).typed = replayed bytes := typed_pressAll {} bytes
  have hfits : (pressAll {} bytes).Fits := fits_empty.pressAll bytes
  exact {
    typed_eq := htyped
    bytes_text := htyped ▸ bytes_asciiText hfits.printable
    length_le := hfits.length_le
    printable := hfits.printable
    echo_iff := fun _ _ => htyped ▸ fst_press_eq_echo_iff
    erase_iff := fun _ => htyped ▸ fst_press_eq_erase_iff
    submit_iff := fun _ _ => htyped ▸ fst_press_eq_submit_iff
    typed_of_submit := fun b line h => by
      obtain ⟨hb, -⟩ := fst_press_eq_submit_iff.mp h
      rw [press_of_end _ (isLineEnd_iff.mpr hb)]
    ignored_iff := fun _ => htyped ▸ fst_press_eq_ignored_iff
    shown := fun sh hecho heditor => by
      have heditor' : (sh.pressAll bytes).editor = pressAll {} bytes := by
        rw [Shell.editor_pressAll, heditor]
      obtain ⟨shown, houtput, hdisplays⟩ := Shell.exists_shown hecho heditor bytes
      rw [heditor', htyped] at hdisplays
      exact ⟨heditor', shown, houtput, hdisplays⟩ }

/-- A line of 255 bytes takes no more, loses its last two and is submitted, and another one is typed
over what was erased. -/
theorem reproduced_of_overflow :
    let bytes := List.replicate 300 97 ++ [8, 127, 13, 98, 99, 8, 200, 100]
    (outcomes {} bytes = List.replicate 255 (.echo 97) ++ List.replicate 45 .ignored ++
        [.erase, .erase, .submit (asciiText (List.replicate 253 97)), .echo 98, .echo 99, .erase,
          .ignored, .echo 100] ∧
      replayed bytes = [98, 100]) ∧ Reproduced bytes := by
  intro bytes
  exact ⟨by decide +kernel, reproduced bytes⟩

end LineEditor

end FileTree
