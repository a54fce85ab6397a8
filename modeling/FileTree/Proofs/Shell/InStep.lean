import FileTree.Proofs.ByPath.Twins
import FileTree.Proofs.Shell.Input

/-!
# Shells in step

What a command does hangs on the store, on the environment and on the directory that is shown, and
not on the devices of the shell, on the line that is being typed or on whether typed bytes are
shown. So two shells that agree in the former stay in agreement, whatever is carried out in both;
and if they agree in the latter too, but for the keys still pending, their consoles show the same.

How far the stores have to agree is left open: they may be the same, or the same but for what
stands in the log.

## Main definitions

* `FileCommand.Respects`: commands on files do not lead out of a relation of stores
* `Shell.Agrees`: the shells agree in all that commands read and change
* `Shell.Mirrors`: they also show the same
* `Shell.Discreet`: a line whose answer shows no difference of the stores
* `Shell.Shown`: the shells differ in what stands on the console only
* `Shell.afterLine`, `Shell.afterByte`: what a submitted line, and a typed byte, do but for showing

## Main results

* `Shell.Agrees.execute`: shells that agree still do when both carry out a line
* `Shell.execute_equip`: carrying out a line neither reads nor changes the devices
* `Shell.shown_press`: what a typed byte does
* `Shell.Mirrors.press`: shells that show the same still do after a typed byte
-/

namespace FileTree

/-- Commands on files keep stores related by `R`, and answer alike in such stores unless they are
among those that tell them apart. -/
structure FileCommand.Respects (R : Store → Store → Prop) (Tells : FileCommand → Prop) : Prop where
  run {s t : Store} (c : FileCommand) : R s t → R (c.run s).2 (c.run t).2
  answer_eq {s t : Store} {c : FileCommand} : R s t → ¬ Tells c → (c.run t).1 = (c.run s).1
  current_eq {s t : Store} : R s t → ByPath.current t = ByPath.current s
  record {s t : Store} (r : Record) : R s t → R (s.record r) (t.record r)

theorem FileCommand.respects_eq : Respects Eq fun _ => False where
  run _ h := h ▸ rfl
  answer_eq h _ := h ▸ rfl
  current_eq h := h ▸ rfl
  record _ h := h ▸ rfl

/-- Only the command that shows the log tells twins apart. -/
theorem FileCommand.respects_twins : Respects Store.Twins fun c => ∃ count, c = .log count where
  run c h := h.twins_run c
  answer_eq h hc := (h.run fun count hlog => hc ⟨count, hlog⟩).answer_eq
  current_eq h := h.current_eq
  record r h := h.record r r

namespace Shell

/-- The shells agree in all that commands read and change, in their stores as far as `R` goes. They
may differ in their devices, in the line that is being typed, and in whether they show it. -/
structure Agrees (R : Store → Store → Prop) (sh sh' : Shell) : Prop where
  store : R sh.session.store sh'.session.store
  files_eq : sh'.session.files = sh.session.files
  environment_eq : sh'.session.environment = sh.session.environment
  exitStatus_eq : sh'.session.exitStatus = sh.session.exitStatus
  cwd_eq : sh'.cwd = sh.cwd
  running_eq : sh'.running = sh.running

/-- The shells agree, show the same and are being typed the same line. Only their keyboards may
differ, and their stores as far as `R` goes. -/
structure Mirrors (R : Store → Store → Prop) (sh sh' : Shell) : Prop extends sh.Agrees R sh' where
  console_eq : sh'.session.console = sh.session.console
  editor_eq : sh'.editor = sh.editor
  echo_eq : sh'.echo = sh.echo

/-- The line spells no command that tells. -/
def Discreet (Tells : FileCommand → Prop) (line : String) : Prop :=
  ∀ c, Command.parse line = .ok (.file c) → ¬ Tells c

variable {R : Store → Store → Prop} {Tells : FileCommand → Prop} {sh sh' sh'' : Shell}
  {fd : Descriptor} {line : String}

theorem Agrees.refl (sh : Shell) : sh.Agrees Eq sh := ⟨rfl, rfl, rfl, rfl, rfl, rfl⟩

/-- Agreement carries over to shells that agree with the two in everything. -/
theorem Agrees.of_agrees (h : sh.Agrees R sh') {sh₁ sh₁' : Shell} (hleft : sh.Agrees Eq sh₁)
    (hright : sh'.Agrees Eq sh₁') : sh₁.Agrees R sh₁' :=
  ⟨hleft.store ▸ hright.store ▸ h.store,
    hright.files_eq.trans (h.files_eq.trans hleft.files_eq.symm),
    hright.environment_eq.trans (h.environment_eq.trans hleft.environment_eq.symm),
    hright.exitStatus_eq.trans (h.exitStatus_eq.trans hleft.exitStatus_eq.symm),
    hright.cwd_eq.trans (h.cwd_eq.trans hleft.cwd_eq.symm),
    hright.running_eq.trans (h.running_eq.trans hleft.running_eq.symm)⟩

theorem Agrees.trans (h : sh.Agrees R sh') (h' : sh'.Agrees Eq sh'') : sh.Agrees R sh'' :=
  h.of_agrees (.refl sh) h'

/-! ## Carrying out a line -/

section Respects

variable (hR : FileCommand.Respects R Tells)

include hR

theorem Agrees.refreshCwd (h : sh.Agrees R sh') : sh.refreshCwd.Agrees R sh'.refreshCwd := by
  unfold Shell.refreshCwd
  rw [hR.current_eq h.store]
  cases ByPath.current sh.session.store with
  | ok path => exact ⟨h.store, h.files_eq, h.environment_eq, h.exitStatus_eq, rfl, h.running_eq⟩
  | error cause => exact h

theorem Agrees.leave (h : sh.Agrees R sh') (operand : String) :
    (sh.leave operand).2.Agrees R (sh'.leave operand).2 := by
  unfold Shell.leave
  cases exitStatus? operand with
  | none => exact h
  | some status =>
    exact ⟨hR.record _ h.store, h.files_eq, h.environment_eq, rfl, h.cwd_eq, rfl⟩

theorem Agrees.perform (h : sh.Agrees R sh') (command : Command) :
    (sh.perform command).2.Agrees R (sh'.perform command).2 := by
  cases command with
  | file c =>
    have hrun : (sh.withStore (c.run sh.session.store).2).Agrees R
        (sh'.withStore (c.run sh'.session.store).2) :=
      ⟨hR.run c h.store, h.files_eq, h.environment_eq, h.exitStatus_eq, h.cwd_eq, h.running_eq⟩
    simp only [Shell.perform]
    split_ifs
    · exact hrun.refreshCwd hR
    · exact hrun
  | help => exact h
  | echo text => exact h
  | set key value =>
    simp only [Shell.perform, request, Session.handle, Session.setEnv]
    split_ifs
    · exact h
    · refine ⟨h.store, h.files_eq, ?_, h.exitStatus_eq, h.cwd_eq, h.running_eq⟩
      exact congrArg (Environment.set · key value) h.environment_eq
  | env => exact h
  | exit status => exact h.leave hR status

/-- Shells that agree still do when both carry out a line. -/
theorem Agrees.execute (h : sh.Agrees R sh') (line : String) :
    (sh.execute line).2.Agrees R (sh'.execute line).2 := by
  unfold Shell.execute
  cases Command.parse line with
  | error e => exact h
  | ok command => exact h.perform hR command

/-- Shells that agree answer a line alike, unless it spells a command that tells. -/
theorem Agrees.answer_eq (h : sh.Agrees R sh') (hline : Discreet Tells line) :
    (sh'.execute line).1 = (sh.execute line).1 := by
  unfold Shell.execute
  cases hp : Command.parse line with
  | error e => rfl
  | ok command =>
    cases command with
    | file c => exact hR.answer_eq h.store (hline c hp)
    | help => rfl
    | echo text => rfl
    | set key value =>
      simp only [Shell.perform, request, Session.handle, Session.setEnv]
      split_ifs <;> rfl
    | env => simp only [Shell.perform, h.environment_eq]
    | exit status =>
      simp only [Shell.perform, Shell.leave]
      cases exitStatus? status <;> rfl

end Respects

/-- Every line is discreet where no command tells. -/
theorem discreet_of_false (line : String) : Discreet (fun _ => False) line := fun _ _ h => h

/-! ## The devices -/

/-- The shell with other devices, and with another line being typed. -/
def equip (sh : Shell) (keyboard : Keyboard) (console : Console) (editor : LineEditor) : Shell :=
  { sh with
    session := { sh.session with keyboard := keyboard, console := console }
    editor := editor }

/-- The shell with other keys pending. -/
def withKeyboard (sh : Shell) (keyboard : Keyboard) : Shell :=
  sh.equip keyboard sh.session.console sh.editor

/-- The shell with another line being typed. -/
def withEditor (sh : Shell) (editor : LineEditor) : Shell :=
  sh.equip sh.session.keyboard sh.session.console editor

@[simp] theorem keyboard_withEditor (sh : Shell) (editor : LineEditor) :
    (sh.withEditor editor).session.keyboard = sh.session.keyboard := rfl

theorem agrees_equip (sh : Shell) (keyboard : Keyboard) (console : Console) (editor : LineEditor) :
    sh.Agrees Eq (sh.equip keyboard console editor) :=
  ⟨rfl, rfl, rfl, rfl, rfl, rfl⟩

/-- Shells that agree and echo alike differ in their devices only. -/
theorem Agrees.eq_equip (h : sh.Agrees Eq sh') (hecho : sh'.echo = sh.echo) :
    sh' = sh.equip sh'.session.keyboard sh'.session.console sh'.editor := by
  obtain ⟨⟨store, _, _, files, environment, exitStatus⟩, _, cwd, running, echo⟩ := sh'
  obtain ⟨rfl, rfl, rfl, rfl, rfl, rfl⟩ := h
  obtain rfl : echo = sh.echo := hecho
  rfl

/-- Carrying out a line touches neither the devices, nor the line editor, nor the echo. -/
theorem devices_execute (sh : Shell) (line : String) :
    (sh.execute line).2.session.keyboard = sh.session.keyboard ∧
      (sh.execute line).2.session.console = sh.session.console ∧
      (sh.execute line).2.editor = sh.editor ∧ (sh.execute line).2.echo = sh.echo := by
  unfold execute
  cases Command.parse line with
  | error e => exact ⟨rfl, rfl, rfl, rfl⟩
  | ok command =>
    cases command with
    | file c =>
      simp only [perform, refreshCwd]
      split_ifs
      · split <;> exact ⟨rfl, rfl, rfl, rfl⟩
      · exact ⟨rfl, rfl, rfl, rfl⟩
    | set key value =>
      simp only [perform, request, Session.handle, Session.setEnv]
      split_ifs <;> exact ⟨rfl, rfl, rfl, rfl⟩
    | exit status =>
      simp only [perform, leave]
      cases exitStatus? status <;> exact ⟨rfl, rfl, rfl, rfl⟩
    | _ => exact ⟨rfl, rfl, rfl, rfl⟩

/-- Carrying out a line neither reads nor changes the devices. -/
theorem execute_equip (sh : Shell) (keyboard : Keyboard) (console : Console)
    (editor : LineEditor) (line : String) :
    ((sh.equip keyboard console editor).execute line).2 =
      (sh.execute line).2.equip keyboard console editor := by
  have hagrees := sh.agrees_equip keyboard console editor
  have hafter := hagrees.execute FileCommand.respects_eq line
  obtain ⟨hkeyboard, hconsole, heditor, hecho⟩ :=
    (sh.equip keyboard console editor).devices_execute line
  have heq := hafter.eq_equip (hecho.trans (sh.devices_execute line).2.2.2.symm)
  rwa [hkeyboard, hconsole, heditor] at heq

/-- The shell that has carried out the line, unless the line is blank. -/
def afterLine (sh : Shell) (line : String) : Shell :=
  if (Text.trim line).isEmpty then sh else (sh.execute line).2

theorem afterLine_equip (sh : Shell) (keyboard : Keyboard) (console : Console)
    (editor : LineEditor) (line : String) :
    (sh.equip keyboard console editor).afterLine line =
      (sh.afterLine line).equip keyboard console editor := by
  unfold afterLine
  split_ifs
  · rfl
  · exact sh.execute_equip keyboard console editor line

theorem devices_afterLine (sh : Shell) (line : String) :
    (sh.afterLine line).session.keyboard = sh.session.keyboard ∧
      (sh.afterLine line).session.console = sh.session.console := by
  unfold afterLine
  split_ifs
  · exact ⟨rfl, rfl⟩
  · obtain ⟨hkeyboard, hconsole, -, -⟩ := sh.devices_execute line
    exact ⟨hkeyboard, hconsole⟩

/-- Which line is being typed does not matter to one that is carried out. -/
theorem afterLine_withEditor (sh : Shell) (editor : LineEditor) (line : String) :
    (sh.withEditor editor).afterLine line = (sh.afterLine line).withEditor editor := by
  obtain ⟨hkeyboard, hconsole⟩ := sh.devices_afterLine line
  rw [withEditor, withEditor, afterLine_equip, hkeyboard, hconsole]

/-! ## What is shown -/

/-- The shells differ in what stands on the console only. -/
def Shown (sh sh' : Shell) : Prop :=
  ∃ console, sh' = sh.equip sh.session.keyboard console sh.editor

theorem Shown.refl (sh : Shell) : sh.Shown sh := ⟨sh.session.console, rfl⟩

theorem Shown.trans (h : sh.Shown sh') (h' : sh'.Shown sh'') : sh.Shown sh'' := by
  obtain ⟨_, rfl⟩ := h
  obtain ⟨console, rfl⟩ := h'
  exact ⟨console, rfl⟩

theorem Shown.agrees (h : sh.Shown sh') : sh.Agrees Eq sh' := by
  obtain ⟨console, rfl⟩ := h
  exact sh.agrees_equip _ console _

theorem Shown.execute (h : sh.Shown sh') (line : String) :
    (sh.execute line).2.Shown (sh'.execute line).2 := by
  obtain ⟨console, rfl⟩ := h
  obtain ⟨hkeyboard, -, heditor, -⟩ := sh.devices_execute line
  exact ⟨console, by rw [execute_equip, hkeyboard, heditor]⟩

/-- A text that is shown goes to the console up to its first NUL, and nowhere else. -/
theorem print_eq (sh : Shell) (hfd : fd = .stdout ∨ fd = .stderr) (text : String) :
    sh.print fd text = sh.equip sh.session.keyboard
      (sh.session.console.write ((Text.bytes text).takeWhile (· != 0))) sh.editor := by
  unfold print
  split_ifs with hempty
  · obtain rfl := String.isEmpty_iff.mp hempty
    rfl
  · have hbytes : (Text.bytes text).isEmpty = false := by
      rw [List.isEmpty_eq_false_iff, ne_eq, ← List.length_eq_zero_iff, Text.length_bytes,
        String.utf8ByteSize_eq_zero_iff]
      exact fun h => hempty (String.isEmpty_iff.mpr h)
    simp only [Session.handle, Session.write, hbytes, Bool.false_eq_true, if_false, if_pos hfd]
    rfl

theorem shown_print (sh : Shell) (hfd : fd = .stdout ∨ fd = .stderr) (text : String) :
    sh.Shown (sh.print fd text) :=
  ⟨_, print_eq sh hfd text⟩

theorem shown_start (sh : Shell) : sh.Shown sh.start :=
  sh.shown_print (.inl rfl) _

theorem shown_echoText (sh : Shell) (text : String) : sh.Shown (sh.echoText text) := by
  unfold echoText
  split_ifs
  · exact sh.shown_print (.inl rfl) text
  · exact .refl sh

theorem shown_runLine (sh : Shell) (line : String) :
    (sh.execute line).2.Shown (sh.runLine line) := by
  unfold runLine
  generalize sh.execute line = outcome
  obtain ⟨e | answer, sh₁⟩ := outcome
  · exact sh₁.shown_print (.inr rfl) _
  · dsimp only
    split_ifs
    · exact .refl sh₁
    · exact sh₁.shown_print (.inl rfl) _

/-- Submitting a line carries it out, and otherwise shows only. -/
theorem shown_submit (sh : Shell) (line : String) : (sh.afterLine line).Shown (sh.submit line) := by
  have hecho := sh.shown_echoText "\n"
  have hline : (sh.afterLine line).Shown
      (if (Text.trim line).isEmpty then sh.echoText "\n"
        else (sh.echoText "\n").runLine line) := by
    unfold afterLine
    split_ifs
    · exact hecho
    · exact (hecho.execute line).trans (shown_runLine _ line)
  unfold submit
  dsimp only
  generalize (if (Text.trim line).isEmpty then sh.echoText "\n"
    else (sh.echoText "\n").runLine line) = sh₁ at hline ⊢
  split_ifs
  · exact hline.trans sh₁.shown_start
  · exact hline

/-- The shell after a typed byte, but for what it shows: the line is edited, or has been carried
out. -/
def afterByte (sh : Shell) (b : UInt8) : Shell :=
  match sh.editor.press b with
  | (.submit line, editor) => (sh.afterLine line).withEditor editor
  | (_, editor) => sh.withEditor editor

/-- **What a typed byte does**: it edits the line or has it carried out, and otherwise shows
only. -/
theorem shown_press (sh : Shell) (b : UInt8) : (sh.afterByte b).Shown (sh.press b) := by
  unfold afterByte press
  generalize sh.editor.press b = outcome
  obtain ⟨outcome, editor⟩ := outcome
  cases outcome <;> dsimp only
  case echo b => exact shown_echoText (sh.withEditor editor) _
  case erase => exact shown_echoText (sh.withEditor editor) _
  case ignored => exact .refl (sh.withEditor editor)
  case submit line =>
    rw [← afterLine_withEditor]
    exact shown_submit (sh.withEditor editor) line

/-- A typed byte takes none of the keys still pending. -/
theorem keyboard_press (sh : Shell) (b : UInt8) :
    (sh.press b).session.keyboard = sh.session.keyboard := by
  have hafter : (sh.afterByte b).session.keyboard = sh.session.keyboard := by
    unfold afterByte
    split
    · rw [keyboard_withEditor]
      exact (sh.devices_afterLine _).1
    · rfl
  obtain ⟨console, hpress⟩ := sh.shown_press b
  rw [hpress]
  exact hafter

theorem editor_press (sh : Shell) (b : UInt8) : (sh.press b).editor = (sh.editor.press b).2 := by
  have hafter : (sh.afterByte b).editor = (sh.editor.press b).2 := by
    unfold afterByte
    split <;> rename_i hpress <;> rw [hpress] <;> rfl
  obtain ⟨console, hpress⟩ := sh.shown_press b
  rw [hpress]
  exact hafter

/-! ## Showing the same -/

theorem Mirrors.print (h : sh.Mirrors R sh') (hfd : fd = .stdout ∨ fd = .stderr)
    (text : String) : (sh.print fd text).Mirrors R (sh'.print fd text) := by
  rw [print_eq sh hfd, print_eq sh' hfd]
  refine ⟨⟨h.store, h.files_eq, h.environment_eq, h.exitStatus_eq, h.cwd_eq, h.running_eq⟩,
    ?_, h.editor_eq, h.echo_eq⟩
  exact congrArg (Console.write · _) h.console_eq

theorem Mirrors.start (h : sh.Mirrors R sh') : sh.start.Mirrors R sh'.start := by
  rw [Shell.start, Shell.start, prompt, prompt, h.cwd_eq]
  exact h.print (.inl rfl) _

theorem Mirrors.echoText (h : sh.Mirrors R sh') (text : String) :
    (sh.echoText text).Mirrors R (sh'.echoText text) := by
  unfold Shell.echoText
  rw [h.echo_eq]
  split_ifs
  · exact h.print (.inl rfl) text
  · exact h

section Respects

variable (hR : FileCommand.Respects R Tells)

include hR

theorem Mirrors.execute (h : sh.Mirrors R sh') (line : String) :
    (sh.execute line).2.Mirrors R (sh'.execute line).2 := by
  obtain ⟨-, hconsole, heditor, hecho⟩ := sh.devices_execute line
  obtain ⟨-, hconsole', heditor', hecho'⟩ := sh'.devices_execute line
  refine ⟨h.toAgrees.execute hR line, ?_, ?_, ?_⟩
  · rw [hconsole, hconsole', h.console_eq]
  · rw [heditor, heditor', h.editor_eq]
  · rw [hecho, hecho', h.echo_eq]

theorem Mirrors.runLine (h : sh.Mirrors R sh') (hline : Discreet Tells line) :
    (sh.runLine line).Mirrors R (sh'.runLine line) := by
  have hafter := h.execute hR line
  have hanswer := h.toAgrees.answer_eq hR hline
  unfold Shell.runLine
  generalize sh.execute line = o at hafter hanswer ⊢
  generalize sh'.execute line = o' at hafter hanswer ⊢
  obtain ⟨answer, sh₁⟩ := o
  obtain ⟨answer', sh₁'⟩ := o'
  obtain rfl : answer' = answer := hanswer
  cases answer' with
  | error e => exact hafter.print (.inr rfl) _
  | ok answer =>
    dsimp only
    split_ifs
    · exact hafter
    · exact hafter.print (.inl rfl) _

theorem Mirrors.submit (h : sh.Mirrors R sh')
    (hline : ¬ (Text.trim line).isEmpty → Discreet Tells line) :
    (sh.submit line).Mirrors R (sh'.submit line) := by
  have hecho := h.echoText "\n"
  have hrun : (if (Text.trim line).isEmpty then sh.echoText "\n"
      else (sh.echoText "\n").runLine line).Mirrors R
      (if (Text.trim line).isEmpty then sh'.echoText "\n"
        else (sh'.echoText "\n").runLine line) := by
    split_ifs with hblank
    · exact hecho
    · exact hecho.runLine hR (hline hblank)
  unfold Shell.submit
  dsimp only
  generalize (if (Text.trim line).isEmpty then sh.echoText "\n"
    else (sh.echoText "\n").runLine line) = sh₁ at hrun ⊢
  generalize (if (Text.trim line).isEmpty then sh'.echoText "\n"
    else (sh'.echoText "\n").runLine line) = sh₁' at hrun ⊢
  rw [hrun.running_eq]
  split_ifs
  · exact hrun.start
  · exact hrun

/-- Shells that show the same still do after a typed byte, unless it submits a line that tells. -/
theorem Mirrors.press (h : sh.Mirrors R sh') {b : UInt8}
    (hline : ∀ line, sh.submits? b = some line → Discreet Tells line) :
    (sh.press b).Mirrors R (sh'.press b) := by
  unfold Shell.press
  unfold submits? at hline
  rw [h.editor_eq]
  generalize sh.editor.press b = outcome at hline ⊢
  obtain ⟨outcome, editor⟩ := outcome
  have hedited : ({ sh with editor := editor } : Shell).Mirrors R { sh' with editor := editor } :=
    ⟨⟨h.store, h.files_eq, h.environment_eq, h.exitStatus_eq, h.cwd_eq, h.running_eq⟩,
      h.console_eq, rfl, h.echo_eq⟩
  cases outcome <;> dsimp only
  case echo b => exact hedited.echoText _
  case erase => exact hedited.echoText _
  case ignored => exact hedited
  case submit line =>
    apply hedited.submit hR
    intro hblank
    exact hline line (by simp only [unlessBlank, if_neg hblank])

end Respects

/-- Which keys are still pending does not matter to a typed byte. -/
theorem press_withKeyboard (sh : Shell) (keyboard : Keyboard) (b : UInt8) :
    (sh.withKeyboard keyboard).press b = (sh.press b).withKeyboard keyboard := by
  have h : sh.Mirrors Eq (sh.withKeyboard keyboard) := ⟨sh.agrees_equip _ _ _, rfl, rfl, rfl⟩
  have hpressed : (sh.press b).Mirrors Eq ((sh.withKeyboard keyboard).press b) :=
    h.press FileCommand.respects_eq fun line _ => discreet_of_false line
  have heq := hpressed.toAgrees.eq_equip hpressed.echo_eq
  rwa [keyboard_press, hpressed.console_eq, hpressed.editor_eq] at heq

end Shell

end FileTree
