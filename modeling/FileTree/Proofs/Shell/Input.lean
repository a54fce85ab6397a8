import FileTree.Proofs.ByPath.CurrentDirectory
import FileTree.Shell

/-!
# What is given to a shell

A shell is given lines, directly or byte by byte through its keyboard. Whichever way a line comes
in, the shell performs the command that the line spells, if it spells one; everything else that it
does shows on the console and in the log only.

## Main definitions

* `Shell.Input`, `Shell.accept`, `Shell.run`: what is given to a shell, and what comes of it
* `Shell.command?`: the command that an input makes the shell perform
* `Shell.Resembles`: shells that differ at most in their devices, their line editor, their
  environment and their log
* `FileCommand.operation?`: the operation by path that a command is

## Main results

* `Shell.accepted_accept`: accepting an input is performing its command
* `Shell.reaches_accept`, `Shell.reaches_run`: the store changes by its operations
-/

namespace FileTree

/-- The operation by path that a command is, if it may change the store. -/
def FileCommand.operation? : FileCommand → Option ByPath.Operation
  | mkdir path => some (.makeDirectory path)
  | cd path => some (.enter path)
  | touch path => some (.makeFile path)
  | write path text => some (.write path (Text.bytes text))
  | rm path => some (.remove path)
  | mv path newName => some (.rename path newName)
  | cp source destination => some (.copy source destination)
  | _ => none

theorem FileCommand.store_run (s : Store) (command : FileCommand) :
    (command.run s).2 = match command.operation? with
      | some op => (ByPath.perform s op).2
      | none => s := by
  cases command with
  | log count =>
    simp only [run, operation?]
    split <;> rfl
  | _ => rfl

theorem FileCommand.reaches_run (s : Store) (command : FileCommand) :
    s.Reaches (command.run s).2 := by
  rw [store_run]
  split
  · exact ByPath.reaches_perform s _
  · exact .refl

namespace Shell

/-- What is given to a shell. -/
inductive Input where
  /-- A line to carry out. -/
  | execute (line : String)
  /-- A line to carry out, whose answer is shown. -/
  | runLine (line : String)
  /-- Bytes typed at the keyboard. -/
  | type (bytes : List UInt8)
  /-- The occasion to take one typed byte. -/
  | take
  deriving DecidableEq

/-- Takes one byte, if one is pending and the shell has not ended. -/
def take (sh : Shell) : Shell :=
  (pumpAtMost 1 sh).2

/-- The shell after an input. -/
def accept (sh : Shell) : Input → Shell
  | .execute line => (sh.execute line).2
  | .runLine line => sh.runLine line
  | .type bytes => { sh with session := sh.session.typeKeys bytes }
  | .take => sh.take

/-- The shell after inputs in order. -/
def run (sh : Shell) (inputs : List Input) : Shell :=
  inputs.foldl accept sh

/-- The line, unless it is blank. -/
def unlessBlank (line : String) : Option String :=
  if (Text.trim line).isEmpty then none else some line

/-- The line that a typed byte ends, unless it is blank. -/
def submits? (sh : Shell) (b : UInt8) : Option String :=
  match (sh.editor.press b).1 with
  | .submit line => unlessBlank line
  | _ => none

/-- The line that an input makes the shell carry out. -/
def line? (sh : Shell) : Input → Option String
  | .execute line | .runLine line => some line
  | .type _ => none
  | .take => if sh.running then sh.session.keyboard.poll.1.bind sh.submits? else none

/-- The command that a line spells, if it spells one. -/
def spelled? (line : String) : Option Command :=
  (Command.parse line).toOption

/-- The command that an input makes the shell perform. -/
def command? (sh : Shell) (input : Input) : Option Command :=
  (sh.line? input).bind spelled?

variable {sh sh₁ sh' sh'' : Shell} {command? : Option Command}

@[simp] theorem run_nil (sh : Shell) : sh.run [] = sh := rfl

@[simp] theorem run_cons (sh : Shell) (input : Input) (inputs : List Input) :
    sh.run (input :: inputs) = (sh.accept input).run inputs := rfl

theorem run_append (sh : Shell) (inputs more : List Input) :
    sh.run (inputs ++ more) = (sh.run inputs).run more := List.foldl_append

/-! ## Taking typed bytes -/

/-- The shell after taking the first of its pending bytes, which leaves the rest. -/
def takeFirst (sh : Shell) (b : UInt8) (rest : List UInt8) : Shell :=
  { sh with session := { sh.session with keyboard := ⟨rest⟩ } }.press b

theorem pumpAtMost_succ (n : Nat) (sh : Shell) : (pumpAtMost (n + 1) sh).2 =
    if sh.running then
      match sh.session.keyboard.pending with
      | [] => sh
      | b :: rest => (pumpAtMost n (sh.takeFirst b rest)).2
    else sh := by
  rw [pumpAtMost]
  split_ifs
  · have hone : (1 : UInt64) ≠ 0 := by decide
    simp only [Session.handle, Session.read, if_true, Session.readKeyboard, if_neg hone,
      Keyboard.poll]
    cases sh.session.keyboard.pending with
    | nil => rfl
    | cons b rest => rfl
  · rfl

theorem take_eq (sh : Shell) : sh.take =
    if sh.running then
      match sh.session.keyboard.pending with
      | [] => sh
      | b :: rest => sh.takeFirst b rest
    else sh :=
  pumpAtMost_succ 0 sh

/-! ## What shows on the console and in the log only -/

/-- The shells show the same current directory, and their stores differ in the log only. -/
structure Resembles (sh sh' : Shell) : Prop where
  cwd_eq : sh'.cwd = sh.cwd
  exists_log : ∃ log, sh'.session.store = { sh.session.store with log := log }

theorem Resembles.refl (sh : Shell) : sh.Resembles sh :=
  ⟨rfl, sh.session.store.log, rfl⟩

theorem Resembles.trans (h : sh.Resembles sh') (h' : sh'.Resembles sh'') : sh.Resembles sh'' := by
  obtain ⟨log, hlog⟩ := h'.exists_log
  obtain ⟨log₀, hlog₀⟩ := h.exists_log
  exact ⟨h'.cwd_eq.trans h.cwd_eq, log, by rw [hlog, hlog₀]⟩

theorem Resembles.reaches (h : sh.Resembles sh') :
    sh.session.store.Reaches sh'.session.store := by
  obtain ⟨log, hlog⟩ := h.exists_log
  exact hlog ▸ .relog log .refl

/-- Writing to the console leaves the store alone, but for the log. -/
theorem resembles_print (sh : Shell) {fd : Descriptor} (hfd : fd = .stdout ∨ fd = .stderr)
    (text : String) : sh.Resembles (sh.print fd text) := by
  unfold print
  split_ifs
  · exact .refl sh
  simp only [Session.handle, Session.write]
  split_ifs
  · exact ⟨rfl, _, rfl⟩
  · exact ⟨rfl, _, rfl⟩

theorem resembles_start (sh : Shell) : sh.Resembles sh.start :=
  sh.resembles_print (.inl rfl) _

theorem resembles_echoText (sh : Shell) (text : String) : sh.Resembles (sh.echoText text) := by
  unfold echoText
  split_ifs
  · exact sh.resembles_print (.inl rfl) text
  · exact .refl sh

theorem resembles_setEnv (sh : Shell) (name key value : String) :
    sh.Resembles (sh.request name (.setEnv key value)).2 := by
  simp only [request, Session.handle, Session.setEnv]
  split_ifs <;> exact ⟨rfl, _, rfl⟩

theorem resembles_leave (sh : Shell) (operand : String) : sh.Resembles (sh.leave operand).2 := by
  unfold leave
  split
  · exact .refl sh
  · exact ⟨rfl, _, rfl⟩

/-- A command is one on files, or shows on the console and in the log only. -/
theorem perform_cases (sh : Shell) (command : Command) :
    (∃ c, command = .file c) ∨ sh.Resembles (sh.perform command).2 := by
  cases command with
  | file c => exact .inl ⟨c, rfl⟩
  | help => exact .inr (.refl sh)
  | echo text => exact .inr (.refl sh)
  | set key value => exact .inr (sh.resembles_setEnv "set" key value)
  | env => exact .inr (.refl sh)
  | exit status => exact .inr (sh.resembles_leave status)

/-! ## Accepting an input is performing its command -/

/-- The shell comes to another by a command, if there is one, and by what shows on the console and
in the log only. -/
inductive Accepted (sh : Shell) : Option Command → Shell → Prop
  | idle {sh' : Shell} : sh.Resembles sh' → Accepted sh none sh'
  | performed {command : Command} {sh₁ sh' : Shell} : sh.Resembles sh₁ →
      (sh₁.perform command).2.Resembles sh' → Accepted sh (some command) sh'

theorem Accepted.resembles (h : sh.Accepted command? sh') (hr : sh'.Resembles sh'') :
    sh.Accepted command? sh'' := by
  cases h with
  | idle h => exact .idle (h.trans hr)
  | performed h h' => exact .performed h (h'.trans hr)

theorem Accepted.of_resembles (h : sh₁.Accepted command? sh') (hr : sh.Resembles sh₁) :
    sh.Accepted command? sh' := by
  cases h with
  | idle h => exact .idle (hr.trans h)
  | performed h h' => exact .performed (hr.trans h) h'

theorem accepted_execute (sh : Shell) (line : String) :
    sh.Accepted (spelled? line) (sh.execute line).2 := by
  unfold spelled? execute
  cases Command.parse line with
  | error e => exact .idle (.refl sh)
  | ok command => exact .performed (.refl sh) (.refl _)

theorem accepted_runLine (sh : Shell) (line : String) :
    sh.Accepted (spelled? line) (sh.runLine line) := by
  apply (sh.accepted_execute line).resembles
  unfold runLine
  generalize sh.execute line = outcome
  obtain ⟨e | answer, sh₁⟩ := outcome
  · exact sh₁.resembles_print (.inr rfl) _
  · dsimp only
    split_ifs
    · exact .refl sh₁
    · exact sh₁.resembles_print (.inl rfl) _

theorem accepted_submit (sh : Shell) (line : String) :
    sh.Accepted ((unlessBlank line).bind spelled?) (sh.submit line) := by
  have hecho := sh.resembles_echoText "\n"
  have hline : sh.Accepted ((unlessBlank line).bind spelled?)
      (if (Text.trim line).isEmpty then sh.echoText "\n"
        else (sh.echoText "\n").runLine line) := by
    unfold unlessBlank
    split_ifs
    · rw [Option.bind_none]
      exact .idle hecho
    · rw [Option.bind_some]
      exact (accepted_runLine _ line).of_resembles hecho
  unfold submit
  dsimp only
  generalize (if (Text.trim line).isEmpty then sh.echoText "\n"
    else (sh.echoText "\n").runLine line) = sh₁ at hline ⊢
  split_ifs
  · exact hline.resembles sh₁.resembles_start
  · exact hline

theorem accepted_press (sh : Shell) (b : UInt8) :
    sh.Accepted ((sh.submits? b).bind spelled?) (sh.press b) := by
  unfold submits? press
  generalize sh.editor.press b = outcome
  obtain ⟨outcome, editor⟩ := outcome
  have h : sh.Resembles { sh with editor := editor } := ⟨rfl, _, rfl⟩
  cases outcome <;> dsimp only
  case echo b => exact .idle (h.trans (resembles_echoText _ _))
  case erase => exact .idle (h.trans (resembles_echoText _ _))
  case submit line => exact (accepted_submit _ line).of_resembles h
  case ignored => exact .idle h

theorem accepted_take (sh : Shell) : sh.Accepted (sh.command? .take) sh.take := by
  rw [take_eq, Shell.command?, line?, Keyboard.poll]
  split_ifs
  · cases sh.session.keyboard.pending with
    | nil => exact .idle (.refl sh)
    | cons b rest =>
      have hpress := accepted_press
        { sh with session := { sh.session with keyboard := ⟨rest⟩ } } b
      dsimp only
      rw [Option.bind_some]
      exact hpress.of_resembles ⟨rfl, _, rfl⟩
  · exact .idle (.refl sh)

/-- **Accepting an input is performing the command that it spells**, if it spells one. -/
theorem accepted_accept (sh : Shell) (input : Input) :
    sh.Accepted (sh.command? input) (sh.accept input) := by
  cases input with
  | execute line =>
    rw [Shell.command?, line?, Option.bind_some]
    exact sh.accepted_execute line
  | runLine line =>
    rw [Shell.command?, line?, Option.bind_some]
    exact sh.accepted_runLine line
  | type bytes =>
    rw [Shell.command?, line?, Option.bind_none]
    exact .idle ⟨rfl, _, rfl⟩
  | take => exact sh.accepted_take

/-! ## The store of a shell -/

theorem store_refreshCwd (sh : Shell) : sh.refreshCwd.session.store = sh.session.store := by
  unfold refreshCwd
  split <;> rfl

theorem store_perform_file (sh : Shell) (c : FileCommand) :
    (sh.perform (.file c)).2.session.store = (c.run sh.session.store).2 := by
  simp only [perform]
  split_ifs
  · exact store_refreshCwd _
  · rfl

theorem reaches_perform (sh : Shell) (command : Command) :
    sh.session.store.Reaches (sh.perform command).2.session.store := by
  rcases sh.perform_cases command with ⟨c, rfl⟩ | hsame
  · rw [store_perform_file]
    exact c.reaches_run _
  · exact hsame.reaches

/-- The store of a shell changes by its operations. -/
theorem reaches_accept (sh : Shell) (input : Input) :
    sh.session.store.Reaches (sh.accept input).session.store := by
  have h := sh.accepted_accept input
  generalize sh.command? input = c, sh.accept input = sh' at h ⊢
  cases h with
  | idle h => exact h.reaches
  | performed h h' => exact h.reaches.trans ((reaches_perform _ _).trans h'.reaches)

theorem reaches_run (sh : Shell) (inputs : List Input) :
    sh.session.store.Reaches (sh.run inputs).session.store := by
  induction inputs generalizing sh with
  | nil => exact .refl
  | cons input inputs ih => exact (sh.reaches_accept input).trans (ih (sh.accept input))

end Shell

end FileTree
