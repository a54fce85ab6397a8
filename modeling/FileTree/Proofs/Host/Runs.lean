import FileTree.Proofs.Host.Feeding
import FileTree.Proofs.Host.InputLines
import FileTree.Proofs.Shell.FedAlike

/-!
# Scripts and inputs

A host takes a script at once, and with a line feed behind it if its last line lacks one; it takes
an input line by line, and stops reading where its shell ends. Either way its shell comes to what
it would if all the bytes were typed at it. So a host that is given a script and one that reads the
same text end in the same state, except that what is left of a script stays pending.

## Main definitions

* `Host.lineEnded`: the text with a line feed behind its last line

## Main results

* `Host.mirrors_run_script`, `Host.mirrors_run_input`: running a host is feeding it, but for what is
  left pending
* `Host.runs_alike`: a host that is given a script and one that reads it end alike
-/

namespace FileTree.Host

/-- The text with a line feed behind its last line, which may have one already. -/
def lineEnded (text : String) : String :=
  if text.toList.getLast? = some '\n' then text else text ++ "\n"

variable {h h' : Host} {script : String}

/-! ## Hosts that are left with more or fewer keys pending -/

@[simp] theorem withTyped_nil (h : Host) : h.withTyped [] = h := by
  obtain ⟨shell, script⟩ := h
  have hkeys : shell.withKeyboard (shell.session.keyboard.push []) = shell := by
    rw [Keyboard.push_nil]
    rfl
  exact congrArg (Host.mk · script) hkeys

theorem mirrors_withTyped (h : Host) (bytes : List UInt8) :
    (h.withTyped bytes).shell.Mirrors Eq h.shell :=
  ⟨⟨rfl, rfl, rfl, rfl, rfl, rfl⟩, rfl, rfl, rfl⟩

/-! ## Running a host -/

/-- Feeding a script is feeding its text with the last line ended, but for what is left pending. -/
theorem exists_feed_eq_feedScript (h : Host) (script : String) :
    ∃ rest, { h with script := none }.feed (Text.bytes (lineEnded script)) =
      (h.feedScript script).withTyped rest := by
  unfold feedScript lineEnded
  dsimp only
  by_cases hend : script.toList.getLast? = some '\n'
  · rw [if_pos hend, if_neg (by simp [hend])]
    exact ⟨[], (withTyped_nil _).symm⟩
  · rw [if_neg hend, Text.bytes_append, ← feed_append]
    cases hrun : ({ h with script := none }.feed (Text.bytes script)).shell.running with
    | true =>
      rw [if_pos (by simp [hend])]
      exact ⟨[], (withTyped_nil _).symm⟩
    | false =>
      rw [if_neg (by simp)]
      exact ⟨_, feed_of_ended hrun _⟩

/-- Feeding lines that are texts is feeding them joined, but for what is left pending. -/
theorem exists_feed_eq_feedLines (hs : h.shell.Settled) {lines : List (List UInt8)}
    (hlines : ∀ line ∈ lines, ∃ text, line = Text.bytes text) :
    (h.feedLines lines).1 = .ok () ∧
      ∃ rest, h.feed lines.flatten = (h.feedLines lines).2.withTyped rest := by
  -- a host that was fed a line is settled again, and goes on with the others
  induction lines generalizing h with
  | nil =>
    refine ⟨rfl, [], ?_⟩
    rw [List.flatten_nil, feed_nil hs, feedLines, withTyped_nil]
  | cons line lines ih =>
    obtain ⟨text, rfl⟩ := hlines line List.mem_cons_self
    have hmore : ∀ line ∈ lines, ∃ text, line = Text.bytes text :=
      fun line hline => hlines line (List.mem_cons_of_mem _ hline)
    unfold feedLines feedLine
    rw [Text.ofBytes?_bytes, List.flatten_cons, ← feed_append]
    cases hrun : h.shell.running with
    | true => exact ih (settled_feed h _) hmore
    | false =>
      refine ⟨rfl, Text.bytes text ++ lines.flatten, ?_⟩
      rw [feed_append]
      exact feed_of_ended hrun _

/-- **Running a host that has a script** is feeding it the text of the script with its last line
ended, but for what is left pending. -/
theorem mirrors_run_script (hscript : h.script = some script) (input : List UInt8) :
    (h.run input).1 = .ok () ∧
      (h.shell.start.feed (Text.bytes (lineEnded script))).Mirrors Eq (h.run input).2.shell := by
  obtain ⟨rest, hrest⟩ := h.start.exists_feed_eq_feedScript script
  have hmirrors := (h.start.feedScript script).mirrors_withTyped rest
  rw [← hrest, shell_feed, shell_start] at hmirrors
  rw [run_of_script hscript]
  exact ⟨rfl, hmirrors⟩

/-- **Running a host that has none** on a text is feeding it the text, but for what is left
pending. -/
theorem mirrors_run_input (hs : h.shell.Settled) (hscript : h.script = none) (text : String) :
    (h.run (Text.bytes text)).1 = .ok () ∧
      (h.shell.start.feed (Text.bytes text)).Mirrors Eq (h.run (Text.bytes text)).2.shell := by
  have hlines : ∀ line ∈ inputLines (Text.bytes text), ∃ u, line = Text.bytes u :=
    fun _ hline => exists_bytes_of_mem_inputLines hline
  obtain ⟨hok, rest, hrest⟩ := exists_feed_eq_feedLines (settled_start hs) hlines
  rw [flatten_inputLines] at hrest
  have hmirrors := (h.start.feedLines (inputLines (Text.bytes text))).2.mirrors_withTyped rest
  rw [← hrest, shell_feed, shell_start] at hmirrors
  rw [run_of_none hscript]
  exact ⟨hok, hmirrors⟩

/-! ## A script and an input in step -/

section InStep

variable {R : Store → Store → Prop} {Tells : FileCommand → Prop}
  (hR : FileCommand.Respects R Tells) (hscript : h.script = some script)
  (hscript' : h'.script = none) (hsh : h.shell.Idle) (hsh' : h'.shell.Idle)

include hR hscript hscript' hsh hsh'

theorem agrees_run (hagrees : h.shell.Agrees R h'.shell) (input : List UInt8) :
    (h.run input).2.shell.Agrees R (h'.run (Text.bytes (lineEnded script))).2.shell := by
  obtain ⟨-, hrun⟩ := mirrors_run_script hscript input
  obtain ⟨-, hrun'⟩ := mirrors_run_input (Shell.settled_of_taken hsh'.keyboard_eq) hscript'
    (lineEnded script)
  have hstart : h.shell.start.Agrees R h'.shell.start :=
    hagrees.of_agrees h.shell.shown_start.agrees h'.shell.shown_start.agrees
  exact (hstart.feed hR hsh.start hsh'.start _).of_agrees hrun.toAgrees hrun'.toAgrees

/-- They show the same unless a line that is carried out tells. -/
theorem console_run (hmirrors : h.shell.Mirrors R h'.shell) (input : List UInt8)
    (hlines : ∀ line ∈ h.shell.executed (Typing.commandLines (Text.bytes (lineEnded script))),
      Shell.Discreet Tells line) :
    (h'.run (Text.bytes (lineEnded script))).2.shell.session.console =
      (h.run input).2.shell.session.console := by
  obtain ⟨-, hrun⟩ := mirrors_run_script hscript input
  obtain ⟨-, hrun'⟩ := mirrors_run_input (Shell.settled_of_taken hsh'.keyboard_eq) hscript'
    (lineEnded script)
  have hexecuted : h.shell.start.executed (Typing.commandLines (Text.bytes (lineEnded script))) =
      h.shell.executed (Typing.commandLines (Text.bytes (lineEnded script))) :=
    h.shell.shown_start.agrees.executed_eq FileCommand.respects_eq _
  rw [← hexecuted] at hlines
  have hfed := hmirrors.start.feed hR hsh.start hsh'.start _ hlines
  rw [hrun'.console_eq, hrun.console_eq]
  exact hfed.console_eq

end InStep

/-! ## Two hosts with the same limits -/

section Created

variable {id id' : StoreId} {settings settings' : HostSettings}
  (hcreate : create id settings = .ok h) (hcreate' : create id' settings' = .ok h')

include hcreate

theorem script_of_create : h.script = settings.script := by
  obtain ⟨-, rfl⟩ := create_eq_ok_iff.mp hcreate
  rfl

theorem idle_of_create : h.shell.Idle := by
  obtain ⟨-, rfl⟩ := create_eq_ok_iff.mp hcreate
  exact ⟨rfl, rfl, rfl⟩

include hcreate'

/-- The stores of hosts that were created with the same limits differ in the identifier and in the
log only. -/
theorem agrees_of_create (hconfig : settings'.config = settings.config) :
    h.shell.Agrees Store.Twins h'.shell := by
  obtain ⟨-, rfl⟩ := create_eq_ok_iff.mp hcreate
  obtain ⟨-, rfl⟩ := create_eq_ok_iff.mp hcreate'
  have htable : Table.new settings'.config.maxEntries.toNat =
      Table.new settings.config.maxEntries.toNat := by
    rw [hconfig]
  exact ⟨⟨hconfig, htable, rfl, rfl⟩, rfl, rfl, rfl, rfl, rfl⟩

theorem mirrors_of_create (hconfig : settings'.config = settings.config)
    (hecho : settings'.echo = settings.echo) : h.shell.Mirrors Store.Twins h'.shell := by
  have hagrees := agrees_of_create hcreate hcreate' hconfig
  obtain ⟨-, rfl⟩ := create_eq_ok_iff.mp hcreate
  obtain ⟨-, rfl⟩ := create_eq_ok_iff.mp hcreate'
  exact ⟨hagrees, rfl, rfl, hecho⟩

end Created

/-- The line spells no command that shows the log. -/
def SparesLog (line : String) : Prop :=
  ∀ count, Command.parse line ≠ .ok (.file (.log count))

theorem SparesLog.discreet {line : String} (h : SparesLog line) :
    Shell.Discreet (fun c => ∃ count, c = .log count) line := by
  rintro c hparse ⟨count, rfl⟩
  exact h count hparse

/-- **A host that is given a script and one that reads it end alike**, and both without an error,
when they were created with the same limits. They also show the same, if both echo or neither does
and no line that is carried out shows the log. -/
theorem runs_alike {id id' : StoreId} {config : Config} {echo echo' : Bool}
    (hcreate : create id { config, script := some script, echo } = .ok h)
    (hcreate' : create id' { config, script := none, echo := echo' } = .ok h')
    (input : List UInt8) :
    let typed := Text.bytes (lineEnded script)
    (h.run input).1 = .ok () ∧ (h'.run typed).1 = .ok () ∧
      (h.run input).2.shell.Agrees Store.Twins (h'.run typed).2.shell ∧
      (echo' = echo → (∀ line ∈ h.shell.executed (Typing.commandLines typed), SparesLog line) →
        (h'.run typed).2.shell.session.console.output =
          (h.run input).2.shell.session.console.output) := by
  intro typed
  have hscript : h.script = some script := script_of_create hcreate
  have hscript' : h'.script = none := script_of_create hcreate'
  have hidle := idle_of_create hcreate
  have hidle' := idle_of_create hcreate'
  have hagrees : h.shell.Agrees Store.Twins h'.shell := agrees_of_create hcreate hcreate' rfl
  refine ⟨?_, ?_, ?_, ?_⟩
  · exact (mirrors_run_script hscript input).1
  · exact (mirrors_run_input (Shell.settled_of_taken hidle'.keyboard_eq) hscript' _).1
  · exact agrees_run FileCommand.respects_twins hscript hscript' hidle hidle' hagrees input
  · intro hecho hspares
    have hmirrors : h.shell.Mirrors Store.Twins h'.shell :=
      mirrors_of_create hcreate hcreate' rfl hecho
    have hconsole := console_run FileCommand.respects_twins hscript hscript' hidle hidle'
      hmirrors input fun line hline => (hspares line hline).discreet
    exact congrArg Console.output hconsole

/-- The script holds a character that is not ASCII and one that is dropped, it makes a directory, it
ends the shell before its last line, and that line lacks its line feed. -/
theorem runs_alike_of_exit :
    let script := "mkdir dü\necho \x07hi\nexit 3\nlog"
    let h := init ⟨0⟩ { script := some script }
    let h' := init ⟨1⟩ {}
    let spelled := Typing.commandLines (Text.bytes (lineEnded script))
    create ⟨0⟩ { script := some script } = .ok h ∧ create ⟨1⟩ {} = .ok h' ∧
      h.shell.executed spelled = ["mkdir d", "echo hi", "exit 3"] ∧
      (∀ line ∈ h.shell.executed spelled, SparesLog line) ∧
      ((h.run []).2.exitStatus = some 3 ∧ (h.run []).2.shell.running = false ∧
        (h.run []).2.shell.session.store.table.find? ⟨1⟩ =
          some { name := "d", kind := .directory, parent := .root }) ∧
      (h.run []).1 = .ok () ∧ (h'.run (Text.bytes (lineEnded script))).1 = .ok () ∧
      (h.run []).2.shell.Agrees Store.Twins (h'.run (Text.bytes (lineEnded script))).2.shell ∧
      (h'.run (Text.bytes (lineEnded script))).2.shell.session.console.output =
        (h.run []).2.shell.session.console.output := by
  intro script h h' spelled
  have hcreate : create ⟨0⟩ { script := some script } = .ok h := rfl
  have hcreate' : create ⟨1⟩ {} = .ok h' := rfl
  have hexecuted : h.shell.executed spelled = ["mkdir d", "echo hi", "exit 3"] := by
    decide +kernel
  have hspares : ∀ line ∈ h.shell.executed spelled, SparesLog line := by
    rw [hexecuted]
    intro line hline count hparse
    simp only [List.mem_cons, List.not_mem_nil, or_false] at hline
    rcases hline with rfl | rfl | rfl
    · have hmkdir : Command.parse "mkdir d" = .ok (.file (.mkdir "d")) := by decide +kernel
      cases hmkdir.symm.trans hparse
    · have hecho : Command.parse "echo hi" = .ok (.echo "hi") := by decide +kernel
      cases hecho.symm.trans hparse
    · have hexit : Command.parse "exit 3" = .ok (.exit "3") := by decide +kernel
      cases hexit.symm.trans hparse
  have hleft : (h.run []).2.exitStatus = some 3 ∧ (h.run []).2.shell.running = false ∧
      (h.run []).2.shell.session.store.table.find? ⟨1⟩ =
        some { name := "d", kind := .directory, parent := .root } := by
    decide +kernel
  obtain ⟨hok, hok', hagrees, hconsole⟩ := runs_alike hcreate hcreate' []
  exact ⟨hcreate, hcreate', hexecuted, hspares, hleft, hok, hok', hagrees,
    hconsole rfl hspares⟩

end FileTree.Host
