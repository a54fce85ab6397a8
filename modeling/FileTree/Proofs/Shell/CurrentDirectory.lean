import FileTree.Proofs.Shell.Input

/-!
# The current directory as it is shown

The shell shows the full path of the current directory in its prompt. It looks the path up again
after `cd` and `rm`, and no other command moves the cursor. But a `mv` may rename the current
directory, or one above it; then the shell shows the old path until the next `cd` or `rm`.

## Main definitions

* `Shell.Fresh`: a shell over a fresh store
* `Shell.Shows`: the shell shows the full path of the current directory
* `Shell.refreshes`, `Shell.Renames`: an input that has the path looked up, or renames a part of it
* `Shell.Outdated`: the path was renamed after it was looked up last

## Main results

* `Shell.Fresh.shows_or_outdated`: the shell shows the full path, or it is outdated
* `Shell.cwd_ne_of_renamed`: a shell can be outdated
-/

namespace FileTree

/-- The current directory is looked up again after the command. -/
def Command.refreshes : Command → Bool
  | .file c => Shell.mayMoveCursor c
  | _ => false

theorem FileCommand.mayMove_eq {c : FileCommand} {op : ByPath.Operation}
    (h : c.operation? = some op) : op.mayMove = Shell.mayMoveCursor c := by
  cases c <;> cases h <;> rfl

namespace Shell

/-- A shell over a fresh store with the given configuration and heap. -/
structure Fresh (config : Config) (heap : Heap) (sh : Shell) : Prop where
  store : ∃ id, Store.fresh id config heap = .ok sh.session.store
  cwd : sh.cwd = "/"

/-- The shell shows the full path of the current directory, also in its prompt. -/
def Shows (sh : Shell) : Prop :=
  ∃ path, sh.session.store.fullPath sh.session.store.cursor = .ok path ∧ sh.cwd = path ∧
    sh.prompt = "ramfs:" ++ path ++ "> "

/-- The input has the current directory looked up again. -/
def refreshes (sh : Shell) (input : Input) : Bool :=
  (sh.command? input).any Command.refreshes

/-- The input is a `mv` that gives another name to the current directory or to one above it. -/
def Renames (sh : Shell) (input : Input) : Prop :=
  (∃ path newName, sh.command? input = some (.file (.mv path newName))) ∧
    sh.session.store.RenamesPlace (sh.accept input).session.store

/-- None of the inputs has the current directory looked up again. -/
def Lingers (sh : Shell) : List Input → Prop
  | [] => True
  | input :: inputs => sh.refreshes input = false ∧ (sh.accept input).Lingers inputs

/-- The current directory or one above it was renamed, and was not looked up since. -/
def Outdated (sh : Shell) (inputs : List Input) : Prop :=
  ∃ before input later, inputs = before ++ input :: later ∧ (sh.run before).Renames input ∧
    ((sh.run before).accept input).Lingers later

variable {sh sh' : Shell} {command : Command} {input : Input} {inputs : List Input}
  {config : Config} {heap : Heap}

theorem shows_iff : sh.Shows ↔
    sh.session.store.fullPath sh.session.store.cursor = .ok sh.cwd := by
  constructor
  · rintro ⟨path, hpath, rfl, -⟩
    exact hpath
  · intro h
    exact ⟨sh.cwd, h, rfl, rfl⟩

theorem lingers_concat : sh.Lingers (inputs ++ [input]) ↔
    sh.Lingers inputs ∧ (sh.run inputs).refreshes input = false := by
  induction inputs generalizing sh with
  | nil => simp [Lingers]
  | cons first inputs ih => rw [List.cons_append, Lingers, Lingers, ih, run_cons, and_assoc]

/-! ## Commands -/

theorem Resembles.shows (h : sh.Resembles sh') (hsh : sh.Shows) : sh'.Shows := by
  obtain ⟨log, hlog⟩ := h.exists_log
  rw [shows_iff] at hsh ⊢
  rw [h.cwd_eq, hlog]
  exact hsh

/-- After it was looked up again, the shell shows the full path of the current directory. -/
theorem shows_refreshCwd (hs : sh.session.store.Sound) : sh.refreshCwd.Shows := by
  obtain ⟨path, hpath⟩ := hs.exists_fullPath_cursor
  have hcurrent : ByPath.current sh.session.store = .ok path := by
    rw [ByPath.current, hpath]
    rfl
  rw [shows_iff, store_refreshCwd]
  simp only [refreshCwd, hcurrent]
  exact hpath

theorem shows_perform_of_refreshes (hs : sh.session.store.Sound)
    (h : command.refreshes = true) : (sh.perform command).2.Shows := by
  cases command with
  | file c =>
    have hmove : mayMoveCursor c = true := h
    simp only [perform, hmove, if_true]
    exact shows_refreshCwd ((c.reaches_run _).sound hs)
  | _ => cases h

theorem cwd_perform (h : command.refreshes = false) : (sh.perform command).2.cwd = sh.cwd := by
  rcases sh.perform_cases command with ⟨c, rfl⟩ | hsame
  · have hmove : mayMoveCursor c = false := h
    simp only [perform, hmove, Bool.false_eq_true, if_false]
    rfl
  · exact hsame.cwd_eq

/-- A command that does not move the cursor leaves its full path as it is, unless it is a `mv` that
renames a part of it. -/
theorem fullPath_cursor_run {s : Store} (hs : s.Sound) {c : FileCommand}
    (hm : mayMoveCursor c = false)
    (hr : ∀ ⦃path newName⦄, c = .mv path newName → ¬ s.RenamesPlace (c.run s).2) :
    (c.run s).2.fullPath (c.run s).2.cursor = s.fullPath s.cursor := by
  rw [FileCommand.store_run] at hr ⊢
  cases hop : c.operation? with
  | none => rfl
  | some op =>
    rw [hop] at hr
    apply ByPath.fullPath_cursor_perform hs ((FileCommand.mayMove_eq hop).trans hm)
    rintro path newName rfl
    cases c <;> cases hop
    exact hr rfl

theorem Shows.perform (h : sh.Shows) (hs : sh.session.store.Sound)
    (hr : ∀ ⦃path newName⦄, command = .file (.mv path newName) →
      ¬ sh.session.store.RenamesPlace (sh.perform command).2.session.store) :
    (sh.perform command).2.Shows := by
  cases hc : command.refreshes with
  | true => exact shows_perform_of_refreshes hs hc
  | false =>
    rcases sh.perform_cases command with ⟨c, rfl⟩ | hsame
    · rw [shows_iff] at h ⊢
      rw [cwd_perform hc, ← h, store_perform_file]
      apply fullPath_cursor_run hs hc
      rintro path newName rfl
      rw [← store_perform_file]
      exact hr rfl
    · exact hsame.shows h

/-! ## Inputs -/

section Accepted

variable {command? : Option Command}

theorem Accepted.shows (ha : sh.Accepted command? sh') (hs : sh.session.store.Sound)
    (h : sh.Shows) (hr : ∀ ⦃path newName⦄, command? = some (.file (.mv path newName)) →
      ¬ sh.session.store.RenamesPlace sh'.session.store) : sh'.Shows := by
  cases ha with
  | idle hsame => exact hsame.shows h
  | performed hbefore hafter =>
    apply hafter.shows
    apply (hbefore.shows h).perform (hbefore.reaches.sound hs)
    rintro path newName rfl hren
    obtain ⟨log, hlog⟩ := hbefore.exists_log
    obtain ⟨log', hlog'⟩ := hafter.exists_log
    apply hr rfl
    rw [hlog] at hren
    rw [hlog']
    exact hren

theorem Accepted.shows_of_refreshes (ha : sh.Accepted command? sh')
    (hs : sh.session.store.Sound) (hc : command?.any Command.refreshes = true) : sh'.Shows := by
  cases ha with
  | idle _ => cases hc
  | performed hbefore hafter =>
    exact hafter.shows (shows_perform_of_refreshes (hbefore.reaches.sound hs) hc)

end Accepted

/-- An input that renames no part of the full path leaves it shown. -/
theorem Shows.accept (h : sh.Shows) (hs : sh.session.store.Sound) (hr : ¬ sh.Renames input) :
    (sh.accept input).Shows := by
  apply (sh.accepted_accept input).shows hs h
  intro path newName hcommand hren
  exact hr ⟨⟨path, newName, hcommand⟩, hren⟩

/-! ## Runs -/

namespace Fresh

variable (h : sh.Fresh config heap)

include h

theorem reachable_run (inputs : List Input) :
    Store.Reachable config heap (sh.run inputs).session.store := by
  obtain ⟨id, hstore⟩ := h.store
  exact ⟨id, _, hstore, sh.reaches_run inputs⟩

/-- A fresh shell shows the root. -/
theorem shows : sh.Shows := by
  have hreach := h.reachable_run []
  obtain ⟨id, hstore⟩ := h.store
  obtain ⟨-, heq⟩ := Store.fresh_eq_ok_iff.mp hstore
  have hcursor : sh.session.store.cursor = .root := by
    rw [heq]
    rfl
  obtain ⟨r, hr, -⟩ := hreach.sound.linked.root
  obtain ⟨names, -, hpath⟩ := hreach.fullPathOf hr
  rw [shows_iff, hcursor, h.cwd]
  exact hpath.root rfl

/-- **The shell shows the full path of the current directory**, after every row of inputs, unless
that directory or one above it was renamed and was not looked up since. -/
theorem shows_or_outdated (inputs : List Input) :
    (sh.run inputs).Shows ∨ sh.Outdated inputs := by
  induction inputs using List.reverseRecOn with
  | nil => exact .inl h.shows
  | append_singleton inputs input ih =>
    have hs := (h.reachable_run inputs).sound
    rw [run_append, run_cons, run_nil]
    by_cases hr : (sh.run inputs).Renames input
    · exact .inr ⟨inputs, input, [], rfl, hr, trivial⟩
    rcases ih with hshows | ⟨before, first, later, rfl, hren, hlinger⟩
    · exact .inl (hshows.accept hs hr)
    · cases hc : (sh.run (before ++ first :: later)).refreshes input with
      | true => exact .inl (((sh.run _).accepted_accept input).shows_of_refreshes hs hc)
      | false =>
        rw [run_append, run_cons] at hc
        exact .inr ⟨before, first, later ++ [input], by simp, hren,
          lingers_concat.mpr ⟨hlinger, hc⟩⟩

end Fresh

/-- Lines that are typed, one that is carried out and shown, and one that is only carried out: the
current directory is renamed, and looked up again by `cd`. -/
theorem shows_or_outdated_of_typed_lines :
    let config : Config := { maxEntries := 4 }
    let sh : Shell := { session := { store := Store.init ⟨0⟩ config {} } }
    let typed : List UInt8 := Text.bytes "mkdir a\rcd a\r"
    let inputs : List Input := .type typed :: List.replicate typed.length .take ++
      [.runLine "mv /a b", .execute "cd ."]
    sh.Fresh config {} ∧ ((sh.run inputs).Shows ∨ sh.Outdated inputs) := by
  intro config sh typed inputs
  have h : sh.Fresh config {} := ⟨⟨⟨0⟩, rfl⟩, rfl⟩
  exact ⟨h, h.shows_or_outdated inputs⟩

/-- A shell can be outdated: the current directory is renamed, and its old path is still shown. -/
theorem cwd_ne_of_renamed :
    let config : Config := { maxEntries := 4, logCapacity := 0 }
    let sh : Shell := { session := { store := Store.init ⟨0⟩ config {} } }
    let sh' := sh.run [.execute "mkdir a", .execute "cd a", .execute "mv /a b"]
    sh.Fresh config {} ∧ sh'.cwd = "/a" ∧ sh'.prompt = "ramfs:/a> " ∧
      sh'.session.store.fullPath sh'.session.store.cursor = .ok "/b" := by
  refine ⟨⟨⟨⟨0⟩, rfl⟩, rfl⟩, ?_, ?_, ?_⟩ <;> decide +kernel

end Shell

end FileTree
