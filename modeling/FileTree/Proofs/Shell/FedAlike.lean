import FileTree.Proofs.Shell.Typing

/-!
# Shells fed the same

Two shells that agree, and at which nothing is typed or pending yet, agree still after they were
fed the same bytes: both carry out the same lines. If they echo alike and no line that is carried
out tells their stores apart, they also show the same.

## Main definitions

* `Shell.Idle`: a shell that runs and at which nothing is typed or pending
* `Shell.executed`: the lines that are carried out, up to the one that ends the shell

## Main results

* `Shell.Agrees.executed_eq`: shells that agree carry out the same lines
* `Shell.Agrees.feed`: shells that agree still do when they are fed the same
* `Shell.Mirrors.feed`: shells that show the same still do when they are fed the same
-/

namespace FileTree.Shell

/-- The shell runs, and nothing is typed or pending at it. -/
structure Idle (sh : Shell) : Prop where
  running_eq : sh.running = true
  editor_eq : sh.editor = {}
  keyboard_eq : sh.session.keyboard = {}

/-- Those of the lines that are carried out, in order: up to the first one that ends the shell. -/
def executed (sh : Shell) : List String → List String
  | [] => []
  | line :: rest =>
    line :: if (sh.execute line).2.running then (sh.execute line).2.executed rest else []

variable {R : Store → Store → Prop} {Tells : FileCommand → Prop} {sh sh' : Shell} {b : UInt8}
  {line : String}

theorem Idle.start (h : sh.Idle) : sh.start.Idle := by
  obtain ⟨console, hstart⟩ := sh.shown_start
  rw [hstart]
  exact ⟨h.running_eq, h.editor_eq, h.keyboard_eq⟩

theorem Idle.follows_feed (h : sh.Idle) (bytes : List UInt8) :
    sh.Follows bytes (sh.feed bytes) :=
  Shell.follows_feed h.running_eq h.editor_eq h.keyboard_eq bytes

theorem Idle.feed_nil (h : sh.Idle) : sh.feed [] = sh :=
  (settled_of_taken h.keyboard_eq).feed_nil

/-! ## The lines that are carried out -/

theorem executed_append (h : sh.running = true) (lines more : List String) :
    sh.executed (lines ++ more) = sh.executed lines ++
      if (sh.executeLines lines).running then (sh.executeLines lines).executed more else [] := by
  induction lines generalizing sh with
  | nil => rw [List.nil_append, executed, executeLines, if_pos h, List.nil_append]
  | cons line rest ih =>
    rw [List.cons_append, executed, executed, executeLines, List.cons_append]
    by_cases hrun : (sh.execute line).2.running = true
    · rw [if_pos hrun, if_pos hrun, if_pos hrun, ih hrun]
    · rw [if_neg hrun, if_neg hrun, if_neg hrun, if_neg hrun, List.nil_append]

/-- More bytes leave what was carried out before as it is. -/
theorem mem_executed_concat (h : sh.running = true) (bytes : List UInt8) (b : UInt8)
    (hline : line ∈ sh.executed (Typing.commandLines bytes)) :
    line ∈ sh.executed (Typing.commandLines (bytes ++ [b])) := by
  obtain ⟨more, hmore⟩ := Typing.exists_commandLines_concat bytes b
  rw [hmore, executed_append h]
  exact List.mem_append_left _ hline

/-- The line that a byte submits is carried out, if the shell that was fed the bytes before it
still runs. -/
theorem mem_executed_of_submits (h : sh.Idle) {bytes : List UInt8}
    (hrun : (sh.feed bytes).running = true) (hline : (sh.feed bytes).submits? b = some line) :
    line ∈ sh.executed (Typing.commandLines (bytes ++ [b])) := by
  have hfollows := h.follows_feed bytes
  have hruns := hfollows.agrees.running_eq.symm.trans hrun
  unfold submits? at hline
  cases hend : LineEditor.isLineEnd b with
  | true =>
    rw [LineEditor.press_of_end _ hend] at hline
    have hspelled : unlessBlank (LineEditor.asciiText (Typing.unfinished bytes)) = some line := by
      rw [← hfollows.typed_eq hrun]
      exact hline
    rw [Typing.commandLines_concat_of_end bytes hend, hspelled, executed_append h.running_eq,
      if_pos hruns, Option.toList_some, executed]
    exact List.mem_append_right _ List.mem_cons_self
  | false =>
    have hsubmit := ((sh.feed bytes).editor.press_of_not_end hend).2
    split at hline
    · rename_i hpress
      exact absurd hpress (hsubmit _)
    · cases hline

/-! ## Shells that agree -/

section Respects

variable (hR : FileCommand.Respects R Tells)

include hR

theorem Agrees.executeLines (h : sh.Agrees R sh') (lines : List String) :
    (sh.executeLines lines).Agrees R (sh'.executeLines lines) := by
  induction lines generalizing sh sh' with
  | nil => exact h
  | cons line rest ih =>
    have hafter := h.execute hR line
    rw [Shell.executeLines, Shell.executeLines, hafter.running_eq]
    split_ifs
    · exact ih hafter
    · exact hafter

/-- Shells that agree carry out the same lines. -/
theorem Agrees.executed_eq (h : sh.Agrees R sh') (lines : List String) :
    sh'.executed lines = sh.executed lines := by
  induction lines generalizing sh sh' with
  | nil => rfl
  | cons line rest ih =>
    have hafter := h.execute hR line
    rw [executed, executed, hafter.running_eq, ih hafter]

/-- **Shells that agree still do when they are fed the same.** -/
theorem Agrees.feed (h : sh.Agrees R sh') (hsh : sh.Idle) (hsh' : sh'.Idle)
    (bytes : List UInt8) : (sh.feed bytes).Agrees R (sh'.feed bytes) := by
  have hlines := h.executeLines hR (Typing.commandLines bytes)
  exact hlines.of_agrees (hsh.follows_feed bytes).agrees (hsh'.follows_feed bytes).agrees

/-- **Shells that show the same still do when they are fed the same**, unless a line that is
carried out tells. -/
theorem Mirrors.feed (h : sh.Mirrors R sh') (hsh : sh.Idle) (hsh' : sh'.Idle)
    (bytes : List UInt8)
    (hlines : ∀ line ∈ sh.executed (Typing.commandLines bytes), Discreet Tells line) :
    (sh.feed bytes).Mirrors R (sh'.feed bytes) := by
  -- from the end: what is carried out of the bytes is also carried out of more of them
  induction bytes using List.reverseRecOn with
  | nil =>
    rw [hsh.feed_nil, hsh'.feed_nil]
    exact h
  | append_singleton bytes b ih =>
    have hbefore : (sh.feed bytes).Mirrors R (sh'.feed bytes) :=
      ih fun line hline => hlines line (mem_executed_concat hsh.running_eq bytes b hline)
    rw [← feed_append, ← feed_append]
    cases hrun : (sh.feed bytes).running with
    | true =>
      have hrun' : (sh'.feed bytes).running = true := hbefore.running_eq.trans hrun
      rw [feed_singleton hrun (sh.settled_feed bytes hrun),
        feed_singleton hrun' (sh'.settled_feed bytes hrun')]
      apply hbefore.press hR
      intro line hline
      exact hlines line (mem_executed_of_submits hsh hrun hline)
    | false =>
      have hrun' : (sh'.feed bytes).running = false := hbefore.running_eq.trans hrun
      rw [feed_of_ended hrun, feed_of_ended hrun']
      exact ⟨hbefore.toAgrees.of_agrees (agrees_equip _ _ _ _) (agrees_equip _ _ _ _),
        hbefore.console_eq, hbefore.editor_eq, hbefore.echo_eq⟩

end Respects

end FileTree.Shell
