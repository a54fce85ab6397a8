import FileTree.Proofs.Shell.InStep

/-!
# Feeding a shell

A shell is fed bytes by typing them and letting it take what is pending. As long as it runs, it
presses one byte after the other and none is left; once it has ended, bytes only pile up at its
keyboard. So it does not matter how the bytes are cut into pieces.

## Main definitions

* `Shell.Settled`: a shell that runs has no keys pending

## Main results

* `Shell.feed_cons`, `Shell.feed_of_ended`: what feeding comes to while the shell runs, and after
* `Shell.feed_append`: feeding two pieces is feeding them joined
* `Shell.settled_feed`: a shell that still runs has taken all that it was fed
-/

namespace FileTree

theorem Keyboard.push_append (k : Keyboard) (a b : List UInt8) :
    (k.push a).push b = k.push (a ++ b) :=
  congrArg Keyboard.mk (List.append_assoc k.pending a b)

@[simp] theorem Keyboard.push_nil (k : Keyboard) : k.push [] = k :=
  congrArg Keyboard.mk (List.append_nil k.pending)

namespace Shell

/-- A shell that runs has no keys pending. -/
def Settled (sh : Shell) : Prop :=
  sh.running = true → sh.session.keyboard = {}

variable {sh : Shell}

theorem feed_eq_pump (sh : Shell) (bytes : List UInt8) :
    sh.feed bytes = (sh.withKeyboard (sh.session.keyboard.push bytes)).pump.2 := rfl

theorem takeFirst_eq (sh : Shell) (b : UInt8) (rest : List UInt8) :
    sh.takeFirst b rest = (sh.press b).withKeyboard ⟨rest⟩ :=
  sh.press_withKeyboard ⟨rest⟩ b

/-- Letting a shell take the pending bytes is letting it press the first one, and then take the
others. -/
theorem pump_eq (sh : Shell) : sh.pump.2 =
    if sh.running then
      match sh.session.keyboard.pending with
      | [] => sh
      | b :: rest => ((sh.press b).withKeyboard ⟨rest⟩).pump.2
    else sh := by
  unfold pump
  cases hkeys : sh.session.keyboard.pending with
  | nil =>
    rw [List.length_nil, pumpAtMost]
    split_ifs <;> rfl
  | cons b rest =>
    rw [List.length_cons, pumpAtMost_succ, hkeys]
    dsimp only
    rw [takeFirst_eq]
    rfl

/-- A shell that has ended takes nothing. -/
theorem feed_of_ended (h : sh.running = false) (bytes : List UInt8) :
    sh.feed bytes = sh.withKeyboard (sh.session.keyboard.push bytes) := by
  have hended : ¬ (sh.withKeyboard (sh.session.keyboard.push bytes)).running = true :=
    fun hrun => absurd (h.symm.trans hrun) Bool.false_ne_true
  rw [feed_eq_pump, pump_eq, if_neg hended]

theorem Settled.feed_nil (h : sh.Settled) : sh.feed [] = sh := by
  have hsh : sh.withKeyboard (sh.session.keyboard.push []) = sh := by
    rw [Keyboard.push_nil]
    rfl
  rw [feed_eq_pump, hsh, pump_eq]
  split_ifs with hrun
  · rw [h hrun]
  · rfl

theorem settled_of_taken (hkeys : sh.session.keyboard = {}) : sh.Settled :=
  fun _ => hkeys

/-- A shell that runs and has taken everything before presses the bytes one after the other. -/
theorem feed_cons (h : sh.running = true) (hkeys : sh.session.keyboard = {}) (b : UInt8)
    (rest : List UInt8) : sh.feed (b :: rest) = (sh.press b).feed rest := by
  have hruns : (sh.withKeyboard ⟨b :: rest⟩).running = true := h
  calc sh.feed (b :: rest)
      = (sh.withKeyboard ⟨b :: rest⟩).pump.2 := by rw [feed_eq_pump, hkeys]; rfl
    _ = (((sh.withKeyboard ⟨b :: rest⟩).press b).withKeyboard ⟨rest⟩).pump.2 := by
      rw [pump_eq, if_pos hruns]
      rfl
    _ = ((sh.press b).withKeyboard ⟨rest⟩).pump.2 := by
      -- the other bytes might as well be typed after the first one was pressed
      rw [press_withKeyboard]
      rfl
    _ = (sh.press b).feed rest := by
      rw [feed_eq_pump, keyboard_press, hkeys]
      rfl

/-- A shell that runs and has taken everything before presses a byte. -/
theorem feed_singleton (h : sh.running = true) (hkeys : sh.session.keyboard = {}) (b : UInt8) :
    sh.feed [b] = sh.press b := by
  have hpressed : (sh.press b).Settled := settled_of_taken ((keyboard_press sh b).trans hkeys)
  rw [feed_cons h hkeys, hpressed.feed_nil]

/-- The keys still pending are taken before the bytes that are fed. -/
theorem feed_eq_feed_pending (sh : Shell) (bytes : List UInt8) :
    sh.feed bytes = (sh.withKeyboard {}).feed (sh.session.keyboard.pending ++ bytes) := rfl

theorem feed_append_of_taken (hkeys : sh.session.keyboard = {}) (a b : List UInt8) :
    (sh.feed a).feed b = sh.feed (a ++ b) := by
  induction a generalizing sh with
  | nil => rw [(settled_of_taken hkeys).feed_nil, List.nil_append]
  | cons first a ih =>
    cases hrun : sh.running with
    | true =>
      rw [feed_cons hrun hkeys, List.cons_append, feed_cons hrun hkeys]
      exact ih ((keyboard_press sh first).trans hkeys)
    | false =>
      have hended : (sh.withKeyboard (sh.session.keyboard.push (first :: a))).running = false :=
        hrun
      rw [feed_of_ended hrun, feed_of_ended hrun, feed_of_ended hended, ← Keyboard.push_append]
      rfl

/-- **Feeding two pieces is feeding them joined**, wherever the cut falls. -/
theorem feed_append (sh : Shell) (a b : List UInt8) : (sh.feed a).feed b = sh.feed (a ++ b) := by
  rw [feed_eq_feed_pending sh a, feed_eq_feed_pending sh (a ++ b), ← List.append_assoc]
  exact feed_append_of_taken rfl _ b

theorem settled_feed_of_taken (hkeys : sh.session.keyboard = {}) (bytes : List UInt8) :
    (sh.feed bytes).Settled := by
  induction bytes generalizing sh with
  | nil =>
    rw [(settled_of_taken hkeys).feed_nil]
    exact settled_of_taken hkeys
  | cons b rest ih =>
    cases hrun : sh.running with
    | true =>
      rw [feed_cons hrun hkeys]
      exact ih ((keyboard_press sh b).trans hkeys)
    | false =>
      rw [feed_of_ended hrun]
      intro h
      exact absurd (hrun.symm.trans h) Bool.false_ne_true

/-- A shell that still runs has taken all that it was fed. -/
theorem settled_feed (sh : Shell) (bytes : List UInt8) : (sh.feed bytes).Settled := by
  rw [feed_eq_feed_pending]
  exact settled_feed_of_taken rfl _

end Shell

end FileTree
