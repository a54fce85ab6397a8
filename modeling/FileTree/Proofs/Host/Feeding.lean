import FileTree.Host
import FileTree.Proofs.Shell.Feeding

/-!
# Feeding a host

A host hands what it is fed to its shell, which takes all of it or ends on the way. So however the
input of a host is cut into pieces, it comes to the same.

## Main definitions

* `Host.init`: the host over a fresh store, whose configuration is not looked at
* `Host.Reachable`: what comes of a host that was created
* `Host.withTyped`: a host at whose keyboard more bytes are pending

## Main results

* `Host.Reachable.settled`: no keys are pending as long as the shell of a host runs
* `Host.feed_feed`: what a host comes to hangs on its whole input, and not on the pieces
-/

namespace FileTree.Host

/-- The host over a fresh store, whose configuration is not looked at. -/
def init (id : StoreId) (settings : HostSettings) : Host :=
  let store := (Store.init id settings.config {}).record {
    level := .info, component
    message := "host started"
    source := some id
    fields := [("scripted", if settings.script.isSome then "true" else "false")] }
  { shell := { session := { store }, echo := settings.echo }
    script := settings.script }

/-- A host is created where the configuration is sound. -/
theorem create_eq_ok_iff {id : StoreId} {settings : HostSettings} {h : Host} :
    create id settings = .ok h ↔ settings.config.check = .ok () ∧ h = init id settings := by
  unfold create Store.fresh
  cases settings.config.check with
  | error e =>
    dsimp only
    constructor
    · intro hok
      cases hok
    · rintro ⟨hok, -⟩
      cases hok
  | ok =>
    dsimp only
    constructor
    · intro hok
      exact ⟨rfl, (Except.ok.inj hok).symm⟩
    · rintro ⟨-, rfl⟩
      rfl

/-- The host comes of one that was created, by starting it, by feeding it and by running it. -/
inductive Reachable : Host → Prop
  | create {id : StoreId} {settings : HostSettings} {h : Host} :
      create id settings = .ok h → Reachable h
  | start {h : Host} : Reachable h → Reachable h.start
  | feed {h : Host} (bytes : List UInt8) : Reachable h → Reachable (h.feed bytes)
  | run {h : Host} (input : List UInt8) : Reachable h → Reachable (h.run input).2

/-- The host at whose keyboard more bytes are pending. -/
def withTyped (h : Host) (bytes : List UInt8) : Host :=
  { h with shell := { h.shell with session := h.shell.session.typeKeys bytes } }

variable {h : Host} {script : String}

theorem shell_start (h : Host) : h.start.shell = h.shell.start := rfl

theorem shell_feed (h : Host) (bytes : List UInt8) : (h.feed bytes).shell = h.shell.feed bytes :=
  rfl

theorem run_of_script (hscript : h.script = some script) (input : List UInt8) :
    h.run input = (.ok (), h.start.feedScript script) := by
  have hstart : h.start.script = some script := hscript
  unfold run
  dsimp only
  rw [hstart]

theorem run_of_none (hscript : h.script = none) (input : List UInt8) :
    h.run input = h.start.feedLines (inputLines input) := by
  have hstart : h.start.script = none := hscript
  unfold run
  dsimp only
  rw [hstart]

/-! ## Nothing is left pending -/

theorem settled_start (hs : h.shell.Settled) : h.start.shell.Settled := by
  obtain ⟨console, hstart⟩ := h.shell.shown_start
  rw [shell_start, hstart]
  exact hs

theorem settled_feed (h : Host) (bytes : List UInt8) : (h.feed bytes).shell.Settled :=
  h.shell.settled_feed bytes

theorem settled_feedScript (h : Host) (script : String) : (h.feedScript script).shell.Settled := by
  unfold feedScript
  dsimp only
  split_ifs
  · exact settled_feed _ _
  · exact settled_feed _ _

theorem settled_feedLines (hs : h.shell.Settled) (lines : List (List UInt8)) :
    (h.feedLines lines).2.shell.Settled := by
  induction lines generalizing h with
  | nil => exact hs
  | cons line rest ih =>
    unfold feedLines feedLine
    split_ifs
    · cases Text.ofBytes? line with
      | none => exact hs
      | some text => exact ih (h.settled_feed line)
    · exact hs

theorem settled_run (hs : h.shell.Settled) (input : List UInt8) :
    (h.run input).2.shell.Settled := by
  cases hscript : h.script with
  | some script =>
    rw [run_of_script hscript]
    exact settled_feedScript _ script
  | none =>
    rw [run_of_none hscript]
    exact settled_feedLines (settled_start hs) _

/-- No keys are pending as long as the shell of a host runs. -/
theorem Reachable.settled (hr : h.Reachable) : h.shell.Settled := by
  induction hr with
  | create hcreate =>
    obtain ⟨-, rfl⟩ := create_eq_ok_iff.mp hcreate
    exact Shell.settled_of_taken rfl
  | start _ ih => exact settled_start ih
  | feed bytes _ _ => exact settled_feed _ bytes
  | run input _ ih => exact settled_run ih input

/-! ## Pieces -/

theorem feed_append (h : Host) (a b : List UInt8) : (h.feed a).feed b = h.feed (a ++ b) :=
  congrArg (Host.mk · h.script) (h.shell.feed_append a b)

theorem foldl_feed (h : Host) (a : List UInt8) (pieces : List (List UInt8)) :
    pieces.foldl feed (h.feed a) = h.feed (a ++ pieces.flatten) := by
  induction pieces generalizing a with
  | nil => rw [List.foldl_nil, List.flatten_nil, List.append_nil]
  | cons piece rest ih =>
    rw [List.foldl_cons, feed_append, ih, List.flatten_cons, List.append_assoc]

theorem feed_nil (hs : h.shell.Settled) : h.feed [] = h :=
  congrArg (Host.mk · h.script) hs.feed_nil

theorem feed_of_ended (hended : h.shell.running = false) (bytes : List UInt8) :
    h.feed bytes = h.withTyped bytes :=
  congrArg (Host.mk · h.script) (Shell.feed_of_ended hended bytes)

/-- **What a host comes to hangs on its whole input, and not on the pieces** in which it is fed,
wherever the cuts fall. Once the shell has ended, further input is left pending and changes nothing
else. -/
theorem feed_feed (h : Host) (a b : List UInt8) :
    (h.feed a).feed b = h.feed (a ++ b) ∧
      (∀ pieces : List (List UInt8),
        pieces.foldl feed (h.feed a) = h.feed (a ++ pieces.flatten)) ∧
      (h.Reachable → ∀ pieces : List (List UInt8),
        pieces.foldl feed h = h.feed pieces.flatten) ∧
      ((h.feed a).shell.running = false → h.feed (a ++ b) = (h.feed a).withTyped b) := by
  refine ⟨h.feed_append a b, h.foldl_feed a, fun hr pieces => ?_, fun hended => ?_⟩
  · have hpieces := h.foldl_feed [] pieces
    rwa [feed_nil hr.settled, List.nil_append] at hpieces
  · rw [← feed_append]
    exact feed_of_ended hended b

/-- The input is cut inside a line, between the two bytes that end one, and behind the line that
ends the shell. -/
theorem feed_feed_of_exit :
    let h := init ⟨0⟩ { config := { maxEntries := 4 } }
    let a : List UInt8 := Text.bytes "mkdir a\r\nexit 3\n"
    let b : List UInt8 := Text.bytes "touch b\n"
    let pieces := [Text.bytes "mk", Text.bytes "dir a\r", Text.bytes "\nexit 3\nto", b]
    h.Reachable ∧ (h.feed a).shell.running = false ∧
      (h.feed a).feed b = h.feed (a ++ b) ∧
      pieces.foldl feed (h.feed a) = h.feed (a ++ pieces.flatten) ∧
      pieces.foldl feed h = h.feed pieces.flatten ∧
      h.feed (a ++ b) = (h.feed a).withTyped b := by
  intro h a b pieces
  have hr : h.Reachable := .create (create_eq_ok_iff.mpr ⟨rfl, rfl⟩)
  have hexit : (h.feed a).shell.running = false := by decide +kernel
  obtain ⟨hcut, hpieces, hall, hended⟩ := feed_feed h a b
  exact ⟨hr, hexit, hcut, hpieces pieces, hall hr pieces, hended hexit⟩

end FileTree.Host
