import FileTree.OpenFiles
import FileTree.Syscall.Response
import Mathlib.Logic.Function.Basic
import Mathlib.Tactic.SplitIfs

/-!
# A machine for files and positions

The machine has a byte string for each file, and a file and a position for each descriptor in use.
It knows nothing of names, trees and memory: which files there are, and to which entry a path
leads, it is told. A read answers the bytes from the position on and moves the position past them;
a write cuts the file at the position, puts the data there and moves the position to the new end.
A position past the end of its file counts as the end.

## Main definitions

* `FileMachine`, `FileMachine.Input`: the machine, and what it is told or asked
* `FileMachine.serve`: what the machine answers, and what becomes of it
* `FileMachine.run`, `FileMachine.responses`: the same for inputs in order
* `FileMachine.Input.Spares`, `FileMachine.Input.Avoids`: an input leaves a file, or a descriptor,
  alone

## Main results

* `FileMachine.content_serve`, `FileMachine.position_serve`: what an input leaves alone
* `FileMachine.content_run`, `FileMachine.position_run`: what inputs in order leave alone
-/

namespace FileTree

/-- Files by their entries, and positions in them by descriptor. -/
@[ext]
structure FileMachine where
  content : EntryId → Option (List UInt8)
  position : Descriptor → Option (EntryId × Nat)

namespace FileMachine

/-- What the machine is told or asked. -/
inductive Input where
  /-- Which entries are files by now. New ones are empty. -/
  | census (isFile : EntryId → Bool)
  /-- A file is replaced by someone who has no descriptor. -/
  | replace (id : EntryId) (data : List UInt8)
  /-- A path that leads to an entry, or nowhere, is opened. -/
  | openFile (named : Except StoreError EntryId)
  | read (fd : Descriptor) (maxLength : UInt64)
  | write (fd : Descriptor) (data : List UInt8)
  | close (fd : Descriptor)

/-- The machine with other content of a file. -/
def fill (m : FileMachine) (id : EntryId) (data : List UInt8) : FileMachine :=
  { m with content := Function.update m.content id (some data) }

/-- The machine with a descriptor at another place, or at none. -/
def place (m : FileMachine) (fd : Descriptor) (at? : Option (EntryId × Nat)) : FileMachine :=
  { m with position := Function.update m.position fd at? }

/-- The lowest descriptor that is free. -/
def free? (m : FileMachine) : Option Descriptor :=
  ((List.range' OpenFiles.firstNumber (OpenFiles.limit - OpenFiles.firstNumber)).map
    fun n => ⟨n.toUInt32⟩).find? fun fd => (m.position fd).isNone

/-- Opens a file at its start. -/
def openFile (m : FileMachine) :
    Except StoreError EntryId → Except SyscallError Response × FileMachine
  | .error cause => (.error (.store cause), m)
  | .ok id =>
    match m.content id with
    | none => (.error (.store (.notAFile id)), m)
    | some _ =>
      match m.free? with
      | none => (.error (.tooManyOpenFiles OpenFiles.limit), m)
      | some fd => (.ok (.opened fd), m.place fd (some (id, 0)))

/-- Reads from the position of a descriptor, and moves it past what was read. -/
def read (m : FileMachine) (fd : Descriptor) (maxLength : UInt64) :
    Except SyscallError Response × FileMachine :=
  match m.position fd with
  | none => (.error (.badDescriptor fd), m)
  | some (id, position) =>
    match m.content id with
    | none => (.error (.badDescriptor fd), m)
    | some data =>
      let start := min position data.length
      let count := min maxLength.toNat (data.length - start)
      (.ok (.data ((data.drop start).take count)), m.place fd (some (id, start + count)))

/-- Writes at the position of a descriptor, where the file then ends. -/
def write (m : FileMachine) (fd : Descriptor) (data : List UInt8) :
    Except SyscallError Response × FileMachine :=
  match m.position fd with
  | none => (.error (.badDescriptor fd), m)
  | some (id, position) =>
    match m.content id with
    | none => (.error (.badDescriptor fd), m)
    | some old =>
      let written := old.take (min position old.length) ++ data
      (.ok (.count data.length.toUInt64),
        (m.fill id written).place fd (some (id, written.length)))

/-- Closes a descriptor. -/
def close (m : FileMachine) (fd : Descriptor) : Except SyscallError Response × FileMachine :=
  match m.position fd with
  | none => (.error (.badDescriptor fd), m)
  | some _ => (.ok .closed, m.place fd none)

/-- What the machine answers, if it is asked, and the machine after that. -/
def serve (m : FileMachine) : Input → Option (Except SyscallError Response) × FileMachine
  | .census isFile =>
    (none, { m with
      content := fun id => if isFile id then some ((m.content id).getD []) else none })
  | .replace id data => (none, if (m.content id).isSome then m.fill id data else m)
  | .openFile named => ((m.openFile named).1, (m.openFile named).2)
  | .read fd maxLength => ((m.read fd maxLength).1, (m.read fd maxLength).2)
  | .write fd data => ((m.write fd data).1, (m.write fd data).2)
  | .close fd => ((m.close fd).1, (m.close fd).2)

/-- The machine after inputs in order. -/
def run (m : FileMachine) (inputs : List Input) : FileMachine :=
  inputs.foldl (fun m input => (m.serve input).2) m

/-- What the machine answers to inputs in order. -/
def responses (m : FileMachine) : List Input → List (Except SyscallError Response)
  | [] => []
  | input :: inputs => (m.serve input).1.toList ++ (m.serve input).2.responses inputs

variable {m : FileMachine} {input : Input} {fd : Descriptor} {id : EntryId} {data : List UInt8}

theorem responses_singleton (m : FileMachine) (input : Input) :
    m.responses [input] = (m.serve input).1.toList := List.append_nil _

theorem run_append (m : FileMachine) (inputs more : List Input) :
    m.run (inputs ++ more) = (m.run inputs).run more := List.foldl_append

theorem responses_append (m : FileMachine) (inputs more : List Input) :
    m.responses (inputs ++ more) = m.responses inputs ++ (m.run inputs).responses more := by
  induction inputs generalizing m with
  | nil => rfl
  | cons input inputs ih => rw [List.cons_append, responses, ih, responses, List.append_assoc]; rfl

/-! ## What an input leaves alone -/

/-- The input neither writes to the file nor takes it away. -/
def Input.Spares (m : FileMachine) (id : EntryId) : Input → Prop
  | .census isFile => isFile id = true
  | .replace x _ => x ≠ id
  | .write fd _ => ∀ n, m.position fd ≠ some (id, n)
  | _ => True

/-- The input is not about the descriptor. -/
def Input.Avoids (fd : Descriptor) : Input → Prop
  | .read x _ | .write x _ | .close x => x ≠ fd
  | _ => True

/-- Every input leaves the file alone when its turn comes. -/
def Spared (m : FileMachine) (id : EntryId) : List Input → Prop
  | [] => True
  | input :: inputs => input.Spares m id ∧ (m.serve input).2.Spared id inputs

theorem content_openFile (m : FileMachine) (named : Except StoreError EntryId) :
    (m.openFile named).2.content = m.content := by
  unfold openFile
  split
  · rfl
  · split
    · rfl
    · split <;> rfl

theorem content_read (m : FileMachine) (fd : Descriptor) (maxLength : UInt64) :
    (m.read fd maxLength).2.content = m.content := by
  unfold read
  split
  · rfl
  · split <;> rfl

theorem content_close (m : FileMachine) (fd : Descriptor) :
    (m.close fd).2.content = m.content := by
  unfold close
  split <;> rfl

/-- **A file that is not written to keeps its content.** -/
theorem content_serve (h : input.Spares m id) (hc : m.content id = some data) :
    (m.serve input).2.content id = some data := by
  cases input with
  | census isFile =>
    have hfile : isFile id = true := h
    show (if isFile id then some ((m.content id).getD []) else none) = some data
    rw [if_pos hfile, hc, Option.getD_some]
  | replace x other =>
    simp only [serve]
    split_ifs
    · exact (Function.update_of_ne (Ne.symm h) _ _).trans hc
    · exact hc
  | openFile named => exact (congrFun (m.content_openFile named) id).trans hc
  | read fd maxLength => exact (congrFun (m.content_read fd maxLength) id).trans hc
  | close fd => exact (congrFun (m.content_close fd) id).trans hc
  | write fd other =>
    simp only [serve, write]
    split
    · exact hc
    rename_i x position hp
    have hne : id ≠ x := by
      rintro rfl
      exact h position hp
    split
    · exact hc
    · exact (Function.update_of_ne hne _ _).trans hc

theorem content_run {inputs : List Input} (h : m.Spared id inputs) (hc : m.content id = some data) :
    (m.run inputs).content id = some data := by
  induction inputs generalizing m with
  | nil => exact hc
  | cons input inputs ih => exact ih h.2 (content_serve h.1 hc)

/-- A descriptor that is in use is not the next one to be given out. -/
theorem ne_of_free? {place : EntryId × Nat} (hp : m.position fd = some place) {next : Descriptor}
    (h : m.free? = some next) : fd ≠ next := by
  rintro rfl
  have hfree := List.find?_some h
  rw [hp] at hfree
  cases hfree

/-- **A descriptor stays where it is, unless it is the one that is used.** -/
theorem position_serve (h : input.Avoids fd) {place : EntryId × Nat}
    (hp : m.position fd = some place) : (m.serve input).2.position fd = some place := by
  cases input with
  | census isFile => exact hp
  | replace x other =>
    simp only [serve]
    split_ifs <;> exact hp
  | openFile named =>
    simp only [serve, openFile]
    split
    · exact hp
    split
    · exact hp
    split
    · exact hp
    · rename_i next hnext
      exact (Function.update_of_ne (ne_of_free? hp hnext) _ _).trans hp
  | read x maxLength =>
    simp only [serve, read]
    split
    · exact hp
    split
    · exact hp
    · exact (Function.update_of_ne (Ne.symm h) _ _).trans hp
  | write x other =>
    simp only [serve, write]
    split
    · exact hp
    split
    · exact hp
    · exact (Function.update_of_ne (Ne.symm h) _ _).trans hp
  | close x =>
    simp only [serve, close]
    split
    · exact hp
    · exact (Function.update_of_ne (Ne.symm h) _ _).trans hp

theorem position_run {inputs : List Input} (h : ∀ input ∈ inputs, input.Avoids fd)
    {place : EntryId × Nat} (hp : m.position fd = some place) :
    (m.run inputs).position fd = some place := by
  induction inputs generalizing m with
  | nil => exact hp
  | cons input inputs ih =>
    obtain ⟨hfirst, hrest⟩ := List.forall_mem_cons.mp h
    exact ih hrest (position_serve hfirst hp)

end FileMachine

end FileTree
