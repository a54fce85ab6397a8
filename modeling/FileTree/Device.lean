/-!
# Keyboard and console

The two devices of a process.  A keyboard holds the bytes typed and not yet read; a console
holds the bytes written to it.

## Main definitions

* `Keyboard.push`, `Keyboard.poll`: typing, and reading one byte
* `Console.write`: writing
* `Console.output`: everything written, in order
-/

namespace FileTree

/-- The bytes typed and not yet read, in order. -/
structure Keyboard where
  pending : List UInt8 := []
  deriving DecidableEq

namespace Keyboard

/-- The keyboard after `bytes` were typed. -/
def push (k : Keyboard) (bytes : List UInt8) : Keyboard :=
  ⟨k.pending ++ bytes⟩

/-- The next byte, if one is pending, and the keyboard without it. -/
def poll (k : Keyboard) : Option UInt8 × Keyboard :=
  match k.pending with
  | [] => (none, k)
  | b :: rest => (some b, ⟨rest⟩)

end Keyboard

/-- The bytes written to a console, the last one first. -/
structure Console where
  backwards : List UInt8 := []
  deriving DecidableEq

namespace Console

/-- Everything written, in order. -/
def output (c : Console) : List UInt8 :=
  c.backwards.reverse

/-- The console after `bytes` were written. -/
def write (c : Console) (bytes : List UInt8) : Console :=
  ⟨bytes.reverse ++ c.backwards⟩

/-- The number of bytes written. -/
def size (c : Console) : Nat :=
  c.backwards.length

@[simp] theorem output_empty : ({} : Console).output = [] := rfl

@[simp] theorem output_write (c : Console) (bytes : List UInt8) :
    (c.write bytes).output = c.output ++ bytes := by
  simp [output, write]

@[simp] theorem write_nil (c : Console) : c.write [] = c := rfl

theorem size_eq (c : Console) : c.size = c.output.length := by
  simp [size, output]

end Console

end FileTree
