/-!
# The line editor

Typed bytes become lines.  A printable byte is added to the line as long as there is room,
backspace and delete take the last one away, and a line feed or carriage return ends the line.
For every byte the editor tells what the console has to show for it.

## Main definitions

* `LineEditor`: the line typed so far
* `KeyOutcome`: what a byte did to the line
* `LineEditor.press`: takes one byte
-/

namespace FileTree

/-- What a byte did to the line. -/
inductive KeyOutcome where
  /-- The byte was added and is to be shown. -/
  | echo (b : UInt8)
  /-- The last byte was taken away. -/
  | erase
  /-- The line ended. -/
  | submit (line : String)
  /-- Nothing changed. -/
  | ignored
  deriving DecidableEq

/-- The line typed so far. -/
structure LineEditor where
  typed : List UInt8 := []
  deriving DecidableEq

namespace LineEditor

/-- The most bytes that a line holds. -/
def maxLength : Nat := 255

/-- The byte is printable ASCII. -/
def isPrintable (b : UInt8) : Bool :=
  32 ≤ b && b ≤ 126

/-- The byte ends a line: a line feed or a carriage return. -/
def isLineEnd (b : UInt8) : Bool :=
  b == 10 || b == 13

/-- The byte takes another away: backspace or delete. -/
def isErase (b : UInt8) : Bool :=
  b == 8 || b == 127

/-- Bytes of ASCII as text. -/
def asciiText (bytes : List UInt8) : String :=
  String.ofList (bytes.map fun b => Char.ofNat b.toNat)

/-- The line as text. -/
def text (e : LineEditor) : String :=
  asciiText e.typed

/-- Takes one byte. -/
def press (e : LineEditor) (b : UInt8) : KeyOutcome × LineEditor :=
  if isLineEnd b then (.submit e.text, {})
  else if isErase b then
    if e.typed.isEmpty then (.ignored, e) else (.erase, ⟨e.typed.dropLast⟩)
  else if isPrintable b && e.typed.length < maxLength then (.echo b, ⟨e.typed ++ [b]⟩)
  else (.ignored, e)

/-- The editor with an empty line. -/
def clear (_ : LineEditor) : LineEditor := {}

variable {b : UInt8}

theorem isLineEnd_iff : isLineEnd b = true ↔ b = 10 ∨ b = 13 := by
  simp [isLineEnd]

theorem isErase_iff : isErase b = true ↔ b = 8 ∨ b = 127 := by
  simp [isErase]

theorem isPrintable_iff : isPrintable b = true ↔ 32 ≤ b ∧ b ≤ 126 := by
  simp [isPrintable]

/-- A printable byte neither ends a line nor takes another byte away. -/
theorem not_control_of_isPrintable (h : isPrintable b = true) :
    ¬ isLineEnd b = true ∧ ¬ isErase b = true := by
  rw [isLineEnd_iff, isErase_iff]
  constructor <;> rintro (rfl | rfl) <;> exact absurd h (by decide)

end LineEditor

end FileTree
