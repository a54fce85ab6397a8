/-!
# Blank characters

The characters with the Unicode property White_Space, and the two ways in which a command line
is cut at them.

## Main definitions

* `isBlank c`: the character has the property White_Space
* `trim s`: the text without the blanks at its two ends
* `cutAtBlank? s`: the text before the first blank and the text after it
-/

namespace FileTree.Text

/-- The characters with the Unicode property White_Space. -/
def isBlank (c : Char) : Bool :=
  let n := c.toNat
  (0x09 ≤ n && n ≤ 0x0d) || n == 0x20 || n == 0x85 || n == 0xa0 || n == 0x1680 ||
    (0x2000 ≤ n && n ≤ 0x200a) || n == 0x2028 || n == 0x2029 || n == 0x202f || n == 0x205f ||
    n == 0x3000

/-- The characters without the blanks at the two ends. -/
def trimChars (cs : List Char) : List Char :=
  ((cs.dropWhile isBlank).reverse.dropWhile isBlank).reverse

/-- The text without the blanks at its two ends. -/
def trim (s : String) : String :=
  String.ofList (trimChars s.toList)

/-- The characters before the first blank and those after it; `none` when there is no blank. -/
def cutCharsAtBlank? (cs : List Char) : Option (List Char × List Char) :=
  match cs.dropWhile (fun c => !isBlank c) with
  | [] => none
  | _ :: rest => some (cs.takeWhile (fun c => !isBlank c), rest)

/-- The text before the first blank and the text after it; `none` when there is no blank. -/
def cutAtBlank? (s : String) : Option (String × String) :=
  (cutCharsAtBlank? s.toList).map fun p => (String.ofList p.1, String.ofList p.2)

@[simp] theorem toList_trim (s : String) : (trim s).toList = trimChars s.toList := by
  simp [trim]

@[simp] theorem trimChars_nil : trimChars [] = [] := rfl

end FileTree.Text
