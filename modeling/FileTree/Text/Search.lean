/-!
# Searching a text

## Main definitions

* `occurs pattern cs`: the characters stand somewhere in a row
* `contains s pattern`: the pattern stands somewhere in the text

## Main results

* `occurs_iff`: this is the infix relation on lists
-/

namespace FileTree.Text

/-- The characters of `pattern` stand somewhere in a row. -/
def occurs (pattern : List Char) : List Char → Bool
  | [] => pattern.isEmpty
  | c :: cs => pattern.isPrefixOf (c :: cs) || occurs pattern cs

/-- The pattern stands somewhere in the text. -/
def contains (s pattern : String) : Bool :=
  occurs pattern.toList s.toList

theorem occurs_iff (pattern cs : List Char) : occurs pattern cs = true ↔ pattern <:+: cs := by
  induction cs with
  | nil => simp [occurs]
  | cons c cs ih => simp [occurs, ih, List.infix_cons_iff]

end FileTree.Text
