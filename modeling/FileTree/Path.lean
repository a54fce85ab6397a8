/-!
# Paths

A path names an entry by the names on the way to it, separated by slashes.  A path that starts
with a slash starts at the root.  Empty segments do not count, so repeated and trailing slashes
are harmless.  A path also serves as the name of a new entry: then only its leading slashes are
dropped.

## Main definitions

* `Path.isAbsolute`: the path starts at the root
* `Path.segments`: the names on the way
* `Path.creationName`: the path as the name of a new entry

## Main results

* `Path.segments_append_slash_append`: a slash joins the segments of two paths
-/

namespace FileTree.Path

/-- The character between two segments. -/
def separator : Char := '/'

/-- The path starts at the root. -/
def isAbsolute (path : String) : Bool :=
  path.toList.head? == some separator

/-- The non-empty segments of a row of characters. -/
def segmentsOf (cs : List Char) : List (List Char) :=
  (cs.splitOn separator).filter (!·.isEmpty)

/-- The names on the way. -/
def segments (path : String) : List String :=
  (segmentsOf path.toList).map String.ofList

/-- The path as the name of a new entry: without its leading separators. -/
def creationName (path : String) : String :=
  String.ofList (path.toList.dropWhile (· == separator))

@[simp] theorem segments_empty : segments "" = [] := by
  simp [segments, segmentsOf]

theorem segmentsOf_append_separator (p q : List Char) :
    segmentsOf (p ++ separator :: q) = segmentsOf p ++ segmentsOf q := by
  simp [segmentsOf, List.splitOn_append_cons_self]

/-- A separator joins the segments of two paths. -/
theorem segments_append_slash_append (p q : String) :
    segments (p ++ "/" ++ q) = segments p ++ segments q := by
  have h : (p ++ "/" ++ q).toList = p.toList ++ separator :: q.toList := by
    simp [separator]
  simp [segments, h, segmentsOf_append_separator]

end FileTree.Path
