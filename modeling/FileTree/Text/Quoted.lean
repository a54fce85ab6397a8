import FileTree.Text.Hidden

/-!
# Quoted texts

A quoted text stands between double quotes.  A quote, a backslash and the characters NUL, tab,
line feed and carriage return are written with a backslash; any other hidden character is
written by its code point in braces; all else stands for itself.

## Main definitions

* `quoteChar c`: a character as it is written inside quotes
* `quote s`: the quoted text
-/

namespace FileTree.Text

/-- The code point of a character as a backslash, a `u` and lower-case hexadecimal digits in
braces. -/
def codePointEscape (c : Char) : List Char :=
  ['\\', 'u', '\x7b'] ++ Nat.toDigits 16 c.toNat ++ ['\x7d']

/-- A character as it is written inside quotes. -/
def quoteChar (c : Char) : List Char :=
  if c = '"' then ['\\', '"']
  else if c = '\\' then ['\\', '\\']
  else if c = '\n' then ['\\', 'n']
  else if c = '\r' then ['\\', 'r']
  else if c = '\t' then ['\\', 't']
  else if c = '\x00' then ['\\', '0']
  else if isHidden c then codePointEscape c
  else [c]

/-- The text between double quotes. -/
def quote (s : String) : String :=
  String.ofList ('"' :: s.toList.flatMap quoteChar ++ ['"'])

end FileTree.Text
