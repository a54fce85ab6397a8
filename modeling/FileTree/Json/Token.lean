import FileTree.Json

/-!
# Tokens of JSON text

The words of JSON text, and how bytes fall into them.  A token is the longest that the bytes
start with; blanks between tokens are dropped.  A string's escapes are taken apart but not
decoded, so a string is a token whatever its bytes and surrogates spell.

## Main definitions

* `Json.Token`: a bracket, a separator, a word, a number or a string
* `Json.Token.next?`: the token that the bytes start with, and what follows it
* `Json.Token.scan?`: all tokens of the bytes

## Main results

* `Json.Token.length_lt_of_next?`: a token takes at least one byte
* `Json.Token.wholeValue_eq`: what a row of digits is worth
-/

namespace FileTree.Json

/-- The characters of JSON's own alphabet, as bytes. -/
def ascii (c : Char) : UInt8 :=
  c.toUInt8

/-- A word of JSON text. -/
inductive Token where
  | openArray
  | closeArray
  | openObject
  | closeObject
  | comma
  | colon
  | null
  | bool (value : Bool)
  | number (value : Number)
  | string (body : List Part)
  deriving DecidableEq

namespace Token

/-- The bytes that may stand between tokens. -/
def isSpace (b : UInt8) : Bool :=
  b == 0x20 || b == 0x09 || b == 0x0a || b == 0x0d

/-- An ASCII digit. -/
def isDigit (b : UInt8) : Bool :=
  0x30 ≤ b && b ≤ 0x39

/-- The value of a hexadecimal digit of either case. -/
def hexValue? (b : UInt8) : Option Nat :=
  if isDigit b then some (b.toNat - 0x30)
  else if 0x61 ≤ b && b ≤ 0x66 then some (b.toNat - 0x61 + 10)
  else if 0x41 ≤ b && b ≤ 0x46 then some (b.toNat - 0x41 + 10)
  else none

/-- The UTF-16 unit with the given four hexadecimal digits. -/
def unit? (a b c d : UInt8) : Option UInt16 := do
  let a ← hexValue? a
  let b ← hexValue? b
  let c ← hexValue? c
  let d ← hexValue? d
  return (a * 0x1000 + b * 0x100 + c * 0x10 + d).toUInt16

/-- The byte that a backslash and the given byte stand for. -/
def escaped? (b : UInt8) : Option UInt8 :=
  if b = ascii '"' then some 0x22
  else if b = ascii '\\' then some 0x5c
  else if b = ascii '/' then some 0x2f
  else if b = ascii 'b' then some 0x08
  else if b = ascii 'f' then some 0x0c
  else if b = ascii 'n' then some 0x0a
  else if b = ascii 'r' then some 0x0d
  else if b = ascii 't' then some 0x09
  else none

/-- The pieces of a string up to its closing quote, added to those in `done`, which come last
first, and what follows the quote.  A control byte may not stand in a string. -/
def body? (done : List Part) : List UInt8 → Option (List Part × List UInt8)
  | [] => none
  | b :: rest =>
    if b = ascii '"' then some (done.reverse, rest)
    else if b = ascii '\\' then
      match rest with
      | [] => none
      | e :: rest =>
        if e = ascii 'u' then
          match rest with
          | h₁ :: h₂ :: h₃ :: h₄ :: rest =>
            match unit? h₁ h₂ h₃ h₄ with
            | some u => body? (.unit u :: done) rest
            | none => none
          | _ => none
        else
          match escaped? e with
          | some b => body? (.byte b :: done) rest
          | none => none
    else if b < 0x20 then none
    else body? (.byte b :: done) rest

/-- The number that has one more digit than `n`. -/
def withDigit (n : Nat) (b : UInt8) : Nat :=
  10 * n + (b.toNat - 0x30)

/-- The value of a row of digits after the number `n * scale + group`.  The last few digits are
gathered in `group`, so that a long row does not multiply a large number at every digit. -/
def valueAfter (n group scale : Nat) : List UInt8 → Nat
  | [] => n * scale + group
  | b :: rest =>
    if scale < 1000000000000000 then valueAfter n (withDigit group b) (10 * scale) rest
    else valueAfter (n * scale + group) (withDigit 0 b) 10 rest

/-- The value of a row of digits. -/
def wholeValue (digits : List UInt8) : Nat :=
  valueAfter 0 0 1 digits

/-- A whole part: one zero, or digits that do not start with a zero. -/
def isWholePart : List UInt8 → Bool
  | [] => false
  | [_] => true
  | b :: _ => b != ascii '0'

/-- The fraction that the bytes start with, and what follows it: nothing, or a point and at
least one digit. -/
def fraction? : List UInt8 → Option (List UInt8 × List UInt8)
  | b :: rest =>
    if b = ascii '.' then
      let digits := rest.takeWhile isDigit
      if digits.isEmpty then none else some (b :: digits, rest.dropWhile isDigit)
    else some ([], b :: rest)
  | [] => some ([], [])

/-- The sign of an exponent, if there is one, and what follows it. -/
def exponentSign : List UInt8 → List UInt8 × List UInt8
  | b :: rest => if b = ascii '+' || b = ascii '-' then ([b], rest) else ([], b :: rest)
  | [] => ([], [])

/-- The exponent that the bytes start with, and what follows it: nothing, or a letter, a sign
that may be missing and at least one digit. -/
def exponent? : List UInt8 → Option (List UInt8 × List UInt8)
  | b :: rest =>
    if b = ascii 'e' || b = ascii 'E' then
      let (sign, rest) := exponentSign rest
      let digits := rest.takeWhile isDigit
      if digits.isEmpty then none else some (b :: sign ++ digits, rest.dropWhile isDigit)
    else some ([], b :: rest)
  | [] => some ([], [])

/-- A number from its parts as they are written. -/
def numberOfParts (negative : Bool) (digits fraction exponent : List UInt8) : Number :=
  if fraction.isEmpty && exponent.isEmpty then .whole negative (wholeValue digits)
  else .real ((if negative then [ascii '-'] else []) ++ digits ++ fraction ++ exponent)

/-- The number without a sign that the bytes start with, and what follows it. -/
def unsigned? (negative : Bool) (bytes : List UInt8) : Option (Number × List UInt8) :=
  let digits := bytes.takeWhile isDigit
  if isWholePart digits then
    match fraction? (bytes.dropWhile isDigit) with
    | none => none
    | some (fraction, rest) =>
      match exponent? rest with
      | none => none
      | some (exponent, rest) => some (numberOfParts negative digits fraction exponent, rest)
  else none

/-- The number that the bytes start with, and what follows it. -/
def number? : List UInt8 → Option (Number × List UInt8)
  | [] => none
  | b :: rest => if b = ascii '-' then unsigned? true rest else unsigned? false (b :: rest)

/-- What follows the given word, if the bytes start with it. -/
def afterWord? : List Char → List UInt8 → Option (List UInt8)
  | [], bytes => some bytes
  | c :: word, b :: rest => if b = ascii c then afterWord? word rest else none
  | _ :: _, [] => none

/-- The bracket or separator that the byte is. -/
def mark? (b : UInt8) : Option Token :=
  if b = ascii '[' then some .openArray
  else if b = ascii ']' then some .closeArray
  else if b = ascii '\x7b' then some .openObject
  else if b = ascii '\x7d' then some .closeObject
  else if b = ascii ',' then some .comma
  else if b = ascii ':' then some .colon
  else none

/-- A token of several bytes that starts with `b`, and what follows it. -/
def long? (b : UInt8) (rest : List UInt8) : Option (Token × List UInt8) :=
  if b = ascii '"' then (body? [] rest).map fun p => (.string p.1, p.2)
  else if b = ascii 'n' then (afterWord? ['u', 'l', 'l'] rest).map fun r => (.null, r)
  else if b = ascii 't' then (afterWord? ['r', 'u', 'e'] rest).map fun r => (.bool true, r)
  else if b = ascii 'f' then
    (afterWord? ['a', 'l', 's', 'e'] rest).map fun r => (.bool false, r)
  else (number? (b :: rest)).map fun p => (.number p.1, p.2)

/-- The token that the bytes start with, and what follows it. -/
def next? : List UInt8 → Option (Token × List UInt8)
  | [] => none
  | b :: rest =>
    match mark? b with
    | some t => some (t, rest)
    | none => long? b rest

theorem valueAfter_eq (n group scale : Nat) (digits : List UInt8) :
    valueAfter n group scale digits = digits.foldl withDigit (n * scale + group) := by
  fun_induction valueAfter n group scale digits with
  | case1 => rfl
  | case2 n group scale b rest _ ih =>
    rw [ih, List.foldl_cons]
    congr 1
    simp only [withDigit, Nat.mul_add, Nat.mul_left_comm n 10 scale, Nat.add_assoc]
  | case3 n group scale b rest _ ih =>
    rw [ih, List.foldl_cons]
    congr 1
    simp only [withDigit]
    omega

/-- The value of a row of digits is found digit by digit. -/
theorem wholeValue_eq (digits : List UInt8) :
    wholeValue digits = digits.foldl withDigit 0 := by
  simp [wholeValue, valueAfter_eq]

theorem length_lt_of_body? {done body : List Part} {bytes rest : List UInt8}
    (h : body? done bytes = some (body, rest)) : rest.length < bytes.length := by
  fun_induction body? done bytes <;> simp_all <;> omega

theorem length_dropWhile_le (p : UInt8 → Bool) (l : List UInt8) :
    (l.dropWhile p).length ≤ l.length :=
  (List.dropWhile_sublist p).length_le

theorem length_le_of_fraction? {bytes rest part : List UInt8}
    (h : fraction? bytes = some (part, rest)) : rest.length ≤ bytes.length := by
  unfold fraction? at h
  split at h
  · rename_i b tail
    have := length_dropWhile_le isDigit tail
    split at h
    · simp only at h
      split at h
      · cases h
      · cases h; simp only [List.length_cons]; omega
    · cases h; simp
  · cases h; simp

theorem length_exponentSign_le (bytes : List UInt8) :
    (exponentSign bytes).2.length ≤ bytes.length := by
  unfold exponentSign
  split
  · split <;> simp
  · simp

theorem length_le_of_exponent? {bytes rest part : List UInt8}
    (h : exponent? bytes = some (part, rest)) : rest.length ≤ bytes.length := by
  unfold exponent? at h
  split at h
  · rename_i b tail
    split at h
    · have h₁ := length_exponentSign_le tail
      have h₂ := length_dropWhile_le isDigit (exponentSign tail).2
      simp only at h
      split at h
      · cases h
      · cases h; simp only [List.length_cons]; omega
    · cases h; simp
  · cases h; simp

theorem length_lt_of_unsigned? {negative : Bool} {bytes rest : List UInt8} {n : Number}
    (h : unsigned? negative bytes = some (n, rest)) : rest.length < bytes.length := by
  have hsplit : (bytes.takeWhile isDigit).length + (bytes.dropWhile isDigit).length
      = bytes.length := by
    rw [← List.length_append, List.takeWhile_append_dropWhile]
  simp only [unsigned?] at h
  split at h
  · rename_i hwhole
    have hpos : 0 < (bytes.takeWhile isDigit).length := by
      cases hd : bytes.takeWhile isDigit with
      | nil => simp [hd, isWholePart] at hwhole
      | cons => simp
    split at h
    · cases h
    · rename_i hf
      have h₁ := length_le_of_fraction? hf
      split at h
      · cases h
      · rename_i he
        have h₂ := length_le_of_exponent? he
        cases h
        omega
  · cases h

theorem length_lt_of_number? {bytes rest : List UInt8} {n : Number}
    (h : number? bytes = some (n, rest)) : rest.length < bytes.length := by
  unfold number? at h
  split at h
  · cases h
  · split at h
    · have := length_lt_of_unsigned? h
      simp only [List.length_cons]; omega
    · exact length_lt_of_unsigned? h

theorem length_le_of_afterWord? {word : List Char} {bytes rest : List UInt8}
    (h : afterWord? word bytes = some rest) : rest.length ≤ bytes.length := by
  fun_induction afterWord? word bytes with
  | case1 => cases h; exact Nat.le_refl _
  | case2 c word tail ih => exact Nat.le_succ_of_le (ih h)
  | case3 => cases h
  | case4 => cases h

theorem length_lt_of_long? {b : UInt8} {bytes rest : List UInt8} {t : Token}
    (h : long? b bytes = some (t, rest)) : rest.length < bytes.length + 1 := by
  have word {cs : List Char} {t' : Token}
      (h : (afterWord? cs bytes).map (fun r => (t', r)) = some (t, rest)) :
      rest.length < bytes.length + 1 := by
    obtain ⟨r, hr, heq⟩ := Option.map_eq_some_iff.1 h
    cases heq
    exact Nat.lt_succ_of_le (length_le_of_afterWord? hr)
  unfold long? at h
  split at h
  · obtain ⟨p, hp, heq⟩ := Option.map_eq_some_iff.1 h
    cases heq
    exact Nat.lt_succ_of_lt (length_lt_of_body? hp)
  split at h
  · exact word h
  split at h
  · exact word h
  split at h
  · exact word h
  · obtain ⟨p, hp, heq⟩ := Option.map_eq_some_iff.1 h
    cases heq
    exact length_lt_of_number? hp

/-- A token takes at least one byte. -/
theorem length_lt_of_next? {bytes rest : List UInt8} {t : Token}
    (h : next? bytes = some (t, rest)) : rest.length < bytes.length := by
  unfold next? at h
  split at h
  · cases h
  · split at h
    · cases h
      exact Nat.lt_succ_self _
    · exact length_lt_of_long? h

/-- The tokens of the bytes, added to those in `done`, which come last first. -/
def scanFrom? (done : List Token) (bytes : List UInt8) : Option (List Token) :=
  match bytes with
  | [] => some done.reverse
  | b :: rest =>
    if isSpace b then scanFrom? done rest
    else
      match h : next? (b :: rest) with
      | none => none
      | some (t, rest') =>
        have : rest'.length < (b :: rest).length := length_lt_of_next? h
        scanFrom? (t :: done) rest'
termination_by bytes.length
decreasing_by
  · exact Nat.lt_succ_self _
  · exact this

/-- All tokens of the bytes. -/
def scan? (bytes : List UInt8) : Option (List Token) :=
  scanFrom? [] bytes

end Token

end FileTree.Json
