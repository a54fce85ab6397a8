/-!
# Texts as bytes

The UTF-8 form of a text, and the two readings of bytes as a text: the strict one refuses bytes
that are not UTF-8, the lossy one puts U+FFFD for each maximal piece that is not.

## Main definitions

* `bytes s`: the UTF-8 form of a text
* `ofBytes? b`: the text with the UTF-8 form `b`, if there is one
* `lossy b`: the text of `b`, with U+FFFD for each piece that is not UTF-8

## Main results

* `ofBytes?_bytes`, `lossy_bytes`: both readings undo `bytes`
* `ofBytes?_eq_some_iff`: the strict one reads nothing else
* `toUInt8_mem_bytes_iff`: the byte of an ASCII character stands for nothing else
-/

namespace FileTree.Text

/-- The UTF-8 form of a text. -/
def bytes (s : String) : List UInt8 :=
  s.toList.flatMap String.utf8EncodeChar

/-- The text with the given UTF-8 form, if there is one. -/
def ofBytes? (b : List UInt8) : Option String :=
  String.fromUTF8? b.toByteArray

/-- The character that the bytes start with, if they start with one. -/
def firstChar? (b : List UInt8) : Option Char :=
  (b.take 4).toByteArray.utf8DecodeChar? 0

/-- A byte that continues a character. -/
def isContinuation (b : UInt8) : Bool :=
  0x80 ≤ b && b ≤ 0xbf

/-- Whether `second` may follow `first` in a character of three bytes or more. -/
def startsLong (first second : UInt8) : Bool :=
  if first == 0xe0 then 0xa0 ≤ second && second ≤ 0xbf
  else if first == 0xed then 0x80 ≤ second && second ≤ 0x9f
  else if first == 0xf0 then 0x90 ≤ second && second ≤ 0xbf
  else if first == 0xf4 then 0x80 ≤ second && second ≤ 0x8f
  else 0xe1 ≤ first && first ≤ 0xf3 && isContinuation second

/-- How many bytes after `first` belong to the piece that is no character: those with which a
character could still have begun. -/
def brokenTail (first : UInt8) : List UInt8 → Nat
  | second :: third :: _ =>
    if startsLong first second then
      if 0xf0 ≤ first && isContinuation third then 2 else 1
    else 0
  | [second] => if startsLong first second then 1 else 0
  | [] => 0

/-- The characters of the bytes, with U+FFFD for each maximal piece that is no character. -/
def lossyChars : List UInt8 → List Char
  | [] => []
  | b :: rest =>
    match firstChar? (b :: rest) with
    | some c => c :: lossyChars (rest.drop (c.utf8Size - 1))
    | none => '\uFFFD' :: lossyChars (rest.drop (brokenTail b rest))
termination_by b => b.length
decreasing_by all_goals simp only [List.length_drop, List.length_cons]; omega

/-- The text of the bytes, with U+FFFD for each maximal piece that is no character. -/
def lossy (b : List UInt8) : String :=
  String.ofList (lossyChars b)

@[simp] theorem bytes_empty : bytes "" = [] := rfl

@[simp] theorem bytes_append (s t : String) : bytes (s ++ t) = bytes s ++ bytes t := by
  simp [bytes]

theorem toByteArray_bytes (s : String) : (bytes s).toByteArray = s.toByteArray := by
  have h : (String.ofList s.toList).toByteArray = s.toList.utf8Encode := String.toByteArray_ofList
  rw [String.ofList_toList] at h
  rw [h, List.utf8Encode, bytes]

/-- The UTF-8 form of a text has the text's size. -/
theorem length_bytes (s : String) : (bytes s).length = s.utf8ByteSize := by
  rw [← String.size_toByteArray, ← toByteArray_bytes, List.size_toByteArray]

/-- The form of an ASCII character is one byte, which is no part of the form of another. -/
theorem toUInt8_mem_utf8EncodeChar_iff {c d : Char} (hd : d.toNat < 128) :
    d.toUInt8 ∈ String.utf8EncodeChar c ↔ c = d := by
  have hbyte : d.toUInt8.toNat = d.toNat := Nat.mod_eq_of_lt (Nat.lt_trans hd (by decide))
  have hchar : c = d ↔ c.val.toNat = d.toNat :=
    ⟨fun h => h ▸ rfl, fun h => Char.ext (UInt32.toNat_inj.mp h)⟩
  rw [hchar]
  unfold String.utf8EncodeChar
  dsimp only
  repeat' split
  all_goals
    simp only [List.mem_cons, List.not_mem_nil, or_false, ← UInt8.toNat_inj, UInt8.toNat_ofNat',
      hbyte]
    omega

/-- The form of a text has the byte of an ASCII character where the text has the character. -/
theorem toUInt8_mem_bytes_iff {d : Char} (hd : d.toNat < 128) (s : String) :
    d.toUInt8 ∈ bytes s ↔ d ∈ s.toList := by
  simp only [bytes, List.mem_flatMap, toUInt8_mem_utf8EncodeChar_iff hd, exists_eq_right]

/-- Strict reading undoes `bytes`. -/
@[simp] theorem ofBytes?_bytes (s : String) : ofBytes? (bytes s) = some s := by
  unfold ofBytes? String.fromUTF8?
  rw [toByteArray_bytes, dif_pos s.isValidUTF8]
  rfl

/-- Strict reading accepts nothing but UTF-8 forms. -/
theorem ofBytes?_eq_some_iff {b : List UInt8} {s : String} : ofBytes? b = some s ↔ b = bytes s := by
  constructor
  · intro h
    unfold ofBytes? String.fromUTF8? at h
    split at h
    · obtain rfl := Option.some.inj h
      rw [← List.toByteArray_inj, toByteArray_bytes]
      rfl
    · cases h
  · rintro rfl
    exact ofBytes?_bytes s

theorem firstChar?_utf8EncodeChar_append (c : Char) (rest : List UInt8) :
    firstChar? (String.utf8EncodeChar c ++ rest) = some c := by
  have hle : (String.utf8EncodeChar c).length ≤ 4 := by
    rw [String.length_utf8EncodeChar]; exact c.utf8Size_le_four
  rw [firstChar?, List.take_append, List.take_of_length_le hle, List.toByteArray_append]
  exact ByteArray.utf8DecodeChar?_utf8EncodeChar_append

theorem lossyChars_utf8EncodeChar_append (c : Char) (rest : List UInt8) :
    lossyChars (String.utf8EncodeChar c ++ rest) = c :: lossyChars rest := by
  have hne : String.utf8EncodeChar c ≠ [] := String.utf8EncodeChar_ne_nil
  have hlen := String.length_utf8EncodeChar c
  have hfirst := firstChar?_utf8EncodeChar_append c rest
  generalize String.utf8EncodeChar c = e at hne hlen hfirst
  match e, hne with
  | b :: tail, _ =>
    rw [List.cons_append] at hfirst ⊢
    rw [lossyChars, hfirst]
    have : c.utf8Size - 1 = tail.length := by simp only [List.length_cons] at hlen; omega
    simp [this]

theorem lossyChars_flatMap_utf8EncodeChar (cs : List Char) :
    lossyChars (cs.flatMap String.utf8EncodeChar) = cs := by
  induction cs with
  | nil => simp [lossyChars]
  | cons c cs ih => rw [List.flatMap_cons, lossyChars_utf8EncodeChar_append, ih]

/-- Lossy reading undoes `bytes`. -/
@[simp] theorem lossy_bytes (s : String) : lossy (bytes s) = s := by
  rw [lossy, bytes, lossyChars_flatMap_utf8EncodeChar, String.ofList_toList]

end FileTree.Text
