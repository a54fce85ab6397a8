import FileTree.Json.Text
import Mathlib.Data.List.Nodup

/-!
# Spellings of a JSON value

A control byte that has no short escape is written as a `\u` escape, so a string that is written and
read again may come back in another spelling. The text that it spells is the same.

## Main definitions

* `Json.respelled`: a value as it comes back when it is written and read again

## Main results

* `Json.ind`: induction on a value, with a hypothesis for each item and each member
* `Json.body?_flatMap_write`: a string that was written is read back respelled
* `Json.text?_map_respelled`: respelling a string leaves its text alone
* `Json.field?_map_respelled`, `Json.field?_ofMembers`: members are found under their names
-/

namespace FileTree.Json

open Token

/-- Induction on a value: what holds of an array if it holds of its items, and of an object if it
holds of its members, holds of every value. -/
theorem ind {P : Json → Prop} (null : P .null) (bool : ∀ b, P (.bool b))
    (number : ∀ n, P (.number n)) (string : ∀ body, P (.string body))
    (array : ∀ items, (∀ v ∈ items, P v) → P (.array items))
    (object : ∀ members, (∀ m ∈ members, P m.2) → P (.object members)) : ∀ v, P v
  | .null => null
  | .bool b => bool b
  | .number n => number n
  | .string body => string body
  | .array items => array items fun v _ => ind null bool number string array object v
  | .object members => object members fun m _ => ind null bool number string array object m.2
decreasing_by
  · have := List.sizeOf_lt_of_mem ‹_ ∈ items›
    simp only [Json.array.sizeOf_spec]
    omega
  · have hm := List.sizeOf_lt_of_mem ‹_ ∈ members›
    have hv : sizeOf m.2 < sizeOf m := by
      cases m
      simp only [Prod.mk.sizeOf_spec]
      omega
    simp only [Json.object.sizeOf_spec]
    omega

/-! ## Strings -/

/-- The control bytes that have a short escape. -/
def shortEscapes : List UInt8 := [0x08, 0x09, 0x0a, 0x0c, 0x0d]

/-- A piece of a string as it comes back: a control byte without a short escape is a `\u` escape
now. -/
def Part.respelled : Part → Part
  | .byte b => if b < 0x20 ∧ b ∉ shortEscapes then .unit b.toUInt16 else .byte b
  | .unit u => .unit u

theorem hexValue?_hexDigit {d : Nat} (h : d < 16) : hexValue? (hexDigit d) = some d := by
  revert d
  decide

/-- The four digits of a UTF-16 unit are read back. -/
theorem unit?_hexDigits (u : UInt16) :
    unit? (hexDigit (u.toNat / 0x1000)) (hexDigit (u.toNat / 0x100 % 0x10))
      (hexDigit (u.toNat / 0x10 % 0x10)) (hexDigit (u.toNat % 0x10)) = some u := by
  have hlt := u.toNat_lt
  have hsum : u.toNat / 0x1000 * 0x1000 + u.toNat / 0x100 % 0x10 * 0x100 +
      u.toNat / 0x10 % 0x10 * 0x10 + u.toNat % 0x10 = u.toNat := by omega
  rw [unit?, hexValue?_hexDigit (by omega), hexValue?_hexDigit (by omega),
    hexValue?_hexDigit (by omega), hexValue?_hexDigit (by omega)]
  simp only [bind, Option.bind, pure, hsum, Option.some.injEq]
  exact UInt16.ofNat_toNat

section Body

variable (done : List Part) (rest : List UInt8)

theorem body?_unitEscape (u : UInt16) :
    body? done (unitEscape u ++ rest) = body? (.unit u :: done) rest := by
  simp only [unitEscape, List.cons_append, List.nil_append]
  rw [body?, if_neg (by decide), if_pos (by decide)]
  simp only
  rw [if_pos (by decide)]
  simp only [unit?_hexDigits]

theorem body?_escaped {e b : UInt8} (he : escaped? e = some b) (hu : e ≠ ascii 'u') :
    body? done (ascii '\\' :: e :: rest) = body? (.byte b :: done) rest := by
  rw [body?.eq_def]
  simp only [if_neg hu, he]
  rw [if_neg (by decide), if_pos trivial]

theorem body?_plain {b : UInt8} (hq : b ≠ ascii '"') (hs : b ≠ ascii '\\') (hc : ¬ b < 0x20) :
    body? done (b :: rest) = body? (.byte b :: done) rest := by
  rw [body?.eq_def]
  simp only
  rw [if_neg hq, if_neg hs, if_neg hc]

theorem body?_writeByte (b : UInt8) :
    body? done (writeByte b ++ rest) = body? ((Part.byte b).respelled :: done) rest := by
  unfold writeByte
  split_ifs with hquote hslash h₃ h₄ h₅ h₆ h₇ hcontrol
  case pos | pos | pos | pos | pos | pos | pos =>
    subst b
    exact body?_escaped done rest (by decide) (by decide)
  case pos =>
    rw [body?_unitEscape, Part.respelled, if_pos ⟨hcontrol, by simp [shortEscapes, *]⟩]
  case neg =>
    rw [Part.respelled, if_neg fun h => hcontrol h.1]
    exact body?_plain done rest hquote hslash hcontrol

theorem body?_write (p : Part) :
    body? done (p.write ++ rest) = body? (p.respelled :: done) rest := by
  cases p with
  | byte b => exact body?_writeByte done rest b
  | unit u => exact body?_unitEscape done rest u

/-- A string that was written is read back respelled, up to its closing quote. -/
theorem body?_flatMap_write (body : List Part) :
    body? done (body.flatMap Part.write ++ (mark '"' ++ rest)) =
      some (done.reverse ++ body.map Part.respelled, rest) := by
  induction body generalizing done with
  | nil =>
    simp only [List.flatMap_nil, List.nil_append, mark, List.cons_append, List.map_nil,
      List.append_nil]
    rw [body?.eq_def]
    simp only
    rw [if_pos trivial]
  | cons p body ih =>
    rw [List.flatMap_cons, List.append_assoc, body?_write, ih]
    simp

end Body

/-! ## What a string spells -/

theorem codePointBytes_of_control {b : UInt8} (h : b < 0x20) :
    codePointBytes b.toUInt16.toNat = [b] := by
  have key : ∀ n < 32, codePointBytes n = [n.toUInt8] := by decide
  have hlt : b.toNat < 32 := UInt8.lt_iff_toNat_lt.mp h
  rw [UInt8.toNat_toUInt16, key _ hlt]
  simp

theorem not_surrogate_of_byte (b : UInt8) :
    isLowSurrogate b.toUInt16 = false ∧ isHighSurrogate b.toUInt16 = false := by
  have hb : b.toUInt16.toNat < 256 := by
    rw [UInt8.toNat_toUInt16]
    exact b.toNat_lt
  simp only [isLowSurrogate, isHighSurrogate, Bool.and_eq_false_iff, decide_eq_false_iff_not,
    UInt16.le_iff_toNat_le, UInt16.reduceToNat]
  exact ⟨.inl (by omega), .inl (by omega)⟩

section Spelled

variable {done : List UInt8} {u : UInt16} {rest : List Part}

theorem spelledBytes?_of_low (h : isLowSurrogate u = true) :
    spelledBytes? done (.unit u :: rest) = none := by
  rw [spelledBytes?.eq_def]
  simp only [if_pos h]

theorem spelledBytes?_of_plain (hl : ¬ isLowSurrogate u = true) (hh : ¬ isHighSurrogate u = true) :
    spelledBytes? done (.unit u :: rest) =
      spelledBytes? ((codePointBytes u.toNat).reverse ++ done) rest := by
  rw [spelledBytes?.eq_def]
  simp only [if_neg hl, if_neg hh]

/-- The first unit of a surrogate pair spells nothing where the second does not follow. -/
theorem spelledBytes?_of_lone (hl : ¬ isLowSurrogate u = true) (hh : isHighSurrogate u = true)
    (hr : ∀ v more, rest = .unit v :: more → isLowSurrogate v = false) :
    spelledBytes? done (.unit u :: rest) = none := by
  rw [spelledBytes?.eq_def]
  simp only [if_neg hl, if_pos hh]
  split
  · simp [hr _ _ rfl]
  · rfl

/-- A byte spells itself, also when it is respelled. -/
theorem spelledBytes?_respelled_byte (b : UInt8) :
    spelledBytes? done ((Part.byte b).respelled :: rest) = spelledBytes? (b :: done) rest := by
  rw [Part.respelled]
  split_ifs with h
  · obtain ⟨hl, hh⟩ := not_surrogate_of_byte b
    rw [spelledBytes?_of_plain (by simp [hl]) (by simp [hh]), codePointBytes_of_control h.1]
    rfl
  · rw [spelledBytes?]

end Spelled

/-- What is respelled as a unit of a surrogate pair was one. -/
theorem not_low_of_respelled_eq {p : Part} {v : UInt16} (hp : p.respelled = .unit v)
    (hne : p ≠ .unit v) : isLowSurrogate v = false := by
  cases p with
  | unit u => exact absurd hp hne
  | byte b =>
    rw [Part.respelled] at hp
    split_ifs at hp
    obtain rfl := Part.unit.inj hp
    exact (not_surrogate_of_byte b).1

/-- The pieces spell the same bytes when they are respelled. -/
theorem spelledBytes?_map_respelled (done : List UInt8) (body : List Part) :
    spelledBytes? done (body.map Part.respelled) = spelledBytes? done body := by
  fun_induction spelledBytes? done body with
  | case1 => rfl
  | case2 done b rest ih => rw [List.map_cons, spelledBytes?_respelled_byte, ih]
  | case3 done u rest hl => exact spelledBytes?_of_low hl
  | case4 done u hl hh v rest hv n ih =>
    rw [← ih]
    simp [Part.respelled, spelledBytes?, hl, hh, hv, n]
  | case5 done u hl hh v rest hv =>
    refine spelledBytes?_of_lone hl hh fun w more heq => ?_
    obtain rfl : v = w := Part.unit.inj (List.cons.inj heq).1
    simpa using hv
  | case6 done u rest hl hh hr =>
    -- what follows is no unit, and is not respelled as the second of a pair
    refine spelledBytes?_of_lone hl hh fun w more heq => ?_
    cases rest with
    | nil => cases heq
    | cons p rest =>
      exact not_low_of_respelled_eq (List.cons.inj heq).1 fun hp => hr w rest (by rw [hp])
  | case7 done u rest hl hh ih =>
    rw [← ih]
    exact spelledBytes?_of_plain hl hh

/-- A string that is respelled spells the same text. -/
@[simp] theorem text?_map_respelled (body : List Part) :
    text? (body.map Part.respelled) = text? body := by
  rw [text?, text?, spelledBytes?_map_respelled]

/-! ## Values -/

mutual

/-- The value as it comes back when it is written and read again: with its strings respelled. -/
def respelled : Json → Json
  | .string body => .string (body.map Part.respelled)
  | .array items => .array (respelledItems items)
  | .object members => .object (respelledMembers members)
  | v => v

/-- The items of an array, with their strings respelled. -/
def respelledItems : List Json → List Json
  | [] => []
  | v :: rest => v.respelled :: respelledItems rest

/-- The members of an object, with their strings respelled. -/
def respelledMembers : List (List Part × Json) → List (List Part × Json)
  | [] => []
  | (key, v) :: rest => (key.map Part.respelled, v.respelled) :: respelledMembers rest

end

theorem respelledItems_eq_map (items : List Json) :
    respelledItems items = items.map respelled := by
  induction items with
  | nil => rw [respelledItems, List.map_nil]
  | cons v rest ih => rw [respelledItems, ih, List.map_cons]

/-- A member of an object, respelled. -/
def respellMember (m : List Part × Json) : List Part × Json :=
  (m.1.map Part.respelled, m.2.respelled)

theorem respelledMembers_eq_map (members : List (List Part × Json)) :
    respelledMembers members = members.map respellMember := by
  induction members with
  | nil => rw [respelledMembers, List.map_nil]
  | cons m rest ih => rw [respelledMembers, ih, List.map_cons, respellMember]

@[simp] theorem respelled_null : respelled .null = .null := by rw [respelled]; all_goals simp

@[simp] theorem respelled_bool (b : Bool) : respelled (.bool b) = .bool b := by
  rw [respelled]; all_goals simp

@[simp] theorem respelled_number (n : Number) : respelled (.number n) = .number n := by
  rw [respelled]; all_goals simp

@[simp] theorem respelled_string (body : List Part) :
    respelled (.string body) = .string (body.map Part.respelled) := by
  rw [respelled]

@[simp] theorem respelled_array (items : List Json) :
    respelled (.array items) = .array (items.map respelled) := by
  rw [respelled, respelledItems_eq_map]

@[simp] theorem respelled_object (members : List (List Part × Json)) :
    respelled (.object members) = .object (members.map respellMember) := by
  rw [respelled, respelledMembers_eq_map]

/-! ## Reading a respelled value -/

@[simp] theorem string?_respelled (v : Json) : v.respelled.string? = v.string? := by
  cases v <;> simp [string?]

@[simp] theorem bool?_respelled (v : Json) : v.respelled.bool? = v.bool? := by
  cases v <;> simp [bool?]

@[simp] theorem nat?_respelled (bound : Nat) (v : Json) :
    v.respelled.nat? bound = v.nat? bound := by
  cases v <;> simp [nat?]

@[simp] theorem int?_respelled (low high : Int) (v : Json) :
    v.respelled.int? low high = v.int? low high := by
  cases v <;> simp [int?]

@[simp] theorem items?_respelled (v : Json) :
    v.respelled.items? = v.items?.map fun items => items.map respelled := by
  cases v <;> simp [items?]

theorem valuesOf_map_respelled (name : String) (members : List (List Part × Json)) :
    valuesOf name (members.map respellMember) = (valuesOf name members).map respelled := by
  rw [valuesOf, valuesOf, List.filterMap_map, List.map_filterMap]
  congr 1
  funext m
  simp only [Function.comp_apply, respellMember, text?_map_respelled]
  split_ifs <;> rfl

theorem field?_map_respelled (name : String) (members : List (List Part × Json)) :
    field? name (members.map respellMember) = (field? name members).map respelled := by
  rw [field?, field?, valuesOf_map_respelled]
  match valuesOf name members with
  | [] => rfl
  | [v] => rfl
  | v :: w :: rest => rfl

/-! ## Plainly spelled members -/

/-- Of members with distinct names at most one has a given name. -/
theorem valuesOf_ofMembers {members : List (String × Json)} (h : (members.map Prod.fst).Nodup)
    (name : String) :
    valuesOf name (members.map fun m => (ofText m.1, m.2)) = (members.lookup name).toList := by
  induction members with
  | nil => rfl
  | cons m rest ih =>
    obtain ⟨key, v⟩ := m
    obtain ⟨hkey, hrest⟩ := List.nodup_cons.mp h
    have ih := ih hrest
    rw [valuesOf] at ih ⊢
    rw [List.map_cons, List.filterMap_cons, text?_ofText, List.lookup_cons]
    by_cases hname : name = key
    · subst hname
      have hnone : rest.lookup name = none := by
        rw [List.lookup_eq_none_iff]
        intro m hm
        rw [bne_iff_ne]
        rintro rfl
        exact hkey (List.mem_map.mpr ⟨m, hm, rfl⟩)
      simp [ih, hnone]
    · have hne : ¬ key = name := fun heq => hname heq.symm
      simp [ih, beq_false_of_ne hname, hne]

theorem field?_ofMembers {members : List (String × Json)} (h : (members.map Prod.fst).Nodup)
    (name : String) :
    field? name (members.map fun m => (ofText m.1, m.2)) = members.lookup name := by
  rw [field?, valuesOf_ofMembers h]
  cases members.lookup name <;> rfl

end FileTree.Json
