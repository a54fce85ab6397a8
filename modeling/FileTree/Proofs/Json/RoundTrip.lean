import FileTree.Proofs.Json.Tokens

/-!
# Reading what was written

The text of a value falls into the tokens of the value: no token runs into the next one, since what
follows a number is a bracket, a comma or a blank. So a value that is written in any layout of
blanks is read back, with its strings respelled.

## Main definitions

* `Json.Whole`: no number in the value has a fraction or an exponent
* `Json.Layout.Blank`: the layout puts nothing but blanks between the tokens
* `Json.Ended`: what follows does not go on with a number

## Main results

* `Json.next?_writeNumber`: a whole number that was written is read back
* `Json.scansAs`: the text of a value falls into its tokens
* `Json.parse?_write`: a value that was written is read back respelled
-/

namespace FileTree.Json

open Token
open Text.Decimal (digits)

/-- No number in the value has a fraction or an exponent. -/
inductive Whole : Json → Prop
  | null : Whole .null
  | bool (b : Bool) : Whole (.bool b)
  | number (negative : Bool) (magnitude : Nat) : Whole (.number (.whole negative magnitude))
  | string (body : List Part) : Whole (.string body)
  | array {items : List Json} : (∀ v ∈ items, Whole v) → Whole (.array items)
  | object {members : List (List Part × Json)} : (∀ m ∈ members, Whole m.2) →
      Whole (.object members)

theorem whole_ofString (s : String) : (ofString s).Whole := .string _

theorem whole_ofNat (n : Nat) : (ofNat n).Whole := .number _ _

theorem whole_ofInt : ∀ n : Int, (ofInt n).Whole
  | .ofNat _ => .number _ _
  | .negSucc _ => .number _ _

theorem whole_ofMembers {members : List (String × Json)} (h : ∀ m ∈ members, m.2.Whole) :
    (ofMembers members).Whole := by
  refine .object fun m hm => ?_
  obtain ⟨m', hm', rfl⟩ := List.mem_map.mp hm
  exact h m' hm'

/-- The layout puts nothing but blanks between the tokens. -/
structure Layout.Blank (l : Layout) : Prop where
  lineBreak : ∀ depth, ∀ b ∈ l.lineBreak depth, isSpace b = true
  afterColon : ∀ b ∈ l.afterColon, isSpace b = true

theorem Layout.blank_compact : Layout.compact.Blank where
  lineBreak _ b hb := by simp [compact] at hb
  afterColon b hb := by simp [compact] at hb

theorem Layout.blank_indented : Layout.indented.Blank where
  lineBreak depth b hb := by
    rcases List.mem_cons.mp hb with rfl | hb
    · decide
    · rw [List.eq_of_mem_replicate hb]
      decide
  afterColon b hb := by
    rw [List.mem_singleton.mp hb]
    decide

/-- The bytes do not go on with a number that stands before them. -/
def Ended (bytes : List UInt8) : Prop :=
  ∀ b ∈ bytes.head?, isDigit b = false ∧ b ≠ ascii '.' ∧ b ≠ ascii 'e' ∧ b ≠ ascii 'E'

/-! ## Numbers -/

theorem isDigit_ascii_digit {d : Nat} (h : d < 10) :
    isDigit (ascii (Text.Decimal.digit d)) = true := by
  revert d
  decide

theorem toNat_ascii_digit {d : Nat} (h : d < 10) :
    (ascii (Text.Decimal.digit d)).toNat - 0x30 = d := by
  revert d
  decide

theorem isDigit_of_mem_digits (n : Nat) : ∀ b ∈ (digits n).map ascii, isDigit b = true := by
  rw [digits]
  split
  · rename_i h
    simpa using isDigit_ascii_digit h
  · have ih := isDigit_of_mem_digits (n / 10)
    rw [List.map_append, List.forall_mem_append]
    exact ⟨ih, by simpa using isDigit_ascii_digit (Nat.mod_lt n (by decide))⟩
termination_by n
decreasing_by omega

theorem foldl_withDigit_digits (n : Nat) : ((digits n).map ascii).foldl withDigit 0 = n := by
  rw [digits]
  split
  · rename_i h
    simp [withDigit, toNat_ascii_digit h]
  · have ih := foldl_withDigit_digits (n / 10)
    have hd := toNat_ascii_digit (Nat.mod_lt n (by decide : 0 < 10))
    rw [List.map_append, List.foldl_append, ih, List.map_singleton, List.foldl_cons,
      List.foldl_nil, withDigit, hd]
    omega
termination_by n
decreasing_by omega

/-- The digits of a positive number do not start with a zero. -/
theorem exists_digits_eq_cons {n : Nat} (h : 0 < n) :
    ∃ d ds, (digits n).map ascii = ascii (Text.Decimal.digit d) :: ds ∧ 0 < d ∧ d < 10 := by
  rw [digits]
  split
  · exact ⟨n, [], rfl, h, ‹n < 10›⟩
  · obtain ⟨d, ds, heq, hd⟩ := exists_digits_eq_cons (n := n / 10) (by omega)
    exact ⟨d, ds ++ [ascii (Text.Decimal.digit (n % 10))], by simp [heq], hd⟩
termination_by n
decreasing_by omega

theorem isWholePart_digits (n : Nat) : isWholePart ((digits n).map ascii) = true := by
  obtain rfl | hpos := Nat.eq_zero_or_pos n
  · rw [digits, if_pos (by decide)]
    rfl
  · obtain ⟨d, ds, heq, hd, hlt⟩ := exists_digits_eq_cons hpos
    have hne : ∀ d < 10, 0 < d → ascii (Text.Decimal.digit d) ≠ ascii '0' := by decide
    rw [heq]
    cases ds with
    | nil => rfl
    | cons b ds => exact bne_iff_ne.mpr (hne d hlt hd)

section Ended

variable {rest : List UInt8} (h : Ended rest)

include h

theorem fraction?_of_ended : fraction? rest = some ([], rest) := by
  cases rest with
  | nil => rfl
  | cons b rest => rw [fraction?, if_neg (h b rfl).2.1]

theorem exponent?_of_ended : exponent? rest = some ([], rest) := by
  cases rest with
  | nil => rfl
  | cons b rest =>
    obtain ⟨-, -, he, hE⟩ := h b rfl
    rw [exponent?, if_neg (by simp [he, hE])]

/-- Digits are taken up to what does not go on with them. -/
theorem takeWhile_isDigit_append {ds : List UInt8} (hds : ∀ b ∈ ds, isDigit b = true) :
    (ds ++ rest).takeWhile isDigit = ds ∧ (ds ++ rest).dropWhile isDigit = rest := by
  rw [List.takeWhile_append_of_pos hds, List.dropWhile_append_of_pos hds]
  cases rest with
  | nil => simp
  | cons b rest => simp [(h b rfl).1]

theorem unsigned?_digits (negative : Bool) (n : Nat) :
    unsigned? negative ((digits n).map ascii ++ rest) = some (.whole negative n, rest) := by
  obtain ⟨htake, hdrop⟩ := takeWhile_isDigit_append h (isDigit_of_mem_digits n)
  simp only [unsigned?, htake, hdrop, isWholePart_digits, if_true, fraction?_of_ended h,
    exponent?_of_ended h]
  simp [numberOfParts, wholeValue_eq, foldl_withDigit_digits]

/-- A whole number that was written is read back. -/
theorem number?_write (negative : Bool) (n : Nat) :
    number? ((Number.whole negative n).write ++ rest) = some (.whole negative n, rest) := by
  cases negative with
  | true =>
    rw [Number.write, if_pos rfl, mark, List.cons_append, List.nil_append, List.cons_append,
      number?, if_pos rfl]
    exact unsigned?_digits h true n
  | false =>
    have hdigits := unsigned?_digits h false n
    rw [Number.write, if_neg (by simp), List.nil_append]
    cases hds : (digits n).map ascii with
    | nil => exact absurd (List.map_eq_nil_iff.mp hds) (Text.Decimal.digits_ne_nil n)
    | cons b ds =>
      have hb := isDigit_of_mem_digits n b (by simp [hds])
      have hne : b ≠ ascii '-' := by
        rintro rfl
        exact absurd hb (by decide)
      rw [hds] at hdigits
      rw [List.cons_append, number?, if_neg hne]
      exact hdigits

end Ended

/-! ## Scanning -/

/-- What is blank is passed over. -/
theorem scanFrom?_blanks (done : List Token) {blanks : List UInt8}
    (h : ∀ b ∈ blanks, isSpace b = true) (rest : List UInt8) :
    scanFrom? done (blanks ++ rest) = scanFrom? done rest := by
  induction blanks with
  | nil => rfl
  | cons b blanks ih =>
    obtain ⟨hb, hblanks⟩ := List.forall_mem_cons.mp h
    rw [List.cons_append, scanFrom?, if_pos hb, ih hblanks]

/-- No token starts with a blank. -/
theorem next?_of_space {b : UInt8} (h : isSpace b = true) (rest : List UInt8) :
    next? (b :: rest) = none := by
  simp only [isSpace, Bool.or_eq_true, beq_iff_eq] at h
  rcases h with ((rfl | rfl) | rfl) | rfl <;> rfl

theorem scanFrom?_of_next? (done : List Token) {bytes rest : List UInt8} {t : Token}
    (h : next? bytes = some (t, rest)) : scanFrom? done bytes = scanFrom? (t :: done) rest := by
  cases bytes with
  | nil => cases h
  | cons b tail =>
    have hb : ¬ isSpace b = true := by
      intro hb
      rw [next?_of_space hb] at h
      cases h
    rw [scanFrom?, if_neg hb]
    split
    · rename_i hnone
      cases hnone.symm.trans h
    · rename_i t' rest' hsome
      cases hsome.symm.trans h
      rfl

/-- A mark is a token of its own, whatever follows it. -/
theorem scanFrom?_mark (c : Char) {t : Token} (h : mark? (ascii c) = some t) (done : List Token)
    (rest : List UInt8) : scanFrom? done (mark c ++ rest) = scanFrom? (t :: done) rest := by
  apply scanFrom?_of_next?
  rw [mark, List.singleton_append, next?, h]

theorem next?_writeString (body : List Part) (rest : List UInt8) :
    next? (writeString body ++ rest) = some (.string (body.map Part.respelled), rest) := by
  rw [writeString, List.append_assoc, List.append_assoc]
  change (body? [] (body.flatMap Part.write ++ (mark '"' ++ rest))).map _ = _
  rw [body?_flatMap_write]
  rfl

/-- What starts with a digit or a sign is read as a number. -/
theorem next?_eq_number? {b : UInt8} (hb : isDigit b = true ∨ b = ascii '-') (rest : List UInt8) :
    next? (b :: rest) = (number? (b :: rest)).map fun p => (.number p.1, p.2) := by
  have hne : ∀ c, isDigit (ascii c) = false ∧ ascii c ≠ ascii '-' → b ≠ ascii c := by
    rintro c ⟨hdigit, hsign⟩ rfl
    rcases hb with hb | hb
    · cases hb.symm.trans hdigit
    · exact hsign hb
  have hmark : mark? b = none := by
    rw [mark?, if_neg (hne _ (by decide)), if_neg (hne _ (by decide)), if_neg (hne _ (by decide)),
      if_neg (hne _ (by decide)), if_neg (hne _ (by decide)), if_neg (hne _ (by decide))]
  simp only [next?, hmark]
  rw [long?, if_neg (hne _ (by decide)), if_neg (hne _ (by decide)), if_neg (hne _ (by decide)),
    if_neg (hne _ (by decide))]

theorem next?_writeNumber {rest : List UInt8} (h : Ended rest) (negative : Bool) (n : Nat) :
    next? ((Number.whole negative n).write ++ rest) =
      some (.number (.whole negative n), rest) := by
  have hread := number?_write h negative n
  obtain ⟨b, bs, heq, hb⟩ : ∃ b bs, (Number.whole negative n).write = b :: bs ∧
      (isDigit b = true ∨ b = ascii '-') := by
    cases negative with
    | true => exact ⟨_, _, rfl, .inr rfl⟩
    | false =>
      rw [Number.write, if_neg (by simp), List.nil_append]
      cases hds : (digits n).map ascii with
      | nil => exact absurd (List.map_eq_nil_iff.mp hds) (Text.Decimal.digits_ne_nil n)
      | cons b ds => exact ⟨b, ds, rfl, .inl (isDigit_of_mem_digits n b (by simp [hds]))⟩
  rw [heq, List.cons_append] at hread ⊢
  rw [next?_eq_number? hb, hread]
  rfl

/-! ## The text of a value -/

section Write

variable {l : Layout}

/-- The text of the value falls into its tokens, whatever follows that does not go on with a
number. -/
def ScansAs (l : Layout) (v : Json) : Prop :=
  ∀ depth done rest, Ended rest →
    scanFrom? done (writeAt l depth v ++ rest) =
      scanFrom? (v.respelled.tokens.reverse ++ done) rest

theorem ended_cons {b : UInt8} {rest : List UInt8}
    (hb : isDigit b = false ∧ b ≠ ascii '.' ∧ b ≠ ascii 'e' ∧ b ≠ ascii 'E') :
    Ended (b :: rest) := by
  intro c hc
  obtain rfl := Option.some.inj hc
  exact hb

/-- What follows blanks does not go on with a number, if they are not missing. -/
theorem ended_blanks {blanks rest : List UInt8} (h : ∀ b ∈ blanks, isSpace b = true)
    (hr : Ended rest) : Ended (blanks ++ rest) := by
  cases blanks with
  | nil => exact hr
  | cons b blanks =>
    have hb := h b (by simp)
    simp only [isSpace, Bool.or_eq_true, beq_iff_eq] at hb
    rcases hb with ((rfl | rfl) | rfl) | rfl <;> exact ended_cons (by decide)

theorem ended_writeItems (depth : Nat) (items : List Json) {rest : List UInt8} (hr : Ended rest) :
    Ended (writeItems l depth items ++ rest) := by
  cases items with
  | nil => rwa [writeItems, List.nil_append]
  | cons v items =>
    rw [writeItems]
    exact ended_cons (by decide)

theorem ended_writeMembers (depth : Nat) (members : List (List Part × Json)) {rest : List UInt8}
    (hr : Ended rest) : Ended (writeMembers l depth members ++ rest) := by
  cases members with
  | nil => rwa [writeMembers, List.nil_append]
  | cons m members =>
    rw [writeMembers]
    exact ended_cons (by decide)

variable (hl : l.Blank)

include hl

theorem scanFrom?_writeItems {items : List Json} (h : ∀ v ∈ items, ScansAs l v) (depth : Nat)
    (done : List Token) {rest : List UInt8} (hr : Ended rest) :
    scanFrom? done (writeItems l depth items ++ rest) =
      scanFrom? ((itemTokens (items.map respelled)).reverse ++ done) rest := by
  induction items generalizing done with
  | nil => simp [writeItems, itemTokens]
  | cons v items ih =>
    obtain ⟨hv, hitems⟩ := List.forall_mem_cons.mp h
    rw [writeItems, List.append_assoc, List.append_assoc, List.append_assoc,
      scanFrom?_mark ',' rfl,
      scanFrom?_blanks _ (hl.lineBreak depth), hv _ _ _ (ended_writeItems depth items hr),
      ih hitems]
    simp [itemTokens]

theorem scanFrom?_writeMember {v : Json} (hv : ScansAs l v) (key : List Part) (depth : Nat)
    (done : List Token) {rest : List UInt8} (hr : Ended rest) :
    scanFrom? done
        (writeString key ++ (mark ':' ++ (l.afterColon ++ (writeAt l depth v ++ rest)))) =
      scanFrom? (v.respelled.tokens.reverse ++
        .colon :: .string (key.map Part.respelled) :: done) rest := by
  rw [scanFrom?_of_next? done (next?_writeString key _),
    scanFrom?_mark ':' rfl,
    scanFrom?_blanks _ hl.afterColon, hv _ _ _ hr]

theorem scanFrom?_writeMembers {members : List (List Part × Json)}
    (h : ∀ m ∈ members, ScansAs l m.2) (depth : Nat) (done : List Token) {rest : List UInt8}
    (hr : Ended rest) :
    scanFrom? done (writeMembers l depth members ++ rest) =
      scanFrom? ((memberTokens (members.map respellMember)).reverse ++ done) rest := by
  induction members generalizing done with
  | nil => simp [writeMembers, memberTokens]
  | cons m members ih =>
    obtain ⟨hm, hmembers⟩ := List.forall_mem_cons.mp h
    simp only [writeMembers, List.append_assoc]
    rw [scanFrom?_mark ',' rfl,
      scanFrom?_blanks _ (hl.lineBreak depth),
      scanFrom?_writeMember hl hm _ _ _ (ended_writeMembers depth members hr), ih hmembers]
    simp [memberTokens, respellMember]

/-- **The text of a value falls into its tokens.** -/
theorem scansAs {v : Json} (h : v.Whole) : ScansAs l v := by
  induction h with
  | null =>
    intro depth done rest _
    have hword : next? (word ['n', 'u', 'l', 'l'] ++ rest) = some (.null, rest) := rfl
    rw [writeAt, scanFrom?_of_next? done hword, respelled_null, tokens]
    rfl
  | bool b =>
    intro depth done rest _
    cases b with
    | true =>
      have hword : next? (word ['t', 'r', 'u', 'e'] ++ rest) = some (.bool true, rest) := rfl
      rw [writeAt, scanFrom?_of_next? done hword, respelled_bool, tokens]
      rfl
    | false =>
      have hword : next? (word ['f', 'a', 'l', 's', 'e'] ++ rest) = some (.bool false, rest) := rfl
      rw [writeAt, scanFrom?_of_next? done hword, respelled_bool, tokens]
      rfl
  | number negative n =>
    intro depth done rest hr
    rw [writeAt, scanFrom?_of_next? done (next?_writeNumber hr negative n), respelled_number,
      tokens]
    rfl
  | string body =>
    intro depth done rest _
    rw [writeAt, scanFrom?_of_next? done (next?_writeString body rest), respelled_string, tokens]
    rfl
  | @array items _ ih =>
    intro depth done rest hr
    cases items with
    | nil =>
      rw [writeAt, List.append_assoc, scanFrom?_mark '[' rfl, scanFrom?_mark ']' rfl,
        respelled_array, List.map_nil, tokens]
      rfl
    | cons v items =>
      obtain ⟨hv, hitems⟩ := List.forall_mem_cons.mp ih
      have hclose : Ended (l.lineBreak depth ++ (mark ']' ++ rest)) :=
        ended_blanks (hl.lineBreak depth) (ended_cons (by decide))
      simp only [writeAt, List.append_assoc]
      rw [scanFrom?_mark '[' rfl,
        scanFrom?_blanks _ (hl.lineBreak _), hv _ _ _ (ended_writeItems _ items hclose),
        scanFrom?_writeItems hl hitems _ _ hclose, scanFrom?_blanks _ (hl.lineBreak _),
        scanFrom?_mark ']' rfl, respelled_array,
        List.map_cons, tokens]
      simp
  | @object members _ ih =>
    intro depth done rest hr
    cases members with
    | nil =>
      rw [writeAt, List.append_assoc, scanFrom?_mark '\x7b' rfl, scanFrom?_mark '\x7d' rfl,
        respelled_object, List.map_nil, tokens]
      rfl
    | cons m members =>
      obtain ⟨hm, hmembers⟩ := List.forall_mem_cons.mp ih
      have hclose : Ended (l.lineBreak depth ++ (mark '\x7d' ++ rest)) :=
        ended_blanks (hl.lineBreak depth) (ended_cons (by decide))
      simp only [writeAt, List.append_assoc]
      rw [scanFrom?_mark '\x7b' rfl,
        scanFrom?_blanks _ (hl.lineBreak _),
        scanFrom?_writeMember hl hm _ _ _ (ended_writeMembers _ members hclose),
        scanFrom?_writeMembers hl hmembers _ _ hclose, scanFrom?_blanks _ (hl.lineBreak _),
        scanFrom?_mark '\x7d' rfl, respelled_object,
        List.map_cons, respellMember, tokens]
      simp

/-- **A value that was written is read back**, with its strings respelled. -/
theorem parse?_write {v : Json} (h : v.Whole) : parse? (write l v) = some v.respelled := by
  have hscan := scansAs hl h 0 [] [] (by simp [Ended])
  rw [List.append_nil, List.append_nil, scanFrom?, List.reverse_reverse] at hscan
  rw [parse?, scan?, write, hscan]
  exact ofTokens?_tokens _

end Write

end FileTree.Json
