/-!
# Decimal numbers

Numbers written with ASCII digits.  A number is read whole or not at all: at least one digit,
nothing but digits after an optional sign, and a value within the bounds asked for.

## Main definitions

* `digits n`: the decimal digits of a number, the most significant first
* `ofDigits? cs`: the number that the digits spell, if they are digits and there is one
* `readNatural? bound s`: a number below `bound`, with an optional plus sign
* `readInteger? low high s`: a number in a range, with an optional sign

## Main results

* `ofDigits?_digits`: reading digits undoes writing them
-/

namespace FileTree.Text.Decimal

/-- The digit with the given value below ten. -/
def digit (d : Nat) : Char :=
  Char.ofNat (d + 48)

/-- The value of a digit. -/
def digitValue? (c : Char) : Option Nat :=
  if 48 ≤ c.toNat ∧ c.toNat ≤ 57 then some (c.toNat - 48) else none

/-- The decimal digits of a number, the most significant first. -/
def digits (n : Nat) : List Char :=
  if n < 10 then [digit n] else digits (n / 10) ++ [digit (n % 10)]
termination_by n
decreasing_by omega

/-- One more digit read after the number `n`. -/
def accumulate (n : Option Nat) (c : Char) : Option Nat :=
  n.bind fun n => (digitValue? c).map fun d => 10 * n + d

/-- The number that a non-empty row of digits spells. -/
def ofDigits? : List Char → Option Nat
  | [] => none
  | cs => cs.foldl accumulate (some 0)

/-- A number below `bound`, written with an optional plus sign. -/
def readNatural? (bound : Nat) (s : String) : Option Nat :=
  let cs := match s.toList with
    | '+' :: rest => rest
    | cs => cs
  (ofDigits? cs).filter (· < bound)

/-- A number from `low` to `high`, written with an optional sign. -/
def readInteger? (low high : Int) (s : String) : Option Int :=
  let value := match s.toList with
    | '+' :: rest => (ofDigits? rest).map Int.ofNat
    | '-' :: rest => (ofDigits? rest).map fun n => -Int.ofNat n
    | cs => (ofDigits? cs).map Int.ofNat
  value.filter fun n => low ≤ n && n ≤ high

theorem digitValue?_digit {d : Nat} (h : d < 10) : digitValue? (digit d) = some d := by
  match d, h with
  | 0, _ | 1, _ | 2, _ | 3, _ | 4, _ | 5, _ | 6, _ | 7, _ | 8, _ | 9, _ => rfl

theorem digits_ne_nil (n : Nat) : digits n ≠ [] := by
  rw [digits]; split <;> simp

theorem foldl_accumulate_digits (n : Nat) :
    (digits n).foldl accumulate (some 0) = some n := by
  rw [digits]
  split
  · rename_i h
    simp [accumulate, digitValue?_digit h]
  · have ih := foldl_accumulate_digits (n / 10)
    rw [List.foldl_append, ih]
    have h : n % 10 < 10 := Nat.mod_lt n (by decide)
    simp only [List.foldl_cons, List.foldl_nil, accumulate, Option.bind_some,
      digitValue?_digit h, Option.map_some]
    congr 1
    omega
termination_by n
decreasing_by omega

/-- Reading digits undoes writing them. -/
@[simp] theorem ofDigits?_digits (n : Nat) : ofDigits? (digits n) = some n := by
  have h := foldl_accumulate_digits n
  have hne := digits_ne_nil n
  match hd : digits n with
  | [] => exact absurd hd hne
  | c :: cs => rw [hd] at h; exact h

end FileTree.Text.Decimal
