import FileTree.Proofs.Json.Spelling

/-!
# The tokens of a JSON value

A value has one row of tokens, with a comma between items and a colon after each name. The machine
that builds values from tokens comes back to the value, whatever brackets are open around it.

## Main definitions

* `Json.tokens`: the tokens of a value
* `Json.TakenAs`: the machine takes these tokens for the value

## Main results

* `Json.takenAs`: the machine takes the tokens of a value and has the value
* `Json.ofTokens?_tokens`: the tokens of a value spell the value
-/

namespace FileTree.Json

mutual

/-- The tokens of a value. -/
def tokens : Json → List Token
  | .null => [.null]
  | .bool b => [.bool b]
  | .number n => [.number n]
  | .string body => [.string body]
  | .array [] => [.openArray, .closeArray]
  | .array (v :: rest) => .openArray :: (v.tokens ++ (itemTokens rest ++ [.closeArray]))
  | .object [] => [.openObject, .closeObject]
  | .object ((key, v) :: rest) =>
    .openObject :: .string key :: .colon :: (v.tokens ++ (memberTokens rest ++ [.closeObject]))

/-- The tokens of the further items of an array. -/
def itemTokens : List Json → List Token
  | [] => []
  | v :: rest => .comma :: (v.tokens ++ itemTokens rest)

/-- The tokens of the further members of an object. -/
def memberTokens : List (List Part × Json) → List Token
  | [] => []
  | (key, v) :: rest => .comma :: .string key :: .colon :: (v.tokens ++ memberTokens rest)

end

/-- The machine takes the tokens of a value, whatever is open around it, and has the value. -/
def TakenAs (v : Json) : Prop :=
  ∀ stack more, (v.tokens ++ more).foldlM step? (.value, stack) =
    more.foldlM step? (.separator v, stack)

/-- A value does not begin with the end of an array. -/
theorem exists_tokens_eq_cons (v : Json) : ∃ t ts, v.tokens = t :: ts ∧ t ≠ .closeArray := by
  match v with
  | .null | .bool _ | .number _ | .string _ | .array [] | .array (_ :: _) | .object []
  | .object (_ :: _) =>
    rw [tokens]
    exact ⟨_, _, rfl, by simp⟩

/-- Where the machine waits for the first item of an array it takes a value as elsewhere. -/
theorem foldlM_tokens_valueOrClose (v : Json) (stack : List Frame) (more : List Token) :
    (v.tokens ++ more).foldlM step? (.valueOrClose, stack) =
      (v.tokens ++ more).foldlM step? (.value, stack) := by
  obtain ⟨t, ts, ht, hne⟩ := v.exists_tokens_eq_cons
  have hstep : step? (.valueOrClose, stack) t = step? (.value, stack) t := by
    cases t <;> simp_all [step?]
  rw [ht, List.cons_append, List.foldlM_cons, List.foldlM_cons, hstep]

theorem foldlM_itemTokens {items : List Json} (h : ∀ v ∈ items, v.TakenAs) (v : Json)
    (done : List Json) (stack : List Frame) (more : List Token) :
    (itemTokens items ++ .closeArray :: more).foldlM step? (.separator v, .array done :: stack) =
      more.foldlM step? (.separator (.array (done.reverse ++ v :: items)), stack) := by
  induction items generalizing v done with
  | nil => simp [itemTokens, step?, afterValue?]
  | cons w rest ih =>
    obtain ⟨hw, hrest⟩ := List.forall_mem_cons.mp h
    rw [itemTokens, List.cons_append, List.append_assoc, List.foldlM_cons]
    change ((w.tokens ++ (itemTokens rest ++ .closeArray :: more)).foldlM step?
      (.value, .array (v :: done) :: stack)) = _
    rw [hw, ih hrest]
    simp

theorem foldlM_memberTokens {members : List (List Part × Json)} (h : ∀ m ∈ members, m.2.TakenAs)
    (key : List Part) (v : Json) (done : List (List Part × Json)) (stack : List Frame)
    (more : List Token) :
    (memberTokens members ++ .closeObject :: more).foldlM step?
        (.separator v, .object done key :: stack) =
      more.foldlM step? (.separator (.object (done.reverse ++ (key, v) :: members)), stack) := by
  induction members generalizing key v done with
  | nil => simp [memberTokens, step?, afterValue?]
  | cons m rest ih =>
    obtain ⟨hm, hrest⟩ := List.forall_mem_cons.mp h
    rw [memberTokens, List.cons_append, List.cons_append, List.cons_append, List.append_assoc,
      List.foldlM_cons]
    change ((m.2.tokens ++ (memberTokens rest ++ .closeObject :: more)).foldlM step?
      (.value, .object ((key, v) :: done) m.1 :: stack)) = _
    rw [hm, ih hrest]
    simp

/-- **The machine takes the tokens of a value and has the value.** -/
theorem takenAs (v : Json) : v.TakenAs := by
  induction v using Json.ind with
  | null => exact fun _ _ => by rw [tokens]; rfl
  | bool b => exact fun _ _ => by rw [tokens]; rfl
  | number n => exact fun _ _ => by rw [tokens]; rfl
  | string body => exact fun _ _ => by rw [tokens]; rfl
  | array items ih =>
    intro stack more
    cases items with
    | nil => rw [tokens]; rfl
    | cons v rest =>
      obtain ⟨hv, hrest⟩ := List.forall_mem_cons.mp ih
      rw [tokens, List.cons_append, List.foldlM_cons]
      change ((v.tokens ++ (itemTokens rest ++ [Token.closeArray]) ++ more).foldlM step?
        (.valueOrClose, .array [] :: stack)) = _
      rw [List.append_assoc, foldlM_tokens_valueOrClose, hv, List.append_assoc]
      exact foldlM_itemTokens hrest v [] stack more
  | object members ih =>
    intro stack more
    cases members with
    | nil => rw [tokens]; rfl
    | cons m rest =>
      obtain ⟨hv, hrest⟩ := List.forall_mem_cons.mp ih
      rw [tokens, List.cons_append, List.foldlM_cons]
      change ((m.2.tokens ++ (memberTokens rest ++ [Token.closeObject]) ++ more).foldlM step?
        (.value, .object [] m.1 :: stack)) = _
      rw [List.append_assoc, hv, List.append_assoc]
      exact foldlM_memberTokens hrest m.1 m.2 [] stack more

/-- **The tokens of a value spell the value.** -/
theorem ofTokens?_tokens (v : Json) : ofTokens? v.tokens = some v := by
  have h := v.takenAs [] []
  rw [List.append_nil] at h
  rw [ofTokens?, h]
  rfl

end FileTree.Json
