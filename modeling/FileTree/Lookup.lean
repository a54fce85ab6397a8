/-!
# Looking up keys

A row of keys with their values answers a key with the first value that stands under it.

## Main results

* `lookup_cons_eq_ite`: the first key is the one looked for, or the search goes on behind it
-/

namespace FileTree

variable {α β : Type} [BEq α] [LawfulBEq α] [DecidableEq α]

theorem lookup_cons_eq_ite (p : α × β) (rest : List (α × β)) (key : α) :
    (p :: rest).lookup key = if key = p.1 then some p.2 else rest.lookup key := by
  by_cases h : key = p.1
  · rw [List.lookup_cons, beq_iff_eq.mpr h, if_pos h]
  · rw [List.lookup_cons, beq_eq_false_iff_ne.mpr h, if_neg h]

end FileTree
