import FileTree.Proofs.Store.Operation

/-!
# Work on a store

The parts of the program that stand on a store have two ways to change it: they perform operations
on it, and they put records of their own into its log. Whatever they do comes down to that.

## Main definitions

* `Store.Works`: what comes of a store by such work

## Main results

* `Store.Works.reaches`: it comes of the store by operations
-/

namespace FileTree.Store

/-- What comes of a store by operations, and by records that others put into its log. -/
inductive Works (s : Store) : Store → Prop
  | refl : Works s s
  | perform {s' : Store} (op : Operation) : Works s s' → Works s (s'.perform op).2
  | remark {s' : Store} {r : Record} : r.component ≠ component → Works s s' → Works s (s'.record r)

variable {s s' s'' : Store}

theorem Works.trans (h : s.Works s') (h' : s'.Works s'') : s.Works s'' := by
  induction h' with
  | refl => exact h
  | perform op _ ih => exact ih.perform op
  | remark hr _ ih => exact ih.remark hr

theorem Works.reaches (h : s.Works s') : s.Reaches s' := by
  induction h with
  | refl => exact .refl
  | perform op _ ih => exact ih.perform op
  | remark _ _ ih => exact ih.relog _

end FileTree.Store
