import FileTree.Lookup

/-!
# Environment variables

## Main definitions

* `Environment`: variables with their values, by ascending name
* `Environment.get?`, `Environment.set`: looking up and setting a variable

## Main results

* `Environment.get?_set`: setting one variable leaves the others alone
-/

namespace FileTree

/-- Variables with their values, by ascending name. -/
structure Environment where
  bindings : List (String × String) := []
  deriving DecidableEq

namespace Environment

/-- A variable put into an ascending list, in place of one of the same name. -/
def insert (key value : String) : List (String × String) → List (String × String)
  | [] => [(key, value)]
  | p :: rest =>
    if key = p.1 then (key, value) :: rest
    else if key < p.1 then (key, value) :: p :: rest
    else p :: insert key value rest

/-- The value of a variable, if it is set. -/
def get? (env : Environment) (key : String) : Option String :=
  env.bindings.lookup key

/-- The environment with a variable set. -/
def set (env : Environment) (key value : String) : Environment :=
  ⟨insert key value env.bindings⟩

theorem lookup_insert (key value other : String) (vars : List (String × String)) :
    (insert key value vars).lookup other =
      if other = key then some value else vars.lookup other := by
  induction vars with
  | nil => exact lookup_cons_eq_ite _ _ _
  | cons p rest ih =>
    simp only [insert]
    split
    · rename_i hk
      subst hk
      simp only [lookup_cons_eq_ite]
      split <;> rfl
    · split
      · simp only [lookup_cons_eq_ite]
      · simp only [lookup_cons_eq_ite, ih]
        split <;> split <;> simp_all

/-- Setting one variable leaves the others alone. -/
theorem get?_set (env : Environment) (key value other : String) :
    (env.set key value).get? other = if other = key then some value else env.get? other :=
  lookup_insert key value other env.bindings

end Environment

end FileTree
