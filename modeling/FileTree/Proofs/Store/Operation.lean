import FileTree.Store.Delete
import Mathlib.Data.List.Induction
import Mathlib.Logic.Relation

/-!
# Operations on a store, and runs of them

An operation is one of the six ways to change a store. A run performs operations one after the
other, whether each succeeds or is refused. What happens to the log is the one thing that others
have a hand in, so a store that is reachable may have any log.

## Main definitions

* `Operation`, `Store.perform`: a change asked of a store, and what comes of it
* `Store.run`: operations performed in order
* `Log.Quiet`: no error stands in the log
* `Store.Noted`: nothing changed but for at most one more record in the log
* `Store.Reaches`, `Store.Reachable`: what comes of a store, and of a fresh one
-/

namespace FileTree

/-- No error stands in the log. -/
def Log.Quiet (log : Log) : Prop :=
  ∀ r ∈ log.toList, r.level ≠ .error

theorem Log.Quiet.record {log : Log} {r : Record} (h : log.Quiet) (hr : r.level ≠ .error) :
    (log.record r).Quiet := by
  cases ha : log.accepts r.level with
  | false => rwa [record_of_not_accepts ha]
  | true =>
    intro x hx
    rw [toList_record_of_accepts ha] at hx
    rcases List.mem_append.mp (List.mem_of_mem_drop hx) with hx | hx
    · exact h x hx
    · obtain rfl := List.mem_singleton.mp hx
      exact hr

/-- A change asked of a store. -/
inductive Operation where
  | createFile (path : String)
  | createDirectory (path : String)
  | write (id : EntryId) (data : List UInt8)
  | delete (id : EntryId)
  | rename (id : EntryId) (name : String)
  | changeDirectory (id : EntryId)
  deriving DecidableEq

/-- What a successful operation answers. -/
inductive Answer where
  | entry (id : EntryId)
  | done
  | removed (count : Nat)
  deriving DecidableEq

namespace Store

/-- The answer to an operation, and the store after it. -/
def perform (s : Store) : Operation → Except StoreError Answer × Store
  | .createFile path => ((s.createFile path).1.map .entry, (s.createFile path).2)
  | .createDirectory path => ((s.createDirectory path).1.map .entry, (s.createDirectory path).2)
  | .write id data => ((s.write id data).1.map fun _ => .done, (s.write id data).2)
  | .delete id => ((s.delete id).1.map .removed, (s.delete id).2)
  | .rename id name => ((s.rename id name).1.map fun _ => .done, (s.rename id name).2)
  | .changeDirectory id => ((s.changeDirectory id).1.map fun _ => .done, (s.changeDirectory id).2)

/-- The store after operations performed in order. -/
def run (s : Store) (ops : List Operation) : Store :=
  ops.foldl (fun s op => (s.perform op).2) s

@[simp] theorem run_nil (s : Store) : s.run [] = s := rfl

@[simp] theorem run_cons (s : Store) (op : Operation) (ops : List Operation) :
    s.run (op :: ops) = (s.perform op).2.run ops := rfl

theorem run_append (s : Store) (ops more : List Operation) :
    s.run (ops ++ more) = (s.run ops).run more := List.foldl_append

/-- The stores differ at most by one more record in the log, which is no error. -/
def Noted (s s' : Store) : Prop :=
  s' = s ∨ ∃ r, r.level ≠ .error ∧ s' = s.record r

theorem Noted.refl (s : Store) : s.Noted s := .inl rfl

theorem noted_note (s : Store) {level : Level} (hl : level ≠ .error) (message : String)
    (about : Option EntryId) : s.Noted (s.note level message about) :=
  .inr ⟨_, hl, rfl⟩

theorem Noted.exists_log {s s' : Store} (h : s.Noted s') :
    ∃ log, s' = { s with log := log } ∧ (s.log.Quiet → log.Quiet) := by
  rcases h with rfl | ⟨r, hr, rfl⟩
  · exact ⟨s'.log, rfl, fun hq => hq⟩
  · exact ⟨_, rfl, fun hq => hq.record hr⟩

theorem Noted.quiet {s s' : Store} (h : s.Noted s') (hq : s.log.Quiet) : s'.log.Quiet := by
  obtain ⟨log, rfl, hlog⟩ := h.exists_log
  exact hlog hq

/-- What comes of a store by operations, whatever happens to its log meanwhile. -/
inductive Reaches (s : Store) : Store → Prop
  | refl : Reaches s s
  | perform {s' : Store} (op : Operation) : Reaches s s' → Reaches s (s'.perform op).2
  | relog {s' : Store} (log : Log) : Reaches s s' → Reaches s { s' with log := log }

theorem Reaches.trans {s s' s'' : Store} (h : s.Reaches s') (h' : s'.Reaches s'') :
    s.Reaches s'' := by
  induction h' with
  | refl => exact h
  | perform op _ ih => exact ih.perform op
  | relog log _ ih => exact ih.relog log

theorem reaches_run (s : Store) (ops : List Operation) : s.Reaches (s.run ops) := by
  induction ops using List.reverseRecOn with
  | nil => exact .refl
  | append_singleton ops op ih =>
    rw [run_append]
    exact ih.perform op

/-- The store comes of a fresh one with the given configuration, which is sound, and heap. -/
def Reachable (config : Config) (heap : Heap) (s : Store) : Prop :=
  ∃ id s₀, fresh id config heap = .ok s₀ ∧ s₀.Reaches s

theorem fresh_eq_ok_iff {id : StoreId} {config : Config} {heap : Heap} {s : Store} :
    fresh id config heap = .ok s ↔ config.check = .ok () ∧ s = init id config heap := by
  unfold fresh
  cases config.check <;> simp [eq_comm]

theorem reachable_run {config : Config} (h : config.check = .ok ()) (id : StoreId) (heap : Heap)
    (ops : List Operation) : Reachable config heap ((init id config heap).run ops) :=
  ⟨id, _, fresh_eq_ok_iff.mpr ⟨h, rfl⟩, reaches_run _ ops⟩

end Store

end FileTree
