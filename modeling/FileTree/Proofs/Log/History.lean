import FileTree.Log
import Mathlib.Data.List.DropRight
import Mathlib.Data.List.Induction
import Mathlib.Tactic.SplitIfs

/-!
# What a log has seen, and what it holds

A log is handed records, has its two switches set, and is cleared, in any order. Which records it
accepted can be told from that row of actions alone: those that came while recording was on and
that were grave enough for the level set last. The log holds the last ones of them, as many as came
since it was cleared last and as it has room for, each with its number in the whole row.

## Main definitions

* `Log.Action`, `Log.run`: what is done to a log, and what comes of it
* `Log.enabledAfter`, `Log.minLevelAfter`: how the switches stand after a row of actions
* `Log.accepted`, `Log.acceptedSinceClear`: the records of a row that are accepted, and those of
  them that came after the last clearing
* `Log.asHeld`: an accepted record with its number, cut to length

## Main results

* `Log.tracks_run`: the switches and the numbering of a log follow its history
* `Log.toList_run`: a log holds the last records that it accepted
-/

namespace FileTree.Log

/-- What is done to a log. -/
inductive Action where
  | record (r : Record)
  | setEnabled (on : Bool)
  | setMinLevel (level : Level)
  | clear
  deriving DecidableEq

/-- The log after an action. -/
def act (log : Log) : Action → Log
  | .record r => log.record r
  | .setEnabled on => log.setEnabled on
  | .setMinLevel level => log.setMinLevel level
  | .clear => log.clear

/-- The log after actions in order. -/
def run (log : Log) (actions : List Action) : Log :=
  actions.foldl act log

/-! ## The history of a log -/

/-- Whether recording is on after the actions: as it was switched last, and at first it is on. -/
def enabledAfter (actions : List Action) : Bool :=
  (actions.filterMap fun
    | .setEnabled on => some on
    | _ => none).getLast?.getD true

/-- The least grave level that is accepted after the actions: the one set last, and at first every
level is. -/
def minLevelAfter (actions : List Action) : Level :=
  (actions.filterMap fun
    | .setMinLevel level => some level
    | _ => none).getLast?.getD .debug

/-- After the actions a log with the given capacity accepts records of the given level. -/
def Admits (capacity : Nat) (actions : List Action) (level : Level) : Prop :=
  enabledAfter actions = true ∧ (minLevelAfter actions).rank ≤ level.rank ∧ 0 < capacity

instance (capacity : Nat) (actions : List Action) (level : Level) :
    Decidable (Admits capacity actions level) :=
  inferInstanceAs (Decidable (_ ∧ _))

/-- The record that is accepted by the action at place `i`, if that is to record one and the log
admits it at that moment. -/
def acceptedAt? (capacity : Nat) (actions : List Action) (i : Nat) : Option Record :=
  match actions[i]? with
  | some (.record r) => if Admits capacity (actions.take i) r.level then some r else none
  | _ => none

/-- The records that are accepted, in order. -/
def accepted (capacity : Nat) (actions : List Action) : List Record :=
  (List.range actions.length).filterMap (acceptedAt? capacity actions)

/-- The records that are accepted and not followed by a clearing, in order. -/
def acceptedSinceClear (capacity : Nat) (actions : List Action) : List Record :=
  ((List.range actions.length).filter fun i => .clear ∉ actions.drop i).filterMap
    (acceptedAt? capacity actions)

/-- A record as a log holds it that accepted `i` others before. -/
def asHeld (i : Nat) (r : Record) : Record where
  level := r.level
  component := String.ofList (r.component.toList.take 31)
  message := String.ofList (r.message.toList.take 127)
  source := r.source
  fields := r.fields
  sequence := i

variable {capacity : Nat} {actions : List Action} {log : Log}

theorem run_concat (log : Log) (actions : List Action) (a : Action) :
    log.run (actions ++ [a]) = (log.run actions).act a := by
  rw [run, List.foldl_append]
  rfl

theorem numbered_eq_asHeld (r : Record) (i : Nat) : r.numbered i = asHeld i r := rfl

/-! ## Recording leaves the capacity and the switches alone -/

section Record

variable (log) (r : Record)

theorem capacity_record : (log.record r).capacity = log.capacity := by
  unfold record
  split_ifs <;> rfl

theorem enabled_record : (log.record r).enabled = log.enabled := by
  unfold record
  split_ifs <;> rfl

theorem minLevel_record : (log.record r).minLevel = log.minLevel := by
  unfold record
  split_ifs <;> rfl

variable {log r} in
theorem nextSequence_record_of_accepts (h : log.accepts r.level = true) :
    (log.record r).nextSequence = log.nextSequence + 1 := by
  simp only [record, h, if_true]
  split_ifs <;> rfl

end Record

/-! ## One more action -/

section Concat

variable (capacity actions)

@[simp] theorem enabledAfter_concat_setEnabled (on : Bool) :
    enabledAfter (actions ++ [.setEnabled on]) = on := by
  simp [enabledAfter]

@[simp] theorem minLevelAfter_concat_setMinLevel (level : Level) :
    minLevelAfter (actions ++ [.setMinLevel level]) = level := by
  simp [minLevelAfter]

/-- What was accepted before does not hang on what is done later. -/
theorem acceptedAt?_concat_of_lt (a : Action) {i : Nat} (hi : i < actions.length) :
    acceptedAt? capacity (actions ++ [a]) i = acceptedAt? capacity actions i := by
  rw [acceptedAt?, acceptedAt?, List.getElem?_append_left hi, List.take_append_of_le_length hi.le]

theorem acceptedAt?_concat_length (a : Action) :
    acceptedAt? capacity (actions ++ [a]) actions.length =
      match a with
      | .record r => if Admits capacity actions r.level then some r else none
      | _ => none := by
  rw [acceptedAt?, List.getElem?_concat_length, List.take_left]
  cases a <;> rfl

theorem accepted_concat (a : Action) :
    accepted capacity (actions ++ [a]) = accepted capacity actions ++
      (acceptedAt? capacity (actions ++ [a]) actions.length).toList := by
  unfold accepted
  rw [List.length_append, List.length_singleton, List.range_succ, List.filterMap_append]
  congr 1
  apply List.filterMap_congr
  intro i hi
  exact acceptedAt?_concat_of_lt capacity actions a (List.mem_range.mp hi)

/-- A clearing is a new start. -/
theorem acceptedSinceClear_concat_clear :
    acceptedSinceClear capacity (actions ++ [.clear]) = [] := by
  have hnone : (List.range (actions ++ [Action.clear]).length).filter
      (fun i => .clear ∉ (actions ++ [Action.clear]).drop i) = [] := by
    apply List.filter_eq_nil_iff.mpr
    intro i hi
    have hle : i ≤ actions.length := by
      have := List.mem_range.mp hi
      rw [List.length_append, List.length_singleton] at this
      omega
    simp [List.drop_append_of_le_length hle]
  rw [acceptedSinceClear, hnone, List.filterMap_nil]

/-- Whatever else is done leaves the records accepted since the last clearing, and may add one. -/
theorem acceptedSinceClear_concat {a : Action} (ha : a ≠ .clear) :
    acceptedSinceClear capacity (actions ++ [a]) = acceptedSinceClear capacity actions ++
      (acceptedAt? capacity (actions ++ [a]) actions.length).toList := by
  have hsince : ∀ i ∈ List.range actions.length,
      decide (.clear ∉ (actions ++ [a]).drop i) = decide (.clear ∉ actions.drop i) := by
    intro i hi
    rw [List.drop_append_of_le_length (List.mem_range.mp hi).le]
    simp [ha.symm]
  have hlast : [actions.length].filter (fun i => .clear ∉ (actions ++ [a]).drop i) =
      [actions.length] := by
    simp [ha.symm]
  unfold acceptedSinceClear
  rw [List.length_append, List.length_singleton, List.range_succ, List.filter_append,
    List.filterMap_append, List.filter_congr hsince, hlast]
  congr 1
  apply List.filterMap_congr
  intro i hi
  exact acceptedAt?_concat_of_lt capacity actions a (List.mem_range.mp (List.mem_of_mem_filter hi))

end Concat

/-! ## A log follows its history -/

/-- The log has the given capacity, its switches stand as the actions left them, it numbers on
from the records accepted, and it holds the newest of those. -/
structure Tracks (log : Log) (capacity : Nat) (actions : List Action) : Prop where
  capacity_eq : log.capacity = capacity
  enabled_eq : log.enabled = enabledAfter actions
  minLevel_eq : log.minLevel = minLevelAfter actions
  nextSequence_eq : log.nextSequence = (accepted capacity actions).length
  newestFirst_eq : log.newestFirst = ((accepted capacity actions).mapIdx asHeld).reverse.take
    (min capacity (acceptedSinceClear capacity actions).length)

theorem Tracks.accepts_iff (h : log.Tracks capacity actions) (level : Level) :
    log.accepts level = true ↔ Admits capacity actions level := by
  simp only [accepts, Admits, Bool.and_eq_true, decide_eq_true_eq, bne_iff_ne, and_assoc,
    h.enabled_eq, h.minLevel_eq, h.capacity_eq, Nat.pos_iff_ne_zero]

/-- The log follows its history also when an action adds no record and clears nothing. -/
theorem Tracks.of_not_accepted {log' : Log} {a : Action} (h : log.Tracks capacity actions)
    (ha : a ≠ .clear) (hnone : acceptedAt? capacity (actions ++ [a]) actions.length = none)
    (hcapacity : log'.capacity = log.capacity) (hnext : log'.nextSequence = log.nextSequence)
    (hnewest : log'.newestFirst = log.newestFirst)
    (henabled : log'.enabled = enabledAfter (actions ++ [a]))
    (hlevel : log'.minLevel = minLevelAfter (actions ++ [a])) :
    log'.Tracks capacity (actions ++ [a]) := by
  have hall := accepted_concat capacity actions a
  have hsince := acceptedSinceClear_concat capacity actions ha
  rw [hnone, Option.toList_none, List.append_nil] at hall hsince
  refine ⟨hcapacity.trans h.capacity_eq, henabled, hlevel, ?_, ?_⟩
  · rw [hall, hnext, h.nextSequence_eq]
  · rw [hall, hsince, hnewest, h.newestFirst_eq]

theorem Tracks.record (h : log.Tracks capacity actions) (r : Record) :
    (log.record r).Tracks capacity (actions ++ [.record r]) := by
  have henabled : enabledAfter (actions ++ [.record r]) = enabledAfter actions := by
    simp [enabledAfter]
  have hlevel : minLevelAfter (actions ++ [.record r]) = minLevelAfter actions := by
    simp [minLevelAfter]
  have hlast := acceptedAt?_concat_length capacity actions (.record r)
  dsimp only at hlast
  by_cases ha : Admits capacity actions r.level
  · rw [if_pos ha] at hlast
    have hacc := (h.accepts_iff r.level).mpr ha
    have hall := accepted_concat capacity actions (.record r)
    have hsince := acceptedSinceClear_concat capacity actions (a := .record r) (by simp)
    rw [hlast, Option.toList_some] at hall hsince
    refine ⟨(capacity_record log r).trans h.capacity_eq, ?_, ?_, ?_, ?_⟩
    · rw [enabled_record, h.enabled_eq, henabled]
    · rw [minLevel_record, h.minLevel_eq, hlevel]
    · rw [nextSequence_record_of_accepts hacc, h.nextSequence_eq, hall, List.length_append,
        List.length_singleton]
    · have hpos : 0 < capacity := ha.2.2
      rw [newestFirst_record_of_accepts hacc, h.newestFirst_eq, h.capacity_eq, h.nextSequence_eq,
        numbered_eq_asHeld, hall, hsince, List.mapIdx_concat, List.reverse_append,
        List.reverse_singleton, List.singleton_append, List.length_append, List.length_singleton,
        ← List.take_succ_cons, List.take_take]
      congr 1
      omega
  · rw [if_neg ha] at hlast
    have hacc : log.accepts r.level = false := by
      rw [← Bool.not_eq_true, h.accepts_iff]
      exact ha
    rw [record_of_not_accepts hacc]
    exact h.of_not_accepted (by simp) hlast rfl rfl rfl (h.enabled_eq.trans henabled.symm)
      (h.minLevel_eq.trans hlevel.symm)

theorem Tracks.clear (h : log.Tracks capacity actions) :
    log.clear.Tracks capacity (actions ++ [.clear]) := by
  have hall := accepted_concat capacity actions .clear
  rw [acceptedAt?_concat_length, Option.toList_none, List.append_nil] at hall
  refine ⟨h.capacity_eq, h.enabled_eq.trans ?_, h.minLevel_eq.trans ?_, ?_, ?_⟩
  · simp [enabledAfter]
  · simp [minLevelAfter]
  · rw [hall]
    exact h.nextSequence_eq
  · rw [acceptedSinceClear_concat_clear]
    simp [newestFirst, Log.clear]

/-- One more action keeps the log on the track of its history. -/
theorem Tracks.act (h : log.Tracks capacity actions) (a : Action) :
    (log.act a).Tracks capacity (actions ++ [a]) := by
  cases a with
  | record r => exact h.record r
  | setEnabled on =>
    have hlevel : minLevelAfter (actions ++ [.setEnabled on]) = minLevelAfter actions := by
      simp [minLevelAfter]
    exact h.of_not_accepted (by simp) (acceptedAt?_concat_length capacity actions _) rfl rfl rfl
      (enabledAfter_concat_setEnabled actions on).symm (h.minLevel_eq.trans hlevel.symm)
  | setMinLevel level =>
    have henabled : enabledAfter (actions ++ [.setMinLevel level]) = enabledAfter actions := by
      simp [enabledAfter]
    exact h.of_not_accepted (by simp) (acceptedAt?_concat_length capacity actions _) rfl rfl rfl
      (h.enabled_eq.trans henabled.symm) (minLevelAfter_concat_setMinLevel actions level).symm
  | clear => exact h.clear

/-- A new log follows its history, whatever is done to it. -/
theorem tracks_run (capacity : Nat) (actions : List Action) :
    (run { capacity := capacity } actions).Tracks capacity actions := by
  induction actions using List.reverseRecOn with
  | nil => exact ⟨rfl, rfl, rfl, rfl, by simp [run, newestFirst, acceptedSinceClear]⟩
  | append_singleton actions a ih =>
    rw [run_concat]
    exact ih.act a

/-- **A log holds the last records that it accepted**, as many as came since it was cleared last
and as it has room for, oldest first. Each has the number of records accepted before it since the
log was made, and is cut to length. -/
theorem toList_run (capacity : Nat) (actions : List Action) :
    (run { capacity := capacity } actions).toList =
      ((accepted capacity actions).mapIdx asHeld).rtake
        (min capacity (acceptedSinceClear capacity actions).length) := by
  rw [toList, (tracks_run capacity actions).newestFirst_eq, List.rtake_eq_reverse_take_reverse]

end FileTree.Log
