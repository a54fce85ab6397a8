import FileTree.Proofs.Log.History
import FileTree.Store
import FileTree.Text.Decimal
import Mathlib.Algebra.BigOperators.Group.List.Basic
import Mathlib.Algebra.Ring.Nat

/-!
# Counting by the log

The records that a store writes tell how many entries it made, how many it took out and how many
contents it wrote. Nothing else is counted: no other record of the store, and no record of the other
parts of the program. A log that is open to all records and has lost none of them holds them with
their components and messages in full, as far as these count.

## Main definitions

* `Record.ofStore`: the records that the store wrote
* `Record.creations`, `Record.removals`, `Record.writes`: what they tell
* `Record.Plain`: a record that does not count; `Record.counted` are the messages of those that do
* `Log.Holds`: an open log was handed exactly the given records

## Main results

* `Log.holds_foldl`: an open log was handed what it was handed before, and the records since
* `Log.Holds.toList_eq`: what such a log holds when it has lost nothing
* `Record.creations_mapIdx_asHeld` and its like: the records count the same as the log holds them
-/

namespace FileTree

/-- The decimal digits of a number are those of its usual text. -/
theorem Text.Decimal.digits_eq_toDigits (n : Nat) : digits n = Nat.toDigits 10 n := by
  induction n using Nat.strongRecOn with
  | ind n ih =>
    have hdigit : ∀ d < 10, digit d = Nat.digitChar d := by decide
    rw [digits]
    split_ifs with hlt
    · rw [Nat.toDigits_of_lt_base hlt, hdigit n hlt]
    · rw [ih (n / 10) (by omega), Nat.toDigits_of_base_le (n := n) (by decide) (by omega),
        hdigit _ (Nat.mod_lt n (by decide))]

namespace Record

/-- The records that the store wrote. -/
def ofStore (rs : List Record) : List Record :=
  rs.filter (·.component = Store.component)

/-- How many entries a deletion took out: the number among the details of its record. -/
def entries (r : Record) : Nat :=
  ((r.field? "entries").bind fun text => Text.Decimal.ofDigits? text.toList).getD 0

/-- How many entries were made, by the records. -/
def creations (rs : List Record) : Nat :=
  (ofStore rs).countP fun r => r.message = "created file" ∨ r.message = "created directory"

/-- How many entries were taken out, by the records. -/
def removals (rs : List Record) : Nat :=
  (((ofStore rs).filter (·.message = "deleted")).map entries).sum

/-- How many contents were written, by the records. -/
def writes (rs : List Record) : Nat :=
  (ofStore rs).countP (·.message = "content written")

variable (rs rs' : List Record)

@[simp] theorem creations_nil : creations [] = 0 := rfl

@[simp] theorem removals_nil : removals [] = 0 := rfl

@[simp] theorem writes_nil : writes [] = 0 := rfl

@[simp] theorem creations_append : creations (rs ++ rs') = creations rs + creations rs' := by
  rw [creations, ofStore, List.filter_append, List.countP_append]
  rfl

@[simp] theorem removals_append : removals (rs ++ rs') = removals rs + removals rs' := by
  rw [removals, ofStore, List.filter_append, List.filter_append, List.map_append, List.sum_append]
  rfl

@[simp] theorem writes_append : writes (rs ++ rs') = writes rs + writes rs' := by
  rw [writes, ofStore, List.filter_append, List.countP_append]
  rfl

/-- The number that a deletion puts into its record is the one that is read there. -/
theorem entries_eq {r : Record} {n : Nat} (h : r.field? "entries" = some (toString n)) :
    r.entries = n := by
  have hdigits : (toString n).toList = Text.Decimal.digits n := by
    rw [Text.Decimal.digits_eq_toDigits]
    exact String.toList_ofList
  rw [entries, h, Option.bind_some, hdigits, Text.Decimal.ofDigits?_digits, Option.getD_some]

/-! ## Records that do not count -/

/-- The record tells of no entry made or taken out and of no content written. -/
structure Plain (r : Record) : Prop where
  creations_eq : creations [r] = 0
  removals_eq : removals [r] = 0
  writes_eq : writes [r] = 0

/-- The records of the other parts of the program do not count. -/
theorem plain_of_component_ne {r : Record} (h : r.component ≠ Store.component) : r.Plain := by
  have hnone : ofStore [r] = [] := by
    rw [ofStore, List.filter_singleton]
    simp [h]
  constructor
  · rw [creations, hnone, List.countP_nil]
  · rw [removals, hnone]
    rfl
  · rw [writes, hnone, List.countP_nil]

/-- The messages of the records that count. -/
def counted : List String :=
  ["created file", "created directory", "deleted", "content written"]

/-- What counts is told by the message. -/
theorem plain_of_message {r : Record} (hm : r.message ∉ counted) : r.Plain := by
  simp only [counted, List.mem_cons, List.not_mem_nil, or_false, not_or] at hm
  obtain ⟨hfile, hdirectory, hdeleted, hwritten⟩ := hm
  by_cases h : r.component = Store.component
  · have hone : ofStore [r] = [r] := by
      rw [ofStore, List.filter_singleton]
      simp [h]
    constructor
    · rw [creations, hone]
      simp [hfile, hdirectory]
    · rw [removals, hone]
      simp [hdeleted]
    · rw [writes, hone]
      simp [hwritten]
  · exact plain_of_component_ne h

/-! ## Records as a log holds them -/

/-- A short text is what is left of a text if and only if it is the whole of it. -/
theorem cut_eq_iff {n : Nat} {text short : String} (h : short.length < n) :
    cut n text = short ↔ text = short := by
  have hcut : ∀ t : String, t.length < n → cut n t = t := by
    intro t ht
    rw [cut, List.take_of_length_le (by rw [String.length_toList]; exact ht.le),
      String.ofList_toList]
  constructor
  · intro heq
    have hlt : text.length < n := by
      have hlen := congrArg String.length heq
      rw [cut, String.length_ofList, List.length_take, String.length_toList] at hlen
      omega
    rw [← heq, hcut text hlt]
  · rintro rfl
    exact hcut _ h

section AsHeld

variable (i : Nat) (r : Record)

theorem component_asHeld_eq_iff :
    (Log.asHeld i r).component = Store.component ↔ r.component = Store.component :=
  cut_eq_iff (n := 31) (by decide)

theorem message_asHeld_eq_iff {s : String} (h : s.length < 127) :
    (Log.asHeld i r).message = s ↔ r.message = s :=
  cut_eq_iff h

theorem ofStore_asHeld : ofStore [Log.asHeld i r] = (ofStore [r]).map (Log.asHeld i) := by
  rw [ofStore, ofStore, List.filter_singleton, List.filter_singleton]
  simp only [component_asHeld_eq_iff]
  cases decide (r.component = Store.component) <;> rfl

end AsHeld

theorem creations_mapIdx_asHeld : creations (rs.mapIdx Log.asHeld) = creations rs := by
  -- From the end, since the last record does not change the numbers of those before it.
  induction rs using List.reverseRecOn with
  | nil => rfl
  | append_singleton rs r ih =>
    rw [List.mapIdx_concat, creations_append, creations_append, ih]
    simp only [creations, ofStore_asHeld, List.countP_map, Function.comp_def,
      message_asHeld_eq_iff rs.length _ (s := "created file") (by decide),
      message_asHeld_eq_iff rs.length _ (s := "created directory") (by decide)]

theorem removals_mapIdx_asHeld : removals (rs.mapIdx Log.asHeld) = removals rs := by
  induction rs using List.reverseRecOn with
  | nil => rfl
  | append_singleton rs r ih =>
    rw [List.mapIdx_concat, removals_append, removals_append, ih]
    simp only [removals, ofStore_asHeld, List.filter_map, List.map_map, Function.comp_def,
      message_asHeld_eq_iff rs.length _ (s := "deleted") (by decide)]
    rfl

theorem writes_mapIdx_asHeld : writes (rs.mapIdx Log.asHeld) = writes rs := by
  induction rs using List.reverseRecOn with
  | nil => rfl
  | append_singleton rs r ih =>
    rw [List.mapIdx_concat, writes_append, writes_append, ih]
    simp only [writes, ofStore_asHeld, List.countP_map, Function.comp_def,
      message_asHeld_eq_iff rs.length _ (s := "content written") (by decide)]

end Record

namespace Log

variable {log : Log} {rs : List Record}

/-- The log is open to all records, was handed the given ones, and holds the newest of them. -/
structure Holds (log : Log) (rs : List Record) : Prop where
  enabled_eq : log.enabled = true
  minLevel_eq : log.minLevel = .debug
  capacity_pos : 0 < log.capacity
  nextSequence_eq : log.nextSequence = rs.length
  newestFirst_eq : log.newestFirst = (rs.mapIdx asHeld).reverse.take log.capacity

theorem holds_new {capacity : Nat} (h : 0 < capacity) : Holds { capacity := capacity } [] :=
  ⟨rfl, rfl, h, rfl, by simp [newestFirst]⟩

theorem Holds.accepts (h : log.Holds rs) (level : Level) : log.accepts level = true := by
  have hcapacity := h.capacity_pos.ne'
  simp only [Log.accepts, h.enabled_eq, h.minLevel_eq, Level.rank, Nat.zero_le, decide_true,
    Bool.true_and, bne_iff_ne]
  exact hcapacity

theorem Holds.record (h : log.Holds rs) (r : Record) : (log.record r).Holds (rs ++ [r]) := by
  have hacc := h.accepts r.level
  refine ⟨(enabled_record log r).trans h.enabled_eq, (minLevel_record log r).trans h.minLevel_eq,
    (capacity_record log r).symm ▸ h.capacity_pos, ?_, ?_⟩
  · rw [nextSequence_record_of_accepts hacc, h.nextSequence_eq, List.length_append,
      List.length_singleton]
  · rw [newestFirst_record_of_accepts hacc, capacity_record, h.newestFirst_eq, h.nextSequence_eq,
      numbered_eq_asHeld, List.mapIdx_concat, List.reverse_append, List.reverse_singleton,
      List.singleton_append, ← List.take_succ_cons, List.take_take, Nat.min_eq_left (Nat.le_succ _)]

/-- An open log was handed what it was handed before, and the records since. -/
theorem holds_foldl (h : log.Holds rs) (more : List Record) :
    (more.foldl Log.record log).Holds (rs ++ more) := by
  induction more generalizing log rs with
  | nil => rwa [List.append_nil]
  | cons r more ih =>
    rw [List.append_cons]
    exact ih (h.record r)

/-- A log that holds as many records as it gave numbers has lost none. -/
theorem Holds.toList_eq (h : log.Holds rs) (hsize : log.size = log.nextSequence) :
    log.toList = rs.mapIdx asHeld := by
  have hle : ((rs.mapIdx asHeld).reverse).length ≤ log.capacity := by
    rw [size, h.newestFirst_eq, h.nextSequence_eq, List.length_take, List.length_reverse,
      List.length_mapIdx] at hsize
    rw [List.length_reverse, List.length_mapIdx]
    omega
  rw [toList, h.newestFirst_eq, List.take_of_length_le hle, List.reverse_reverse]

end Log

end FileTree
