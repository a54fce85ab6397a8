import FileTree.Identifier

/-!
# The log

A log keeps the newest records, up to its capacity.  A record says how grave the event is, which
part of the program saw it, and what happened, with named details.  Every record that the log
accepts gets the next sequence number; neither eviction nor clearing gives a number back.

Evicted records stay in the history for a while and leave it in bulk, once for every `capacity`
events, so that an event costs the same however many records the log keeps.

## Main definitions

* `Level`: how grave an event is
* `Record`: an event; `Record.line` is its text
* `Log`: the records kept and the switches
* `Log.record`: one more event
* `Log.newestFirst`, `Log.toList`: the records kept, in either order

## Main results

* `Log.newestFirst_record_of_accepts`, `Log.toList_record_of_accepts`,
  `Log.record_of_not_accepts`: what one more event does
-/

namespace FileTree

/-- How grave an event is. -/
inductive Level where
  | debug
  | info
  | warn
  | error
  | critical
  deriving DecidableEq

namespace Level

/-- The short name of a level. -/
def label : Level → String
  | debug => "DEBUG"
  | info => "INFO"
  | warn => "WARN"
  | error => "ERROR"
  | critical => "CRIT"

/-- The place of a level in the order of graveness. -/
def rank : Level → Nat
  | debug => 0
  | info => 1
  | warn => 2
  | error => 3
  | critical => 4

end Level

/-- An event. -/
structure Record where
  level : Level
  /-- The part of the program that saw the event. -/
  component : String
  message : String
  /-- The store that the event belongs to, if it belongs to one. -/
  source : Option StoreId := none
  /-- Named details, in order. -/
  fields : List (String × String) := []
  /-- The number of the record among all that the log accepted. -/
  sequence : Nat := 0
  deriving DecidableEq

namespace Record

/-- The most characters that are kept of a component's name. -/
def maxComponentLength : Nat := 31

/-- The most characters that are kept of a message. -/
def maxMessageLength : Nat := 127

/-- The first `n` characters of a text. -/
def cut (n : Nat) (s : String) : String :=
  String.ofList (s.toList.take n)

/-- The detail with the given name: the first one of that name. -/
def field? (r : Record) (key : String) : Option String :=
  r.fields.lookup key

/-- The record as the log keeps it: cut to length, with its number. -/
def numbered (r : Record) (n : Nat) : Record :=
  { r with
    component := cut maxComponentLength r.component
    message := cut maxMessageLength r.message
    sequence := n }

/-- The text of a record: the level in brackets, the component if it has a name, the message, and
the details. -/
def line (r : Record) : String :=
  let origin := if r.component.isEmpty then "" else r.component ++ ": "
  let details := r.fields.foldl (fun text f => text ++ " " ++ f.1 ++ "=" ++ f.2) ""
  "[" ++ r.level.label ++ "] " ++ origin ++ r.message ++ details

end Record

/-- The records and the switches. -/
structure Log where
  capacity : Nat
  enabled : Bool := true
  /-- The least grave level that is accepted. -/
  minLevel : Level := .debug
  /-- The number of the next record. -/
  nextSequence : Nat := 0
  /-- The newest records, the last one first: those kept, and perhaps evicted ones behind them. -/
  history : List Record := []
  /-- The number of events since evicted records last left the history. -/
  uncut : Nat := 0
  deriving DecidableEq

namespace Log

/-- The capacity of a log for which none is given. -/
def defaultCapacity : Nat := 256

/-- The records kept, the newest first. -/
def newestFirst (log : Log) : List Record :=
  log.history.take log.capacity

/-- The records kept, the oldest first. -/
def toList (log : Log) : List Record :=
  log.newestFirst.reverse

/-- The number of records kept. -/
def size (log : Log) : Nat :=
  log.newestFirst.length

/-- The newest record. -/
def last? (log : Log) : Option Record :=
  log.newestFirst.head?

/-- Whether an event of the given level would be kept. -/
def accepts (log : Log) (level : Level) : Bool :=
  log.enabled && log.minLevel.rank ≤ level.rank && log.capacity != 0

/-- The log after one more event; the oldest record makes room when the log is full. -/
def record (log : Log) (r : Record) : Log :=
  if log.accepts r.level then
    let history := r.numbered log.nextSequence :: log.history
    if log.uncut < log.capacity then
      { log with
        nextSequence := log.nextSequence + 1
        history := history
        uncut := log.uncut + 1 }
    else
      { log with
        nextSequence := log.nextSequence + 1
        history := history.take log.capacity
        uncut := 0 }
  else log

/-- The log with recording switched on or off. -/
def setEnabled (log : Log) (on : Bool) : Log :=
  { log with enabled := on }

/-- The log that from now on drops events below the given level. -/
def setMinLevel (log : Log) (level : Level) : Log :=
  { log with minLevel := level }

/-- The log without its records; the numbering goes on. -/
def clear (log : Log) : Log :=
  { log with history := [], uncut := 0 }

/-- The text of the records kept, the oldest first. -/
def lines (log : Log) : List String :=
  log.toList.map Record.line

@[simp] theorem toList_clear (log : Log) : log.clear.toList = [] := by
  simp [toList, newestFirst, clear]

@[simp] theorem toList_setEnabled (log : Log) (on : Bool) :
    (log.setEnabled on).toList = log.toList := rfl

@[simp] theorem toList_setMinLevel (log : Log) (level : Level) :
    (log.setMinLevel level).toList = log.toList := rfl

/-- An event that is not accepted changes nothing. -/
theorem record_of_not_accepts {log : Log} {r : Record} (h : log.accepts r.level = false) :
    log.record r = log := by
  simp [record, h]

/-- An accepted event comes first in the order of newness, and the capacity still holds. -/
theorem newestFirst_record_of_accepts {log : Log} {r : Record} (h : log.accepts r.level = true) :
    (log.record r).newestFirst =
      (r.numbered log.nextSequence :: log.newestFirst).take log.capacity := by
  simp only [record, h, if_true, newestFirst]
  cases log.capacity with
  | zero => split <;> simp
  | succ n => split <;> simp [List.take_take]

/-- An accepted event comes last, and the newest records up to the capacity stay. -/
theorem toList_record_of_accepts {log : Log} {r : Record} (h : log.accepts r.level = true) :
    (log.record r).toList =
      (log.toList ++ [r.numbered log.nextSequence]).drop
        (log.toList.length + 1 - log.capacity) := by
  simp only [toList, newestFirst_record_of_accepts h]
  rw [← List.reverse_cons, List.drop_reverse]
  simp only [List.length_reverse, List.length_cons]
  congr 1
  rcases Nat.le_total (log.newestFirst.length + 1) log.capacity with hle | hle
  · rw [List.take_of_length_le (by simpa using hle), List.take_of_length_le]
    simp only [List.length_cons]; omega
  · congr 1; omega

end Log

end FileTree
