import FileTree.Log

/-!
# Store limits and policies

What bounds a store, and what it does with a file's old buffer when new content is written.
A configuration is sound when every limit that must admit something is positive, and every table
that is laid out in advance is of a bearable size.

## Main definitions

* `Config`: the limits and the policy
* `Config.check`: the configuration is sound, or the first fault
-/

namespace FileTree

/-- Why a configuration is refused. -/
inductive ConfigError where
  /-- A limit has an unusable value. -/
  | invalidValue (field reason : String)
  /-- The text does not spell a configuration. -/
  | parse (reason : String)
  /-- The configuration has no text. -/
  | serialize (reason : String)
  deriving DecidableEq

/-- The text of a refusal. -/
def ConfigError.message : ConfigError → String
  | .invalidValue field reason => s!"Invalid value for {field}: {reason}"
  | .parse reason => s!"Failed to parse configuration: {reason}"
  | .serialize reason => s!"Failed to serialize configuration: {reason}"

/-- What becomes of a file's old buffer when new content is written. -/
inductive WritePolicy where
  /-- The old buffer goes back to the heap. -/
  | releaseOnReplace
  /-- The old buffer is dropped, and the heap goes on counting it. -/
  | leakOnReplace
  deriving DecidableEq

/-- Limits and policies of a store. -/
structure Config where
  /-- Slots in the entry table, the root included. -/
  maxEntries : UInt64 := 256
  /-- Children that one directory may hold. -/
  maxChildren : UInt64 := 16
  /-- Longest name, in characters. -/
  maxNameLength : UInt64 := 63
  /-- Bytes requested with every write beyond those written. -/
  writeSlack : UInt64 := 1024
  /-- Parent links followed when a full path is rendered. -/
  maxPathDepth : UInt64 := 16
  /-- Longest rendered path, in bytes. -/
  maxPathLength : UInt64 := 256
  /-- Records that the log keeps. -/
  logCapacity : UInt64 := 256
  writePolicy : WritePolicy := .releaseOnReplace
  deriving DecidableEq

namespace Config

/-- The largest number of table slots. -/
def maxTableSlots : UInt64 := 65536

/-- The largest number of records kept. -/
def maxLogRecords : UInt64 := 65536

/-- The largest number of bytes requested beyond those written. -/
def maxWriteSlack : UInt64 := 1048576

/-- The limits that must be positive, by name, in the order in which they are checked. -/
def positiveLimits (c : Config) : List (String × UInt64) :=
  [("max_entries", c.maxEntries), ("max_children", c.maxChildren),
    ("max_name_len", c.maxNameLength), ("max_path_depth", c.maxPathDepth),
    ("max_path_len", c.maxPathLength)]

/-- The limits that are bounded, by name and with their bound, in the order in which they are
checked. -/
def boundedLimits (c : Config) : List (String × UInt64 × UInt64) :=
  [("max_entries", c.maxEntries, maxTableSlots), ("log_capacity", c.logCapacity, maxLogRecords),
    ("write_slack", c.writeSlack, maxWriteSlack)]

/-- The first fault of a configuration: a zero before an excess. -/
def fault? (c : Config) : Option ConfigError :=
  match c.positiveLimits.find? (fun l => l.2 == 0) with
  | some l => some (.invalidValue l.1 "must be greater than zero")
  | none =>
    (c.boundedLimits.find? (fun l => l.2.2 < l.2.1)).map fun l =>
      .invalidValue l.1 s!"{l.2.1.toNat} exceeds the limit of {l.2.2.toNat}"

/-- The configuration is sound, or its first fault. -/
def check (c : Config) : Except ConfigError Unit :=
  match c.fault? with
  | some e => .error e
  | none => .ok ()

@[simp] theorem check_eq_ok_iff (c : Config) : c.check = .ok () ↔ c.fault? = none := by
  unfold check; split <;> simp_all

end Config

end FileTree
