import FileTree.Config
import FileTree.Json.Text

/-!
# Configurations as JSON text

A configuration is written as an object with one member for each limit, one to a line.  It is
read from an object, where missing limits take their default and unknown members are passed
over, or from an array of the limits in order, where the tail may be missing.

## Main definitions

* `Config.toJson`, `Config.ofJson?`: the two directions between configurations and JSON values
* `Config.text`: the text of a configuration
* `Config.parse`: the sound configuration that a text spells, or why there is none
-/

namespace FileTree

namespace WritePolicy

/-- The name of a policy in JSON. -/
def name : WritePolicy → String
  | .releaseOnReplace => "release_on_replace"
  | .leakOnReplace => "legacy_leak"

/-- The policy with the given name. -/
def ofName? (s : String) : Option WritePolicy :=
  if s = "release_on_replace" then some .releaseOnReplace
  else if s = "legacy_leak" then some .leakOnReplace
  else none

/-- A policy from JSON: its name, or an object whose only member has that name and is null. -/
def ofJson? : Json → Option WritePolicy
  | .string body => (Json.text? body).bind ofName?
  | .object [(key, .null)] => (Json.text? key).bind ofName?
  | _ => none

end WritePolicy

namespace Config

/-- The names of the limits and the policy, in order. -/
def names : List String :=
  ["max_entries", "max_children", "max_name_len", "write_slack", "max_path_depth",
    "max_path_len", "log_capacity", "write_policy"]

/-- A limit from JSON: a number of 64 bits, or the default when it is missing. -/
def limitOfJson? (default : UInt64) : Option Json → Option UInt64
  | none => some default
  | some v => (v.nat? UInt64.size).map Nat.toUInt64

/-- The policy from JSON, or the default when it is missing. -/
def policyOfJson? (default : WritePolicy) : Option Json → Option WritePolicy
  | none => some default
  | some v => WritePolicy.ofJson? v

/-- The configuration whose limits and policy are given by their place in the order of names. -/
def ofPlaces? (place : Nat → Option Json) : Option Config := do
  let defaults : Config := {}
  let maxEntries ← limitOfJson? defaults.maxEntries (place 0)
  let maxChildren ← limitOfJson? defaults.maxChildren (place 1)
  let maxNameLength ← limitOfJson? defaults.maxNameLength (place 2)
  let writeSlack ← limitOfJson? defaults.writeSlack (place 3)
  let maxPathDepth ← limitOfJson? defaults.maxPathDepth (place 4)
  let maxPathLength ← limitOfJson? defaults.maxPathLength (place 5)
  let logCapacity ← limitOfJson? defaults.logCapacity (place 6)
  let writePolicy ← policyOfJson? defaults.writePolicy (place 7)
  return { maxEntries, maxChildren, maxNameLength, writeSlack, maxPathDepth, maxPathLength,
           logCapacity, writePolicy }

/-- Every name spells a text, and none of the known names stands twice. -/
def membersReadable (members : List (List Json.Part × Json)) : Bool :=
  members.all (fun m => (Json.text? m.1).isSome) &&
    names.all (fun name => (Json.valuesOf name members).length ≤ 1)

/-- A configuration from JSON: an object with some of the limits, or an array of the first
ones. -/
def ofJson? : Json → Option Config
  | .object members =>
    if membersReadable members then
      ofPlaces? fun i => names[i]?.bind fun name => Json.field? name members
    else none
  | .array items => if items.length ≤ names.length then ofPlaces? fun i => items[i]? else none
  | _ => none

/-- The configuration as JSON: an object with all limits in order. -/
def toJson (c : Config) : Json :=
  Json.ofMembers
    [("max_entries", Json.ofNat c.maxEntries.toNat),
      ("max_children", Json.ofNat c.maxChildren.toNat),
      ("max_name_len", Json.ofNat c.maxNameLength.toNat),
      ("write_slack", Json.ofNat c.writeSlack.toNat),
      ("max_path_depth", Json.ofNat c.maxPathDepth.toNat),
      ("max_path_len", Json.ofNat c.maxPathLength.toNat),
      ("log_capacity", Json.ofNat c.logCapacity.toNat),
      ("write_policy", Json.ofString c.writePolicy.name)]

/-- The text of a configuration, one limit to a line. -/
def text (c : Config) : List UInt8 :=
  c.toJson.indented

/-- The sound configuration that a text spells, or why there is none. -/
def parse (text : List UInt8) : Except ConfigError Config :=
  match (Json.parse? text).bind ofJson? with
  | none => .error (.parse "the text is not a configuration")
  | some c =>
    match c.check with
    | .error e => .error e
    | .ok () => .ok c

/-- Only sound configurations are read. -/
theorem check_of_parse {text : List UInt8} {c : Config} (h : parse text = .ok c) :
    c.check = .ok () := by
  unfold parse at h
  split at h
  · cases h
  · split at h
    · cases h
    · cases h; assumption

end Config

end FileTree
