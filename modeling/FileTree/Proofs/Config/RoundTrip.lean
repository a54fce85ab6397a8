import FileTree.Config.Text
import FileTree.Proofs.Json.RoundTrip
import FileTree.Proofs.Store.FullPath

/-!
# Configurations written and read

A configuration that is written is read back if it is sound, and is refused for its first fault
otherwise. Nothing but a sound configuration is ever read, and a configuration is sound exactly when
each limit is within its bounds.

## Main definitions

* `Config.WithinBounds`: every limit is within its bounds

## Main results

* `Config.check_eq_ok_iff_withinBounds`: what the check of a configuration decides
* `Config.ofJson?_respelled`: reading a configuration does not depend on spellings
* `Config.ofJson?_toJson`: a configuration is read back from its JSON value
* `Config.parse_text_eq_and_withinBounds`: a configuration that is written is read back, and what
  reaches a store is within its bounds
-/

namespace FileTree

namespace WritePolicy

theorem ofName?_name (p : WritePolicy) : ofName? p.name = some p := by
  cases p <;> rfl

theorem ofJson?_ofString_name (p : WritePolicy) : ofJson? (Json.ofString p.name) = some p := by
  rw [Json.ofString, ofJson?, Json.text?_ofText, Option.bind_some, ofName?_name]

@[simp] theorem ofJson?_respelled (v : Json) : ofJson? v.respelled = ofJson? v := by
  match v with
  | .null | .bool _ | .number _ | .array _ | .object [] => simp [ofJson?]
  | .string body => simp [ofJson?]
  | .object [(key, v)] => cases v <;> simp [ofJson?, Json.respellMember]
  | .object (_ :: _ :: _) => simp [ofJson?]

end WritePolicy

namespace Config

open Store (Reachable)

/-! ## Bounds -/

/-- Every limit is within its bounds. -/
structure WithinBounds (c : Config) : Prop where
  maxEntries : 1 ≤ c.maxEntries.toNat ∧ c.maxEntries.toNat ≤ 65536
  maxChildren : 1 ≤ c.maxChildren.toNat
  maxNameLength : 1 ≤ c.maxNameLength.toNat
  writeSlack : c.writeSlack.toNat ≤ 1048576
  maxPathDepth : 1 ≤ c.maxPathDepth.toNat
  maxPathLength : 1 ≤ c.maxPathLength.toNat
  logCapacity : c.logCapacity.toNat ≤ 65536

theorem fault?_eq_none_iff (c : Config) : c.fault? = none ↔
    (∀ l ∈ c.positiveLimits, l.2 ≠ 0) ∧ ∀ l ∈ c.boundedLimits, l.2.1 ≤ l.2.2 := by
  have hpositive : c.positiveLimits.find? (fun l => l.2 == 0) = none ↔
      ∀ l ∈ c.positiveLimits, l.2 ≠ 0 := by simp [List.find?_eq_none]
  have hbounded : c.boundedLimits.find? (fun l => l.2.2 < l.2.1) = none ↔
      ∀ l ∈ c.boundedLimits, l.2.1 ≤ l.2.2 := by simp [List.find?_eq_none]
  rw [← hpositive, ← hbounded, fault?]
  split
  · rename_i hsome
    simp [hsome]
  · rename_i hnone
    simp [hnone]

/-- A configuration is sound exactly when every limit is within its bounds. -/
theorem check_eq_ok_iff_withinBounds (c : Config) : c.check = .ok () ↔ c.WithinBounds := by
  have hpos : ∀ n : UInt64, n ≠ 0 ↔ 1 ≤ n.toNat := fun n => by
    rw [ne_eq, ← UInt64.toNat_inj, Nat.one_le_iff_ne_zero]
    rfl
  simp only [check_eq_ok_iff, fault?_eq_none_iff, positiveLimits, boundedLimits,
    List.forall_mem_cons, List.not_mem_nil, false_imp_iff, implies_true, and_true, hpos,
    UInt64.le_iff_toNat_le]
  constructor
  · rintro ⟨⟨h₁, h₂, h₃, h₄, h₅⟩, h₆, h₇, h₈⟩
    exact ⟨⟨h₁, h₆⟩, h₂, h₃, h₈, h₄, h₅, h₇⟩
  · rintro ⟨⟨h₁, h₆⟩, h₂, h₃, h₈, h₄, h₅, h₇⟩
    exact ⟨⟨h₁, h₂, h₃, h₄, h₅⟩, h₆, h₇, h₈⟩

/-- What comes of a fresh store keeps the configuration, which is within its bounds. -/
theorem withinBounds_of_reachable {c : Config} {heap : Heap} {s : Store}
    (hs : Reachable c heap s) : s.config = c ∧ c.WithinBounds := by
  obtain ⟨hc, hconfig⟩ := hs.config_eq
  exact ⟨hconfig, c.check_eq_ok_iff_withinBounds.mp hc⟩

/-! ## Reading and writing -/

theorem limitOfJson?_map_respelled (default : UInt64) (v : Option Json) :
    limitOfJson? default (v.map Json.respelled) = limitOfJson? default v := by
  cases v <;> simp [limitOfJson?]

theorem policyOfJson?_map_respelled (default : WritePolicy) (v : Option Json) :
    policyOfJson? default (v.map Json.respelled) = policyOfJson? default v := by
  cases v <;> simp [policyOfJson?]

theorem ofPlaces?_map_respelled (place : Nat → Option Json) :
    ofPlaces? (fun i => (place i).map Json.respelled) = ofPlaces? place := by
  simp only [ofPlaces?, limitOfJson?_map_respelled, policyOfJson?_map_respelled]

theorem membersReadable_map_respelled (members : List (List Json.Part × Json)) :
    membersReadable (members.map Json.respellMember) = membersReadable members := by
  simp only [membersReadable, List.all_map, Json.valuesOf_map_respelled, List.length_map]
  congr 2
  funext m
  simp [Json.respellMember]

/-- Reading a configuration does not depend on how its strings are spelled. -/
theorem ofJson?_respelled (v : Json) : ofJson? v.respelled = ofJson? v := by
  match v with
  | .null | .bool _ | .number _ | .string _ => simp [ofJson?]
  | .array items =>
    simp only [Json.respelled_array, ofJson?, List.length_map, List.getElem?_map,
      ofPlaces?_map_respelled]
  | .object members =>
    have hplaces : ∀ i : Nat, (names[i]?.bind fun name =>
        Json.field? name (members.map Json.respellMember)) =
          (names[i]?.bind fun name => Json.field? name members).map Json.respelled := by
      intro i
      cases names[i]? <;> simp [Json.field?_map_respelled]
    simp only [Json.respelled_object, ofJson?, membersReadable_map_respelled, hplaces,
      ofPlaces?_map_respelled]

theorem limitOfJson?_ofNat (default n : UInt64) :
    limitOfJson? default (some (Json.ofNat n.toNat)) = some n := by
  rw [limitOfJson?, Json.nat?_ofNat n.toNat_lt]
  simp

theorem whole_toJson (c : Config) : c.toJson.Whole := by
  refine Json.whole_ofMembers ?_
  simp [Json.whole_ofNat, Json.whole_ofString]

theorem membersReadable_ofMembers {members : List (String × Json)}
    (h : (members.map Prod.fst).Nodup) :
    membersReadable (members.map fun m => (Json.ofText m.1, m.2)) = true := by
  rw [membersReadable, Bool.and_eq_true, List.all_map]
  refine ⟨by simp, List.all_eq_true.mpr fun name _ => ?_⟩
  rw [Json.valuesOf_ofMembers h]
  cases members.lookup name <;> simp

/-- A configuration is read back from its JSON value. -/
theorem ofJson?_toJson (c : Config) : ofJson? c.toJson = some c := by
  rw [toJson, Json.ofMembers, ofJson?, if_pos]
  · simp (disch := simp) only [Json.field?_ofMembers]
    simp [ofPlaces?, names, List.lookup_cons, limitOfJson?_ofNat, policyOfJson?,
      WritePolicy.ofJson?_ofString_name]
  · exact membersReadable_ofMembers (by simp)

/-- A configuration that is written is read back if it is sound, or its fault is found. -/
theorem parse_text (c : Config) : parse c.text = c.check.map fun _ => c := by
  have hread : Json.parse? c.text = some c.toJson.respelled :=
    Json.parse?_write Json.Layout.blank_indented c.whole_toJson
  simp only [parse, hread, Option.bind_some, ofJson?_respelled, ofJson?_toJson]
  cases c.check <;> rfl

/-- **Configurations are written and read without loss, and checked on the way**: one that is
written is read back if it is sound, and is refused for its own fault otherwise; what any text
spells is sound, so every limit of a store is within its bounds. -/
theorem parse_text_eq_and_withinBounds :
    (∀ c : Config, parse c.text = match c.check with
      | .ok () => .ok c
      | .error fault => .error fault) ∧
    (∀ (text : List UInt8) (c : Config), parse text = .ok c → c.check = .ok () ∧ c.WithinBounds) ∧
    ∀ (c : Config) (heap : Heap) (s : Store), Reachable c heap s →
      s.config = c ∧ s.config.WithinBounds := by
  refine ⟨fun c => ?_, fun text c h => ?_, fun c heap s hs => ?_⟩
  · rw [parse_text]
    cases c.check <;> rfl
  · have hc := check_of_parse h
    exact ⟨hc, c.check_eq_ok_iff_withinBounds.mp hc⟩
  · obtain ⟨hconfig, hbounds⟩ := withinBounds_of_reachable hs
    exact ⟨hconfig, hconfig ▸ hbounds⟩

/-- A text with some of the limits in another order, a member that is passed over, and the policy
as an object. -/
theorem parse_text_eq_and_withinBounds_of_partial :
    let members := [("write_policy", Json.ofMembers [("legacy_leak", .null)]),
      ("comment", .array [.bool true, Json.ofString "a\n"]), ("max_entries", Json.ofNat 4)]
    let text := (Json.ofMembers members).compact
    let c : Config := { maxEntries := 4, writePolicy := .leakOnReplace }
    let s := (Store.init ⟨0⟩ c {}).run [.createFile "a"]
    (parse text = .ok c ∧ Reachable c {} s) ∧ (c.check = .ok () ∧ c.WithinBounds) ∧
      s.config = c ∧ s.config.WithinBounds := by
  intro members text c s
  have hwhole : (Json.ofMembers members).Whole := by
    refine Json.whole_ofMembers ?_
    simp [members, Json.whole_ofMembers, Json.Whole.null, Json.Whole.array, Json.Whole.bool,
      Json.whole_ofString, Json.whole_ofNat]
  have hnodup : (members.map Prod.fst).Nodup := by
    simp [members]
  have hvalue : ofJson? (Json.ofMembers members) = some c := by
    rw [Json.ofMembers, ofJson?, if_pos (membersReadable_ofMembers hnodup)]
    simp only [Json.field?_ofMembers hnodup]
    simp [members, ofPlaces?, names, List.lookup_cons, limitOfJson?, policyOfJson?,
      WritePolicy.ofJson?, Json.ofMembers, WritePolicy.ofName?, Json.nat?, Json.ofNat]
    rfl
  have hparse : parse text = .ok c := by
    have hread : Json.parse? text = _ := Json.parse?_write Json.Layout.blank_compact hwhole
    simp only [parse, hread, Option.bind_some, ofJson?_respelled, hvalue]
    rfl
  have hs : Reachable c {} s := Store.reachable_run rfl ⟨0⟩ {} _
  obtain ⟨-, hok, hstore⟩ := parse_text_eq_and_withinBounds
  exact ⟨⟨hparse, hs⟩, hok text c hparse, hstore c {} s hs⟩

end Config

end FileTree
