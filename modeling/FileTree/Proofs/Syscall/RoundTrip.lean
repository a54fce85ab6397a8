import FileTree.Lookup
import FileTree.Proofs.Json.RoundTrip
import FileTree.Syscall.Text

/-!
# Requests and answers written and read

A request that is written is read back, and so is an answer, whatever texts, bytes and numbers it
carries. So two requests never have the same text. More texts are read than are written: the
operands of a call may stand in any order among other members, or in an array, and each string
may be spelled in many ways.

## Main definitions

* `Json.Gives`: a value gives operands under their names, or in their order
* `Request.SpelledBy`: the JSON values that spell a request

## Main results

* `Request.ofJson?_toJson`, `Response.ofJson?_toJson`: what is written as a value is read back
* `Request.ofWritten?_eq_some_iff`: a value is read as a request exactly when it spells the request
* `Request.parse?_text_and_injective`: what is written as a text is read back
-/

namespace FileTree

namespace Json

/-! ## Parts of requests and answers -/

@[simp] theorem int32?_respelled (v : Json) : v.respelled.int32? = v.int32? := by
  rw [int32?, int32?, int?_respelled]

@[simp] theorem uint64?_respelled (v : Json) : v.respelled.uint64? = v.uint64? := by
  rw [uint64?, uint64?, nat?_respelled]

@[simp] theorem byte?_respelled (v : Json) : v.respelled.byte? = v.byte? := by
  rw [byte?, byte?, nat?_respelled]

@[simp] theorem bytes?_respelled (v : Json) : v.respelled.bytes? = v.bytes? := by
  rw [bytes?, bytes?, items?_respelled]
  cases v.items? with
  | none => rfl
  | some items => simp [List.mapM_map, Function.comp_def]

@[simp] theorem descriptor?_respelled (v : Json) :
    Descriptor.ofJson? v.respelled = Descriptor.ofJson? v := by
  rw [Descriptor.ofJson?, Descriptor.ofJson?, nat?_respelled]

@[simp] theorem int32?_ofInt (n : Int32) : (ofInt n.toInt).int32? = some n := by
  rw [int32?, int?_ofInt n.minValue_le_toInt n.toInt_le]
  simp

@[simp] theorem uint64?_ofNat (n : UInt64) : (ofNat n.toNat).uint64? = some n := by
  rw [uint64?, nat?_ofNat n.toNat_lt]
  simp

@[simp] theorem bool?_bool (b : Bool) : (bool b).bool? = some b := rfl

@[simp] theorem byte?_ofNat (n : UInt8) : (ofNat n.toNat).byte? = some n := by
  rw [byte?, nat?_ofNat n.toNat_lt]
  simp

@[simp] theorem bytes?_ofBytes (b : List UInt8) : (ofBytes b).bytes? = some b := by
  rw [bytes?, ofBytes, items?, Option.bind_some]
  induction b with
  | nil => rfl
  | cons x b ih => simp_all

@[simp] theorem descriptor?_toJson (fd : Descriptor) : Descriptor.ofJson? fd.toJson = some fd := by
  rw [Descriptor.ofJson?, Descriptor.toJson, nat?_ofNat fd.number.toNat_lt]
  simp

theorem whole_ofBytes (b : List UInt8) : (ofBytes b).Whole := by
  refine .array fun v hv => ?_
  obtain ⟨x, -, rfl⟩ := List.mem_map.mp hv
  exact whole_ofNat _

/-! ## Operands of a call -/

/-- A value gives operands under the given names: an object in which each name stands once, among
other members whose names can be read, or an array of the operands in their order. -/
inductive Gives (names : List String) (values : List Json) : Json → Prop
  | object (members : List (List Part × Json)) (readable : ∀ m ∈ members, (text? m.1).isSome)
      (found : names.map (field? · members) = values.map some) :
      Gives names values (.object members)
  | array (length_eq : values.length = names.length) : Gives names values (.array values)

theorem readable_ofText (members : List (String × Json)) :
    ∀ m ∈ members.map fun m => (ofText m.1, m.2), (text? m.1).isSome := by
  intro m hm
  obtain ⟨n, -, rfl⟩ := List.mem_map.mp hm
  simp

theorem map_lookup_zip {names : List String} (h : names.Nodup) {values : List Json}
    (hlen : values.length = names.length) :
    names.map (List.lookup · (names.zip values)) = values.map some := by
  induction names generalizing values with
  | nil => simpa using hlen
  | cons name rest ih =>
    obtain ⟨hname, hrest⟩ := List.nodup_cons.mp h
    obtain ⟨v, values, rfl⟩ := List.exists_cons_of_length_eq_add_one hlen
    have hother : ∀ n ∈ rest, List.lookup n ((name, v) :: rest.zip values) =
        List.lookup n (rest.zip values) := by
      intro n hn
      have hne : n ≠ name := fun heq => hname (heq ▸ hn)
      rw [lookup_cons_eq_ite, if_neg hne]
    rw [List.zip_cons_cons, List.map_cons, List.map_congr_left hother,
      ih hrest (Nat.succ.inj hlen), List.map_cons, List.lookup_cons_self]

/-- Operands are found under their names in the object that has just them. -/
theorem map_field?_zip {names : List String} (h : names.Nodup) {values : List Json}
    (hlen : values.length = names.length) :
    names.map (field? · ((names.zip values).map fun m => (ofText m.1, m.2))) =
      values.map some := by
  have hnodup : ((names.zip values).map Prod.fst).Nodup := by
    rwa [List.map_fst_zip (Nat.le_of_eq hlen.symm)]
  simp only [field?_ofMembers hnodup, map_lookup_zip h hlen]

theorem Gives.respelled {names : List String} {values : List Json} {v : Json}
    (h : Gives names values v) : Gives names (values.map Json.respelled) v.respelled := by
  cases h with
  | object members readable found =>
    rw [respelled_object]
    refine .object _ (fun m hm => ?_) ?_
    · obtain ⟨n, hn, rfl⟩ := List.mem_map.mp hm
      rw [respellMember, text?_map_respelled]
      exact readable n hn
    · simpa [field?_map_respelled, Function.comp_def] using
        congrArg (List.map (Option.map Json.respelled)) found
  | array length_eq =>
    rw [respelled_array]
    exact .array (by simpa using length_eq)

/-- A value gives operands exactly when it has them all in an object, once they are named. -/
theorem gives_iff_named {names : List String} (h : names.Nodup) {values : List Json} {v : Json} :
    Gives names values v ↔ ∃ members, v.named names = .object members ∧
      (∀ m ∈ members, (text? m.1).isSome) ∧
      names.map (field? · members) = values.map some := by
  constructor
  · rintro (⟨members, readable, found⟩ | ⟨hlen⟩)
    · exact ⟨members, rfl, readable, found⟩
    · exact ⟨_, by rw [named, if_pos hlen, ofMembers], readable_ofText _, map_field?_zip h hlen⟩
  · rintro ⟨members, hmembers, readable, found⟩
    cases v with
    | object _ =>
      obtain rfl := object.inj hmembers
      exact .object _ readable found
    | array items =>
      rw [named] at hmembers
      split_ifs at hmembers with hlen
      rw [ofMembers] at hmembers
      obtain rfl := object.inj hmembers
      rw [map_field?_zip h hlen] at found
      obtain rfl := (List.map_inj_right fun _ _ => Option.some.inj).mp found
      exact .array hlen
    | _ => cases hmembers

theorem operand?_object {α : Type} (read : Json → Option α) (name : String)
    {members : List (List Part × Json)} (h : ∀ m ∈ members, (text? m.1).isSome) :
    (object members).operand? read name = (field? name members).bind read := by
  rw [operand?, if_pos (List.all_eq_true.mpr h)]

theorem operand?_ofMembers {α : Type} (read : Json → Option α) (name : String)
    {members : List (String × Json)} (h : (members.map Prod.fst).Nodup) :
    (ofMembers members).operand? read name = (members.lookup name).bind read := by
  rw [ofMembers, operand?_object read name (readable_ofText members), field?_ofMembers h]

/-- An operand that is read is that of an object whose names can be read. -/
theorem exists_of_operand? {α : Type} {read : Json → Option α} {name : String} {v : Json} {a : α}
    (h : v.operand? read name = some a) : ∃ members, v = .object members ∧
      (∀ m ∈ members, (text? m.1).isSome) ∧ ∃ x, field? name members = some x ∧
        read x = some a := by
  cases v with
  | object members =>
    rw [operand?] at h
    split_ifs at h with hall
    exact ⟨members, rfl, List.all_eq_true.mp hall, Option.bind_eq_some_iff.mp h⟩
  | _ => cases h

section Named

variable {α β : Type} {read : Json → Option α} {read' : Json → Option β} {name name' : String}

/-- The operand of a call that has one. -/
theorem operand?_named_eq_some_iff {v : Json} {a : α} :
    (v.named [name]).operand? read name = some a ↔
      ∃ x, Gives [name] [x] v ∧ read x = some a := by
  simp only [gives_iff_named (List.nodup_singleton name), List.map_cons, List.map_nil,
    List.cons.injEq, and_true]
  constructor
  · intro h
    obtain ⟨members, hv, readable, x, hx, ha⟩ := exists_of_operand? h
    exact ⟨x, ⟨members, hv, readable, hx⟩, ha⟩
  · rintro ⟨x, ⟨members, hv, readable, hx⟩, ha⟩
    rw [hv, operand?_object read name readable, hx, Option.bind_some, ha]

/-- The operands of a call that has two. -/
theorem operands?_named_eq_some_iff (hne : name ≠ name') {v : Json} {a : α} {b : β} :
    (v.named [name, name']).operand? read name = some a ∧
        (v.named [name, name']).operand? read' name' = some b ↔
      ∃ x y, Gives [name, name'] [x, y] v ∧ read x = some a ∧ read' y = some b := by
  have hnodup : [name, name'].Nodup := by simpa using hne
  simp only [gives_iff_named hnodup, List.map_cons, List.map_nil, List.cons.injEq, and_true]
  constructor
  · rintro ⟨ha, hb⟩
    obtain ⟨members, hv, readable, x, hx, hxa⟩ := exists_of_operand? ha
    rw [hv, operand?_object read' name' readable] at hb
    obtain ⟨y, hy, hyb⟩ := Option.bind_eq_some_iff.mp hb
    exact ⟨x, y, ⟨members, hv, readable, hx, hy⟩, hxa, hyb⟩
  · rintro ⟨x, y, ⟨members, hv, readable, hx, hy⟩, ha, hb⟩
    rw [hv, operand?_object read name readable, operand?_object read' name' readable, hx, hy]
    exact ⟨ha, hb⟩

end Named

end Json

namespace SyscallNumber

theorem ofName?_eq_some_iff {name : String} {n : SyscallNumber} :
    ofName? name = some n ↔ name = n.name := by
  constructor
  · intro h
    rw [ofName?] at h
    have hname := List.find?_some h
    exact (beq_iff_eq.mp hname).symm
  · rintro rfl
    exact ofName?_name n

theorem nodup_operands (n : SyscallNumber) : n.operands.Nodup := by
  cases n <;> decide

end SyscallNumber

namespace Request

open Json (Gives)

/-! ## The values that spell a request -/

/-- The values spell the operands of a request. -/
def SpelledOperands : Request → List Json → Prop
  | .exit status, [x] => x.int32? = some status
  | .write fd data, [x, y] => Descriptor.ofJson? x = some fd ∧ y.bytes? = some data
  | .read fd maxLength, [x, y] => Descriptor.ofJson? x = some fd ∧ y.uint64? = some maxLength
  | .openFile path create, [x, y] => x.string? = some path ∧ y.bool? = some create
  | .closeFile fd, [x] => Descriptor.ofJson? x = some fd
  | .getEnv key, [x] => x.string? = some key
  | .setEnv key value, [x, y] => x.string? = some key ∧ y.string? = some value
  | _, _ => False

/-- A value spells a request: the bare name of the call without operands, or an object whose one
member has the name of the call, with nothing under it where there are no operands. -/
inductive SpelledBy : Request → Json → Prop
  | bare (body : List Json.Part) (name : Json.text? body = some SyscallNumber.getPid.name) :
      SpelledBy .getPid (.string body)
  | null (key : List Json.Part) (name : Json.text? key = some SyscallNumber.getPid.name) :
      SpelledBy .getPid (.object [(key, .null)])
  | called {r : Request} (key : List Json.Part) (v : Json) (values : List Json)
      (name : Json.text? key = some r.number.name) (gives : Gives r.number.operands values v)
      (operands : r.SpelledOperands values) : SpelledBy r (.object [(key, v)])

/-- What is read as the operands of a call spells the operands of a request. -/
theorem spelledOperands_of_ofMember? {n : SyscallNumber} {v : Json} {r : Request}
    (h : ofMember? n.name (v.named n.operands) = some r) : n = r.number ∧
      (r = .getPid ∧ v = .null ∨
        ∃ values, Gives r.number.operands values v ∧ r.SpelledOperands values) := by
  cases n with
  | exit | closeFile | getEnv =>
    obtain ⟨a, ha, ⟨⟩⟩ := Option.bind_eq_some_iff.mp h
    obtain ⟨x, hgives, hx⟩ := Json.operand?_named_eq_some_iff.mp ha
    exact ⟨rfl, .inr ⟨[x], hgives, hx⟩⟩
  | write | read | openFile | setEnv =>
    obtain ⟨a, ha, hrest⟩ := Option.bind_eq_some_iff.mp h
    obtain ⟨b, hb, ⟨⟩⟩ := Option.bind_eq_some_iff.mp hrest
    obtain ⟨x, y, hgives, hx, hy⟩ :=
      (Json.operands?_named_eq_some_iff (by decide)).mp ⟨ha, hb⟩
    exact ⟨rfl, .inr ⟨[x, y], hgives, hx, hy⟩⟩
  | getPid =>
    have hnull : v = .null ∧ r = .getPid := by
      cases v with
      | null => exact ⟨rfl, (Option.some.inj h).symm⟩
      | array items =>
        -- an array, even an empty one, which becomes an empty object, is not null
        rw [Json.named] at h
        split_ifs at h
        all_goals cases h
      | _ => cases h
    exact ⟨hnull.2 ▸ rfl, .inl hnull.symm⟩

/-- What spells the operands of a request is read as the operands of its call. -/
theorem ofMember?_of_spelledOperands {r : Request} {values : List Json} {v : Json}
    (hgives : Gives r.number.operands values v) (h : r.SpelledOperands values) :
    ofMember? r.number.name (v.named r.number.operands) = some r := by
  cases r with
  | exit | closeFile | getEnv =>
    match values, h with
    | [x], hx =>
      exact Option.bind_eq_some_iff.mpr
        ⟨_, Json.operand?_named_eq_some_iff.mpr ⟨x, hgives, hx⟩, rfl⟩
  | write | read | openFile | setEnv =>
    match values, h with
    | [x, y], ⟨hx, hy⟩ =>
      obtain ⟨ha, hb⟩ :=
        (Json.operands?_named_eq_some_iff (by decide)).mpr ⟨x, y, hgives, hx, hy⟩
      exact Option.bind_eq_some_iff.mpr ⟨_, ha, Option.bind_eq_some_iff.mpr ⟨_, hb, rfl⟩⟩
  | getPid => cases h

/-- A value is read as a request exactly when it spells the request. -/
theorem ofWritten?_eq_some_iff {v : Json} {r : Request} :
    ofWritten? v = some r ↔ r.SpelledBy v := by
  constructor
  · intro h
    match v with
    | .null | .bool _ | .number _ | .array _ | .object [] | .object (_ :: _ :: _) => cases h
    | .string body =>
      rw [ofWritten?, ofJson?] at h
      · split_ifs at h with hname
        obtain rfl := Option.some.inj h
        exact .bare body hname
      · intro key v heq
        cases heq
    | .object [(key, v)] =>
      obtain ⟨name, hname, hn⟩ := Option.bind_eq_some_iff.mp h
      obtain ⟨n, hcall, hr⟩ := Option.bind_eq_some_iff.mp hn
      obtain rfl := SyscallNumber.ofName?_eq_some_iff.mp hcall
      obtain ⟨rfl, ⟨rfl, rfl⟩ | ⟨values, hgives, hoperands⟩⟩ := spelledOperands_of_ofMember? hr
      · exact .null key hname
      · exact .called key v values hname hgives hoperands
  · rintro (⟨body, hname⟩ | ⟨key, hname⟩ | ⟨key, v, values, hname, hgives, hoperands⟩)
    · exact if_pos hname
    · rw [ofWritten?, hname]
      rfl
    · rw [ofWritten?, hname, Option.bind_some, SyscallNumber.ofName?_name, Option.bind_some]
      exact ofMember?_of_spelledOperands hgives hoperands

/-! ## What is written -/

/-- A call that is written with its operands, in one way or another, spells a request with these
operands when it is read again. -/
theorem spelledBy_respelled {r : Request} {v : Json} {values : List Json}
    (hgives : Gives r.number.operands values v)
    (h : r.SpelledOperands (values.map Json.respelled)) :
    r.SpelledBy (Json.ofMembers [(r.number.name, v)]).respelled := by
  rw [Json.ofMembers, List.map_singleton, Json.respelled_object, List.map_singleton]
  exact .called _ _ _ (by simp) hgives.respelled h

theorem gives_zip {n : SyscallNumber} (values : List Json)
    (hlen : values.length = n.operands.length) :
    Gives n.operands values (Json.ofMembers (n.operands.zip values)) :=
  .object _ (Json.readable_ofText _) (Json.map_field?_zip n.nodup_operands hlen)

/-- A request that is written and read again spells the request. -/
theorem spelledBy_respelled_toJson (r : Request) : r.SpelledBy r.toJson.respelled := by
  cases r with
  | exit status =>
    exact spelledBy_respelled (gives_zip [Json.ofInt status.toInt] rfl)
      (by simp [SpelledOperands])
  | write fd data =>
    exact spelledBy_respelled (gives_zip [fd.toJson, Json.ofBytes data] rfl)
      (by simp [SpelledOperands])
  | read fd maxLength =>
    exact spelledBy_respelled (gives_zip [fd.toJson, Json.ofNat maxLength.toNat] rfl)
      (by simp [SpelledOperands])
  | openFile path create =>
    exact spelledBy_respelled (gives_zip [Json.ofString path, .bool create] rfl)
      (by simp [SpelledOperands])
  | closeFile fd =>
    exact spelledBy_respelled (gives_zip [fd.toJson] rfl)
      (by simp [SpelledOperands])
  | getPid =>
    rw [toJson, Json.ofString, Json.respelled_string]
    exact .bare _ (by simp)
  | getEnv key =>
    exact spelledBy_respelled (gives_zip [Json.ofString key] rfl)
      (by simp [SpelledOperands])
  | setEnv key value =>
    exact spelledBy_respelled (gives_zip [Json.ofString key, Json.ofString value] rfl)
      (by simp [SpelledOperands])

theorem whole_withOperands {n : SyscallNumber} {operands : List (String × Json)}
    (h : ∀ m ∈ operands, m.2.Whole) : (withOperands n operands).Whole :=
  Json.whole_ofMembers (by simpa using Json.whole_ofMembers h)

theorem whole_toJson (r : Request) : r.toJson.Whole := by
  cases r with
  | getPid => exact Json.whole_ofString _
  | _ =>
    refine whole_withOperands ?_
    simp [Json.whole_ofInt, Json.whole_ofNat, Json.whole_ofString, Json.whole_ofBytes,
      Descriptor.toJson, Json.Whole.bool]

theorem ofJson?_ofMembers (name : String) (v : Json) :
    ofJson? (Json.ofMembers [(name, v)]) = ofMember? name v := by
  rw [Json.ofMembers, List.map_singleton, ofJson?, Json.text?_ofText, Option.bind_some]

/-- A request is read back from its JSON value. -/
theorem ofJson?_toJson (r : Request) : ofJson? r.toJson = some r := by
  cases r with
  | getPid => simp [toJson, Json.ofString, ofJson?, SyscallNumber.name]
  | _ =>
    rw [toJson, withOperands, ofJson?_ofMembers]
    simp (disch := simp) [ofMember?, SyscallNumber.name, Json.operand?_ofMembers,
      List.lookup_cons]

/-- A request is read back from its text. -/
theorem parse?_text (r : Request) : parse? r.text = some r := by
  have hread : Json.parse? r.text = some r.toJson.respelled :=
    Json.parse?_write Json.Layout.blank_compact r.whole_toJson
  rw [parse?, hread, Option.bind_some, ofWritten?_eq_some_iff]
  exact r.spelledBy_respelled_toJson

/-- A text is read as a request exactly when it is the text of a value that spells the request. -/
theorem parse?_eq_some_iff {text : List UInt8} {r : Request} :
    parse? text = some r ↔ ∃ v, Json.parse? text = some v ∧ r.SpelledBy v := by
  simp only [parse?, Option.bind_eq_some_iff, ofWritten?_eq_some_iff]

end Request

namespace Response

theorem envOfJson?_respelled (v : Json) : envOfJson? v.respelled = envOfJson? v := by
  cases v <;> simp [envOfJson?, Json.string?]

theorem ofMember?_respelled (name : String) (v : Json) :
    ofMember? name v.respelled = ofMember? name v := by
  simp only [ofMember?, Json.int32?_respelled, Json.uint64?_respelled, Json.bytes?_respelled,
    Json.descriptor?_respelled, Json.nat?_respelled, envOfJson?_respelled]
  cases v <;> simp

/-- Reading an answer does not depend on how its strings are spelled. -/
theorem ofJson?_respelled (v : Json) : ofJson? v.respelled = ofJson? v := by
  match v with
  | .null | .bool _ | .number _ | .array _ | .object [] | .object (_ :: _ :: _) =>
    simp [ofJson?]
  | .string body => simp [ofJson?]
  | .object [(key, v)] => simp [ofJson?, Json.respellMember, ofMember?_respelled]

theorem ofJson?_ofMembers (name : String) (v : Json) :
    ofJson? (Json.ofMembers [(name, v)]) = ofMember? name v := by
  rw [Json.ofMembers, List.map_singleton, ofJson?, Json.text?_ofText, Option.bind_some]

/-- An answer is read back from its JSON value. -/
theorem ofJson?_toJson (r : Response) : ofJson? r.toJson = some r := by
  cases r with
  | closed | envSet => simp [toJson, Json.ofString, ofJson?, ofName?]
  | env value =>
    cases value with
    | none => simp [toJson, ofJson?_ofMembers, ofMember?, envOfJson?]
    | some value =>
      simp [toJson, ofJson?_ofMembers, ofMember?, envOfJson?, Json.ofString, Json.string?]
  | pid n => simp [toJson, ofJson?_ofMembers, ofMember?, Json.nat?_ofNat n.toNat_lt]
  | _ => simp [toJson, ofJson?_ofMembers, ofMember?]

theorem whole_toJson (r : Response) : r.toJson.Whole := by
  cases r with
  | closed | envSet => exact Json.whole_ofString _
  | env value =>
    cases value with
    | none => exact Json.whole_ofMembers (by simp [Json.Whole.null])
    | some value => exact Json.whole_ofMembers (by simp [Json.whole_ofString])
  | _ =>
    refine Json.whole_ofMembers ?_
    simp [Json.whole_ofInt, Json.whole_ofNat, Json.whole_ofBytes, Descriptor.toJson]

/-- An answer is read back from its text. -/
theorem parse?_text (r : Response) : parse? r.text = some r := by
  have hread : Json.parse? r.text = some r.toJson.respelled :=
    Json.parse?_write Json.Layout.blank_compact r.whole_toJson
  rw [parse?, hread, Option.bind_some, ofJson?_respelled, ofJson?_toJson]

end Response

/-- **Requests and answers are written and read without loss**: each is read back from its text,
so no two of a kind have the same text. A text is read as a request exactly when it is that of a
value that spells the request, and what was read from any such text is read back when it is written
again. -/
theorem Request.parse?_text_and_injective :
    (∀ r : Request, Request.ofJson? r.toJson = some r ∧ Request.parse? r.text = some r) ∧
    (∀ a : Response, Response.ofJson? a.toJson = some a ∧ Response.parse? a.text = some a) ∧
    (∀ (text : List UInt8) (r : Request),
      Request.parse? text = some r ↔ ∃ v, Json.parse? text = some v ∧ r.SpelledBy v) ∧
    (∀ (text : List UInt8) (r : Request),
      Request.parse? text = some r → Request.parse? r.text = Request.parse? text) ∧
    (∀ (text : List UInt8) (a : Response),
      Response.parse? text = some a → Response.parse? a.text = Response.parse? text) ∧
    Function.Injective Request.text ∧ Function.Injective Response.text := by
  refine ⟨fun r => ⟨r.ofJson?_toJson, r.parse?_text⟩, fun a => ⟨a.ofJson?_toJson, a.parse?_text⟩,
    fun text r => Request.parse?_eq_some_iff, fun text r h => ?_, fun text a h => ?_,
    fun r r' h => ?_, fun a a' h => ?_⟩
  · rw [h, r.parse?_text]
  · rw [h, a.parse?_text]
  · apply Option.some.inj
    rw [← r.parse?_text, h, r'.parse?_text]
  · apply Option.some.inj
    rw [← a.parse?_text, h, a'.parse?_text]

/-- A call with its operands in an array, and one with its operands in another order, among other
members: each is read, and what was read is read again from its own text. -/
theorem Request.parse?_text_of_listed_and_of_scattered :
    let listed := Json.ofMembers [("Write", .array [Json.ofNat 1, Json.ofBytes [104, 105]])]
    let scattered := Json.ofMembers [("Open", Json.ofMembers
      [("create", .bool true), ("mode", .array [.null]), ("path", Json.ofString "a")])]
    let write := Request.write ⟨1⟩ [104, 105]
    let openFile := Request.openFile "a" true
    (Request.parse? listed.compact = some write ∧
      Request.parse? write.text = Request.parse? listed.compact) ∧
    Request.parse? scattered.compact = some openFile ∧
      Request.parse? openFile.text = Request.parse? scattered.compact := by
  intro listed scattered write openFile
  obtain ⟨-, -, hiff, hagain, -⟩ := Request.parse?_text_and_injective
  have hlisted : Request.parse? listed.compact = some write := by
    have hwhole : (Json.array [Json.ofNat 1, Json.ofBytes [104, 105]]).Whole :=
      .array (by simp [Json.whole_ofNat, Json.whole_ofBytes])
    refine (hiff _ _).mpr ⟨_, Json.parse?_write Json.Layout.blank_compact
      (Json.whole_ofMembers (by simpa using hwhole)), ?_⟩
    refine Request.spelledBy_respelled (r := write) (.array rfl) ?_
    exact ⟨(Json.descriptor?_respelled _).trans (Json.descriptor?_toJson ⟨1⟩), by simp⟩
  have hscattered : Request.parse? scattered.compact = some openFile := by
    have hwhole : (Json.ofMembers [("create", .bool true), ("mode", .array [.null]),
        ("path", Json.ofString "a")]).Whole := by
      refine Json.whole_ofMembers ?_
      simp [Json.Whole.bool, Json.Whole.array, Json.Whole.null, Json.whole_ofString]
    refine (hiff _ _).mpr ⟨_, Json.parse?_write Json.Layout.blank_compact
      (Json.whole_ofMembers (by simpa using hwhole)), ?_⟩
    have hgives : Json.Gives ["path", "create"] [Json.ofString "a", .bool true]
        (Json.ofMembers [("create", .bool true), ("mode", .array [.null]),
          ("path", Json.ofString "a")]) := by
      refine .object _ (Json.readable_ofText _) ?_
      simp (disch := simp) only [Json.field?_ofMembers]
      rfl
    refine Request.spelledBy_respelled (r := openFile) hgives ?_
    simp [openFile, Request.SpelledOperands]
  exact ⟨⟨hlisted, hagain _ _ hlisted⟩, hscattered, hagain _ _ hscattered⟩

end FileTree
