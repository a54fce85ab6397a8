import FileTree.Proofs.Session.Event

/-!
# What a return code tells

The raw interface folds answers and failures into one number.  Failures are negative, but so are
the statuses of processes that left in trouble, and the code for a variable that is not set.  These
two stand for requests that are never refused.  Every other answer is a length, a number or zero,
and shows as a number that is not negative, as long as lengths fit.  So whoever knows what was
asked can tell from the code whether it was served.

## Main definitions

* `Request.alwaysServed`: the kinds of requests that are never refused
* `Request.ShowsServed`: a code of a request that was served
* `Request.Short`, `Store.Short`: what is written, or stored, has fewer bytes than codes can count
* `Session.Answers`: the answers that a request can get

## Main results

* `Session.answers_handle`: a request that is served gets one of its answers
* `Session.showsServed_iff`: the code of a request tells whether it was served
* `Session.dispatch_ne_of_outcomes`: a request has different codes where it is served and where it
  is refused
-/

namespace FileTree

/-- The lengths below this number are shown as they are. -/
def Response.countLimit : Nat := 2 ^ 63

namespace Request

/-- The kinds of requests that are never refused: to leave, and to ask for the process or for a
variable. -/
def alwaysServed : Request → Bool
  | .exit _ | .getPid | .getEnv _ => true
  | .write _ _ | .read _ _ | .openFile _ _ | .closeFile _ | .setEnv _ _ => false

/-- The code is one that the request has when it is served. -/
def ShowsServed (r : Request) (code : Int) : Prop :=
  r.alwaysServed = true ∨ 0 ≤ code

instance (r : Request) (code : Int) : Decidable (r.ShowsServed code) :=
  inferInstanceAs (Decidable (_ ∨ _))

/-- What the request writes has fewer bytes than codes can count. -/
def Short : Request → Prop
  | .write _ data => data.length < Response.countLimit
  | _ => True

end Request

/-- Each file of the store has fewer bytes than codes can count. -/
def Store.Short (s : Store) : Prop :=
  ∀ slot ∈ s.table.slots, ∀ e ∈ slot.occupant, e.data.length < Response.countLimit

theorem Response.wrapped_of_lt {n : Nat} (h : n < countLimit) : wrapped n = n := by
  have hlt : n < 2 ^ 63 := h
  exact Int.bmod_eq_of_le (by rw [UInt64.size]; omega) (by rw [UInt64.size]; omega)

/-- What is read from a short store is short. -/
theorem Store.Short.length_lt_of_readAll {s : Store} (hs : s.Short) {id : EntryId}
    {data : List UInt8} (h : s.readAll id = .ok data) : data.length < Response.countLimit := by
  unfold readAll Table.get at h
  cases hf : s.table.find? id with
  | none =>
    simp only [hf] at h
    cases h
  | some e =>
    obtain ⟨slot, hslot, hoccupant⟩ := Option.bind_eq_some_iff.mp hf
    simp only [hf] at h
    split_ifs at h
    obtain rfl := Except.ok.inj h
    exact hs slot (Array.mem_of_getElem? hslot) e hoccupant

namespace Session

/-- The answers that a request can get. -/
inductive Answers (ses : Session) : Request → Response → Prop
  | exited (status : Int32) : Answers ses (.exit status) (.exited status)
  | count (fd : Descriptor) (data : List UInt8) :
      Answers ses (.write fd data) (.count data.length.toUInt64)
  | keys {fd : Descriptor} {maxLength : UInt64} {bytes : List UInt8} : bytes.length ≤ 1 →
      Answers ses (.read fd maxLength) (.data bytes)
  | content {fd : Descriptor} {maxLength : UInt64} {id : EntryId} {data bytes : List UInt8} :
      ses.store.readAll id = .ok data → bytes.length ≤ data.length →
      Answers ses (.read fd maxLength) (.data bytes)
  | opened (path : String) (create : Bool) (fd : Descriptor) :
      Answers ses (.openFile path create) (.opened fd)
  | closed (fd : Descriptor) : Answers ses (.closeFile fd) .closed
  | pid : Answers ses .getPid (.pid currentPid)
  | env (key : String) : Answers ses (.getEnv key) (.env (ses.environment.get? key))
  | envSet (key value : String) : Answers ses (.setEnv key value) .envSet

variable {ses s t : Session} {r : Request} {response : Response} {cause : SyscallError}

/-! ## The answers -/

theorem answers_write {fd : Descriptor} {data : List UInt8}
    (h : (ses.write fd data).1 = .ok response) : ses.Answers (.write fd data) response := by
  unfold write at h
  split_ifs at h
  · obtain rfl := Except.ok.inj h
    exact .count fd data
  · cases h
  · split at h
    · cases h
    unfold writeFile at h
    split_ifs at h
    · split at h
      · cases h
      dsimp only at h
      split at h
      · cases h
      · obtain rfl := Except.ok.inj h
        exact .count fd data
    · cases h

theorem answers_read {fd : Descriptor} {maxLength : UInt64}
    (h : (ses.read fd maxLength).1 = .ok response) : ses.Answers (.read fd maxLength) response := by
  unfold read at h
  split_ifs at h
  · unfold readKeyboard at h
    split_ifs at h
    · obtain rfl := Except.ok.inj h
      exact .keys (Nat.zero_le 1)
    · split at h <;> obtain rfl := Except.ok.inj h
      · exact .keys (Nat.zero_le 1)
      · exact .keys (Nat.le_refl 1)
  · cases h
  · split at h
    · cases h
    unfold readFile at h
    split_ifs at h
    · split at h
      · cases h
      rename_i hread
      obtain rfl := Except.ok.inj h
      refine .content hread ?_
      rw [List.length_take, List.length_drop]
      omega
    · cases h

theorem answers_openFile {path : String} {create : Bool}
    (h : (ses.openFile path create).1 = .ok response) :
    ses.Answers (.openFile path create) response := by
  unfold openFile at h
  split at h
  · cases h
  dsimp only at h
  split at h
  · cases h
  split_ifs at h
  split at h
  · cases h
  split at h
  · cases h
  · obtain rfl := Except.ok.inj h
    exact .opened path create _

theorem answers_closeFile {fd : Descriptor} (h : (ses.closeFile fd).1 = .ok response) :
    ses.Answers (.closeFile fd) response := by
  unfold closeFile at h
  split_ifs at h
  · cases h
  split at h
  · cases h
  · obtain rfl := Except.ok.inj h
    exact .closed fd

theorem answers_setEnv {key value : String} (h : (ses.setEnv key value).1 = .ok response) :
    ses.Answers (.setEnv key value) response := by
  unfold setEnv at h
  split_ifs at h
  obtain rfl := Except.ok.inj h
  exact .envSet key value

/-- A request that is served gets one of its answers. -/
theorem answers_handle (h : (ses.handle r).1 = .ok response) : ses.Answers r response := by
  cases r with
  | exit status =>
    obtain rfl := Except.ok.inj h
    exact .exited status
  | write fd data => exact answers_write h
  | read fd maxLength => exact answers_read h
  | openFile path create => exact answers_openFile h
  | closeFile fd => exact answers_closeFile h
  | getPid =>
    obtain rfl := Except.ok.inj h
    exact .pid
  | getEnv key =>
    obtain rfl := Except.ok.inj h
    exact .env key
  | setEnv key value => exact answers_setEnv h

/-- Requests of the kinds that are never refused are served. -/
theorem exists_response_of_alwaysServed (ses : Session) (hr : r.alwaysServed = true) :
    ∃ response, (ses.handle r).1 = .ok response := by
  cases r with
  | exit status => exact ⟨.exited status, rfl⟩
  | getPid => exact ⟨.pid currentPid, rfl⟩
  | getEnv key => exact ⟨.env (ses.environment.get? key), rfl⟩
  | _ => cases hr

/-! ## Their codes -/

/-- Answers to requests that may be refused show as codes that are not negative. -/
theorem Answers.returnCode_nonneg (h : ses.Answers r response) (hr : r.Short)
    (hs : ses.store.Short) (hrefusable : r.alwaysServed = false) : 0 ≤ response.returnCode := by
  cases h with
  -- the answers that may show negative codes are to requests that are never refused
  | exited _ | pid | env _ => cases hrefusable
  | count fd data =>
    have hlt : data.length < Response.countLimit := hr
    have hlength : data.length.toUInt64.toNat = data.length :=
      Nat.mod_eq_of_lt (Nat.lt_trans hlt (by decide))
    rw [Response.returnCode, hlength, Response.wrapped_of_lt hlt]
    exact Int.natCast_nonneg _
  | keys hle =>
    rw [Response.returnCode, Response.wrapped_of_lt (Nat.lt_of_le_of_lt hle (by decide))]
    exact Int.natCast_nonneg _
  | content hread hle =>
    have hlt := Nat.lt_of_le_of_lt hle (hs.length_lt_of_readAll hread)
    rw [Response.returnCode, Response.wrapped_of_lt hlt]
    exact Int.natCast_nonneg _
  | opened path create fd => exact Int.natCast_nonneg _
  | closed _ | envSet _ _ => exact Int.le_refl 0

theorem dispatch_fst (ses : Session) (r : Request) :
    (ses.dispatch r).1 = returnCode (ses.handle r).1 :=
  rfl

theorem showsServed_of_served (hr : r.Short) (hs : ses.store.Short)
    (h : (ses.handle r).1 = .ok response) : r.ShowsServed (ses.dispatch r).1 := by
  rw [dispatch_fst, h, returnCode]
  cases hserved : r.alwaysServed with
  | true => exact .inl hserved
  | false => exact .inr ((answers_handle h).returnCode_nonneg hr hs hserved)

theorem not_showsServed_of_refused (h : (ses.handle r).1 = .error cause) :
    ¬ r.ShowsServed (ses.dispatch r).1 := by
  rw [dispatch_fst, h, returnCode]
  rintro (hserved | hle)
  · obtain ⟨response, hok⟩ := ses.exists_response_of_alwaysServed hserved
    rw [h] at hok
    cases hok
  · exact Int.not_le.mpr cause.returnCode_neg hle

/-- The code of a request tells whether it was served. -/
theorem showsServed_iff (hr : r.Short) (hs : ses.store.Short) :
    r.ShowsServed (ses.dispatch r).1 ↔ ∃ response, (ses.handle r).1 = .ok response := by
  constructor
  · intro hshows
    cases h : (ses.handle r).1 with
    | ok response => exact ⟨response, rfl⟩
    | error cause => exact absurd hshows (not_showsServed_of_refused h)
  · rintro ⟨response, h⟩
    exact showsServed_of_served hr hs h

/-- The code for a variable that is not set is also that of an operation not permitted. -/
example : Response.returnCode (.env none) = SyscallError.returnCode (.store .cannotDeleteRoot) ∧
    Request.ShowsServed (.getEnv "HOME") (-1) ∧ ¬ Request.ShowsServed (.openFile "/" false) (-1) := by
  decide

/-- **A request has different codes where it is served and where it is refused**, in any two
sessions, and each code tells, given the request, which of the two it was. -/
theorem dispatch_ne_of_outcomes (hr : r.Short) (hs : s.store.Short)
    (hserved : (s.handle r).1 = .ok response) (hrefused : (t.handle r).1 = .error cause) :
    (s.dispatch r).1 ≠ (t.dispatch r).1 ∧
      r.ShowsServed (s.dispatch r).1 ∧ ¬ r.ShowsServed (t.dispatch r).1 := by
  have hshows := showsServed_of_served hr hs hserved
  have hhides := not_showsServed_of_refused hrefused
  exact ⟨fun heq => hhides (heq ▸ hshows), hshows, hhides⟩

/-- A file is read where it is open, and the descriptor is bad where it is not. -/
theorem dispatch_ne_of_open_and_unopened :
    let t : Session := { store := Store.init ⟨0⟩ { maxEntries := 4, logCapacity := 0 } {} }
    let s := t.run [.call (.openFile "f" true), .call (.write ⟨3⟩ [104, 105]),
      .call (.closeFile ⟨3⟩), .call (.openFile "f" false)]
    let r : Request := .read ⟨3⟩ 8
    (r.Short ∧ s.store.Short ∧ (s.handle r).1 = .ok (.data [104, 105]) ∧
        (t.handle r).1 = .error (.badDescriptor ⟨3⟩)) ∧
      (s.dispatch r).1 ≠ (t.dispatch r).1 ∧
        r.ShowsServed (s.dispatch r).1 ∧ ¬ r.ShowsServed (t.dispatch r).1 := by
  intro t s r
  have hs : s.store.Short := by
    unfold Store.Short
    decide +kernel
  have hserved : (s.handle r).1 = .ok (.data [104, 105]) := by decide +kernel
  have hrefused : (t.handle r).1 = .error (.badDescriptor ⟨3⟩) := by decide +kernel
  exact ⟨⟨trivial, hs, hserved, hrefused⟩, dispatch_ne_of_outcomes trivial hs hserved hrefused⟩

end Session

end FileTree
