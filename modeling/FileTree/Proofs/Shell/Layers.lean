import FileTree.Proofs.Shell.Input
import FileTree.Proofs.Store.Audit

/-!
# The layers above a store

A store is reached directly, by path, by the requests of sessions and by what is given to shells.
Any number of these may share it, in any state of their own. All of them only work on it, so its log
stays a full account of it: the entries that were made less those that were taken out are the
entries that there are, and every buffer that the heap handed out stands for a content that was
written.

## Main definitions

* `Store.Touch`: something is done to a store through one of the layers

## Main results

* `Session.works_handle`, `Shell.works_accept`: a layer works on the store
* `Store.size_eq_of_touched`: the account that the log gives
* `Store.size_ne_of_no_capacity`: a log without room gives none
-/

namespace FileTree

/-! ## Requests -/

namespace Session

variable {ses : Session}

/-- A session does not write under the name of the store. -/
theorem component_ne : component ≠ Store.component := by decide

theorem works_trace (ses : Session) (level : Level) (message : String)
    (about : Option (Descriptor × EntryId)) :
    ses.store.Works (ses.trace level message about).store :=
  .remark component_ne .refl

theorem works_writeFile (ses : Session) (fd : Descriptor) (file : OpenFile) (data : List UInt8) :
    ses.store.Works (ses.writeFile fd file data).2.store := by
  unfold writeFile
  split_ifs
  · split
    · exact .refl
    rename_i content _
    have hw : ses.store.Works (ses.store.write file.entry
        (content.take (min file.offset content.length) ++ data)).2 :=
      .perform (.write _ _) .refl
    dsimp only
    generalize ses.store.write file.entry _ = outcome at hw ⊢
    obtain ⟨_ | _, after⟩ := outcome
    · exact hw
    · exact hw
  · exact works_trace ..

theorem works_write (ses : Session) (fd : Descriptor) (data : List UInt8) :
    ses.store.Works (ses.write fd data).2.store := by
  unfold write
  split_ifs
  · exact .refl
  · exact .refl
  · exact works_trace ..
  · split
    · exact works_trace ..
    · exact works_writeFile ..

theorem works_read (ses : Session) (fd : Descriptor) (maxLength : UInt64) :
    ses.store.Works (ses.read fd maxLength).2.store := by
  unfold read
  split_ifs
  · unfold readKeyboard
    split_ifs
    · exact .refl
    · split <;> exact .refl
  · exact works_trace ..
  split
  · exact works_trace ..
  unfold readFile
  split_ifs
  · split <;> exact .refl
  · exact works_trace ..

theorem works_locate (s : Store) (path : String) (create : Bool) :
    s.Works (locate s path create).2 := by
  unfold locate
  split
  · exact .refl
  · split_ifs
    · exact .perform (.createFile path) .refl
    · exact .refl
  · exact .refl

theorem works_openFile (ses : Session) (path : String) (create : Bool) :
    ses.store.Works (ses.openFile path create).2.store := by
  have hl := works_locate ses.store path create
  unfold openFile
  generalize locate ses.store path create = outcome at hl ⊢
  obtain ⟨_ | id, store⟩ := outcome
  · exact hl
  dsimp only
  split
  · exact hl
  split_ifs
  · exact hl
  split
  · exact hl
  split
  · exact hl
  · exact .remark component_ne hl

theorem works_closeFile (ses : Session) (fd : Descriptor) :
    ses.store.Works (ses.closeFile fd).2.store := by
  unfold closeFile
  split_ifs
  · exact works_trace ..
  split
  · exact works_trace ..
  · exact .remark component_ne .refl

/-- Serving a request is work on the store. -/
theorem works_handle (ses : Session) (r : Request) : ses.store.Works (ses.handle r).2.store := by
  cases r with
  | exit status => exact works_trace { ses with exitStatus := some status } ..
  | write fd data => exact works_write ..
  | read fd maxLength => exact works_read ..
  | openFile path create => exact works_openFile ..
  | closeFile fd => exact works_closeFile ..
  | getPid => exact .refl
  | getEnv key => exact .refl
  | setEnv key value =>
    simp only [handle, setEnv]
    split_ifs <;> exact .refl

end Session

/-! ## What is given to a shell -/

namespace Shell

/-- A shell does not write under the name of the store either. -/
theorem component_ne : component ≠ Store.component := by decide

theorem works_print (sh : Shell) (fd : Descriptor) (text : String) :
    sh.session.store.Works (sh.print fd text).session.store := by
  unfold print
  split_ifs
  · exact .refl
  have hh := sh.session.works_handle (.write fd (Text.bytes text))
  generalize sh.session.handle (.write fd (Text.bytes text)) = outcome at hh ⊢
  obtain ⟨_ | _, session⟩ := outcome
  · exact .remark component_ne hh
  · exact hh

theorem works_start (sh : Shell) : sh.session.store.Works sh.start.session.store :=
  works_print ..

theorem works_echoText (sh : Shell) (text : String) :
    sh.session.store.Works (sh.echoText text).session.store := by
  unfold echoText
  split_ifs
  · exact works_print ..
  · exact .refl

theorem works_request (sh : Shell) (name : String) (r : Request) :
    sh.session.store.Works (sh.request name r).2.session.store := by
  have hh := sh.session.works_handle r
  unfold request
  generalize sh.session.handle r = outcome at hh ⊢
  obtain ⟨_ | _, session⟩ := outcome
  · exact hh
  · exact hh

theorem works_leave (sh : Shell) (operand : String) :
    sh.session.store.Works (sh.leave operand).2.session.store := by
  unfold leave
  split
  · exact .refl
  rename_i status _
  have hr := sh.works_request "exit" (.exit status)
  generalize sh.request "exit" (.exit status) = outcome at hr ⊢
  obtain ⟨_ | _, sh₁⟩ := outcome
  · exact hr
  · exact hr

theorem works_perform (sh : Shell) (command : Command) :
    sh.session.store.Works (sh.perform command).2.session.store := by
  cases command with
  | file c =>
    rw [store_perform_file, FileCommand.store_run]
    split
    · exact ByPath.works_perform _ _
    · exact .refl
  | help => exact .refl
  | echo text => exact .refl
  | set key value => exact works_request ..
  | env => exact .refl
  | exit status => exact works_leave ..

theorem works_execute (sh : Shell) (line : String) :
    sh.session.store.Works (sh.execute line).2.session.store := by
  unfold execute
  split
  · exact .refl
  · exact works_perform ..

theorem works_runLine (sh : Shell) (line : String) :
    sh.session.store.Works (sh.runLine line).session.store := by
  have he := sh.works_execute line
  unfold runLine
  generalize sh.execute line = outcome at he ⊢
  obtain ⟨e | answer, sh₁⟩ := outcome
  · exact he.trans (works_print ..)
  · dsimp only
    split_ifs
    · exact he
    · exact he.trans (works_print ..)

theorem works_submit (sh : Shell) (line : String) :
    sh.session.store.Works (sh.submit line).session.store := by
  have hecho := sh.works_echoText "\n"
  have hline : sh.session.store.Works
      (if (Text.trim line).isEmpty then sh.echoText "\n"
        else (sh.echoText "\n").runLine line).session.store := by
    split_ifs
    · exact hecho
    · exact hecho.trans (works_runLine ..)
  unfold submit
  dsimp only
  generalize (if (Text.trim line).isEmpty then sh.echoText "\n"
    else (sh.echoText "\n").runLine line) = sh₁ at hline ⊢
  split_ifs
  · exact hline.trans sh₁.works_start
  · exact hline

theorem works_press (sh : Shell) (b : UInt8) :
    sh.session.store.Works (sh.press b).session.store := by
  unfold press
  generalize sh.editor.press b = outcome
  obtain ⟨outcome, editor⟩ := outcome
  cases outcome <;> dsimp only
  case echo b => exact works_echoText { sh with editor := editor } _
  case erase => exact works_echoText { sh with editor := editor } _
  case submit line => exact works_submit { sh with editor := editor } line
  case ignored => exact .refl

theorem works_take (sh : Shell) : sh.session.store.Works sh.take.session.store := by
  rw [take_eq]
  split_ifs
  · cases sh.session.keyboard.pending with
    | nil => exact .refl
    | cons b rest =>
      exact works_press { sh with session := { sh.session with keyboard := ⟨rest⟩ } } b
  · exact .refl

/-- Accepting an input is work on the store. -/
theorem works_accept (sh : Shell) (input : Input) :
    sh.session.store.Works (sh.accept input).session.store := by
  cases input <;> dsimp only [accept]
  case execute line => exact sh.works_execute line
  case runLine line => exact sh.works_runLine line
  case type bytes => exact .refl
  case take => exact sh.works_take

end Shell

namespace Store

/-- Something is done to a store: directly, by path, by a request of a session that has it, or by an
input of a shell that has it or by its prompt. -/
inductive Touch (s : Store) : Store → Prop
  | direct (op : Operation) : Touch s (s.perform op).2
  | byPath (op : ByPath.Operation) : Touch s (ByPath.perform s op).2
  | session {ses : Session} (r : Request) : ses.store = s → Touch s (ses.handle r).2.store
  | shell {sh : Shell} (input : Shell.Input) : sh.session.store = s →
      Touch s (sh.accept input).session.store
  | prompt {sh : Shell} : sh.session.store = s → Touch s sh.start.session.store

variable {s s' : Store}

theorem Touch.works (h : s.Touch s') : s.Works s' := by
  cases h with
  | direct op => exact .perform op .refl
  | byPath op => exact ByPath.works_perform s op
  | session r heq => exact heq ▸ Session.works_handle _ r
  | shell input heq => exact heq ▸ Shell.works_accept _ input
  | prompt heq => exact heq ▸ Shell.works_start _

/-- However a store is reached, all that is done to it is work. -/
theorem works_of_touched (h : Relation.ReflTransGen Touch s s') : s.Works s' := by
  induction h with
  | refl => exact .refl
  | tail _ hstep ih => exact ih.trans hstep.works

/-- All work on a sound store is on record. -/
theorem Works.audited (h : s.Works s') (hs : s.Sound) : s.Audited s' := by
  induction h with
  | refl => exact .refl s
  | perform op h ih => exact ih.trans ((h.reaches.sound hs).audited_perform op)
  | remark hr _ ih => exact ih.trans (audited_record (Record.plain_of_component_ne hr))

/-- **The log of a store is a full account of it** as long as it has lost no record: the entries
made less the entries taken out, and the root, are the entries that there are; and as many contents
were written as buffers were handed out. -/
theorem size_eq_of_touched {id : StoreId} {config : Config} {limit : Option Nat} {s₀ s : Store}
    (hfresh : fresh id config { limit := limit } = .ok s₀) (hcapacity : 0 < config.logCapacity)
    (hrun : Relation.ReflTransGen Touch s₀ s) (hheld : s.log.size = s.log.nextSequence) :
    (Record.creations s.log.toList : Int) - Record.removals s.log.toList + 1 = s.table.size ∧
      Record.writes s.log.toList = s.heap.stats.totalAllocations := by
  obtain ⟨hcheck, rfl⟩ := fresh_eq_ok_iff.mp hfresh
  obtain ⟨_, _, _, ⟨rs, hlog, rfl, rfl, rfl⟩, hsize, hgiven⟩ :=
    (works_of_touched hrun).audited (sound_init hcheck id _)
  obtain ⟨r, hr, hstart⟩ := exists_log_init id config { limit := limit }
  have hpos : 0 < config.logCapacity.toNat := UInt64.lt_iff_toNat_lt.mp hcapacity
  have hholds : s.log.Holds ([] ++ [r] ++ rs) := by
    rw [hlog, hstart]
    exact Log.holds_foldl ((Log.holds_new hpos).record r) rs
  rw [size_init] at hsize
  have hnone : (init id config { limit := limit }).heap.stats.totalAllocations = 0 := rfl
  rw [hnone, Nat.zero_add] at hgiven
  rw [hholds.toList_eq hheld, Record.creations_mapIdx_asHeld, Record.removals_mapIdx_asHeld,
    Record.writes_mapIdx_asHeld, List.nil_append, Record.creations_append, Record.removals_append,
    Record.writes_append, hr.creations_eq, hr.removals_eq, hr.writes_eq]
  constructor
  · omega
  · omega

/-- A directory is made directly, a file is written by path, another one is opened by a session, and
a shell removes the directory. -/
theorem size_eq_of_touched_through_layers :
    let config : Config := { maxEntries := 8, logCapacity := 32 }
    let s₀ := init ⟨0⟩ config { limit := none }
    let s₁ := (s₀.perform (.createDirectory "d")).2
    let s₂ := (ByPath.perform s₁ (.write "f" [1, 2])).2
    let s₃ := (Session.handle { store := s₂ } (.openFile "g" true)).2.store
    let s := (Shell.accept { session := { store := s₃ } } (.execute "rm d")).session.store
    (fresh ⟨0⟩ config { limit := none } = .ok s₀ ∧ 0 < config.logCapacity ∧
      Relation.ReflTransGen Touch s₀ s ∧ s.log.size = s.log.nextSequence) ∧
    s.table.size = 3 ∧
    (Record.creations s.log.toList : Int) - Record.removals s.log.toList + 1 = s.table.size ∧
      Record.writes s.log.toList = s.heap.stats.totalAllocations := by
  intro config s₀ s₁ s₂ s₃ s
  have hfresh : fresh ⟨0⟩ config { limit := none } = .ok s₀ := rfl
  have hcapacity : 0 < config.logCapacity := by decide
  have h₁ : s₀.Touch s₁ := .direct _
  have h₂ : s₁.Touch s₂ := .byPath _
  -- stated for every store, so that none of the concrete ones is computed here
  have h₃ : ∀ s : Store, s.Touch (Session.handle { store := s } (.openFile "g" true)).2.store :=
    fun s => .session _ rfl
  have h₄ : ∀ s : Store, s.Touch
      (Shell.accept { session := { store := s } } (.execute "rm d")).session.store :=
    fun s => .shell _ rfl
  have hrun : Relation.ReflTransGen Touch s₀ s :=
    (((Relation.ReflTransGen.single h₁).tail h₂).tail (h₃ s₂)).tail (h₄ s₃)
  have hheld : s.log.size = s.log.nextSequence := by decide +kernel
  have hsize : s.table.size = 3 := by decide +kernel
  exact ⟨⟨hfresh, hcapacity, hrun, hheld⟩, hsize,
    size_eq_of_touched hfresh hcapacity hrun hheld⟩

/-- A log without room keeps no record, so it has lost none, and gives no account of the store. -/
theorem size_ne_of_no_capacity :
    let config : Config := { maxEntries := 4, logCapacity := 0 }
    let s₀ := init ⟨0⟩ config { limit := none }
    let s := (s₀.perform (.createFile "f")).2
    fresh ⟨0⟩ config { limit := none } = .ok s₀ ∧ Relation.ReflTransGen Touch s₀ s ∧
      s.log.size = s.log.nextSequence ∧ s.table.size = 2 ∧
      (Record.creations s.log.toList : Int) - Record.removals s.log.toList + 1 ≠ s.table.size := by
  intro config s₀ s
  have htouch : s₀.Touch s := .direct _
  refine ⟨rfl, .single htouch, ?_, ?_, ?_⟩ <;> decide

end Store

end FileTree
