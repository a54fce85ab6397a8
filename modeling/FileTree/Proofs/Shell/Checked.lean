import FileTree.Proofs.Session.Checked
import FileTree.Proofs.Shell.Layers

/-!
# Command lines with checked accesses

The command lines of a shell once more, with checked accesses: of the operations and questions by
path, of the requests by which the shell leaves and shows its answers, and of the part of the log
that is shown. Over a reachable store no access is out of range in any layer, and no refusal is
internal. Asked directly, such a store blames none but the identifier that it was given.

## Main definitions

* `Shell.checkedExecute`, `Shell.checkedRunLine`: carries out a line, with checked accesses
* `CommandError.Internal`: a line is refused internally
* `Store.Unfailing`: nothing that is asked of a store, through whatever layer, can go wrong inside

## Main results

* `Shell.checkedExecute_eq`, `Shell.checkedRunLine_eq`: no access is out of range
* `Shell.not_internal_of_execute`: no refusal is internal
* `Store.Reachable.unfailing`: every reachable store over a heap is unfailing
-/

namespace FileTree

/-- The store refuses, and its refusal is internal. -/
def CommandError.Internal : CommandError → Prop
  | .refused _ cause => cause.Internal
  | .failed _ cause => cause.Internal
  | _ => False

/-! ## Commands on files -/

namespace FileCommand

variable {s : Store} {cause : CommandError}

/-- The last lines of the log of a store. The place of the first one is checked. -/
def checkedLogTail (s : Store) (count : Nat) : Option String :=
  (slice? s.log.lines (s.log.lines.length - count) s.log.lines.length).map joinLines

theorem checkedLogTail_eq (s : Store) (count : Nat) :
    checkedLogTail s count = some (logTail s count) := by
  rw [checkedLogTail, slice?_eq (Nat.sub_le _ _) (Nat.le_refl _), Option.map_some,
    List.take_of_length_le (Nat.le_of_eq List.length_drop)]
  rfl

/-- Carries out a command. -/
def checkedRun (s : Store) : FileCommand → Option (Except CommandError String × Store)
  | mkdir path =>
    (ByPath.checkedMakeDirectory s path).map
      (change "mkdir" fun id => s!"Created directory: {id}")
  | cat path => (ByPath.checkedRead s path).map fun answer => (look "cat" Text.lossy answer, s)
  | touch path =>
    (ByPath.checkedMakeFile s path).map (change "touch" fun id => s!"Created file: {id}")
  | write path text =>
    (ByPath.checkedWrite s path (Text.bytes text)).map
      (change "write" fun _ => s!"Wrote {text.utf8ByteSize} bytes to {path}")
  | rm path => (ByPath.checkedRemove s path).map (change "rm" fun n => s!"Removed {n} entries")
  | mv path newName =>
    (ByPath.checkedRename s path newName).map
      (change "mv" fun _ => s!"Renamed {path} to {newName}")
  | cp source destination =>
    (ByPath.checkedCopy s source destination).map
      (change "cp" fun id => s!"Copied {source} to {destination} ({id})")
  | log count =>
    match logCount? count with
    | some n => (checkedLogTail s n).map fun text => (.ok text, s)
    | none => some (.error (.notANumber "log" count), s)
  | ls path => some (run s (.ls path))
  | cd path => some (run s (.cd path))
  | pwd => some (run s .pwd)
  | find pattern => some (run s (.find pattern))
  | du path => some (run s (.du path))
  | stat path => some (run s (.stat path))

theorem checkedRun_eq (hs : s.Orderly) (c : FileCommand) : c.checkedRun s = some (c.run s) := by
  cases c with
  | mkdir path =>
    rw [checkedRun, ByPath.checkedMakeDirectory_eq hs]
    rfl
  | cat path =>
    rw [checkedRun, ByPath.checkedRead_eq hs]
    rfl
  | touch path =>
    rw [checkedRun, ByPath.checkedMakeFile_eq hs]
    rfl
  | write path text =>
    rw [checkedRun, ByPath.checkedWrite_eq hs]
    rfl
  | rm path =>
    rw [checkedRun, ByPath.checkedRemove_eq hs]
    rfl
  | mv path newName =>
    rw [checkedRun, ByPath.checkedRename_eq]
    rfl
  | cp source destination =>
    rw [checkedRun, ByPath.checkedCopy_eq hs]
    rfl
  | log count =>
    dsimp only [checkedRun, run]
    cases logCount? count with
    | none => rfl
    | some n =>
      dsimp only
      rw [checkedLogTail_eq, Option.map_some]
  | ls path => rfl
  | cd path => rfl
  | pwd => rfl
  | find pattern => rfl
  | du path => rfl
  | stat path => rfl

/-- What a command is refused is what the operation by path is refused. -/
theorem not_internal_of_look {α : Type} {name : String} {text : α → String}
    {answer : Except OperationError α} (ha : ∀ c, answer = .error c → ¬ c.Internal)
    (h : look name text answer = .error cause) : ¬ cause.Internal := by
  cases answer with
  | error c =>
    obtain rfl := Except.error.inj h
    exact ha c rfl
  | ok a => cases h

theorem not_internal_of_change {α : Type} {name : String} {text : α → String}
    {outcome : Except OperationError α × Store}
    (ha : ∀ c, outcome.1 = .error c → ¬ c.Internal)
    (h : (change name text outcome).1 = .error cause) : ¬ cause.Internal :=
  not_internal_of_look ha h

theorem not_internal_of_run (hs : s.Sound) {c : FileCommand} (h : (c.run s).1 = .error cause) :
    ¬ cause.Internal := by
  cases c with
  | ls path => exact not_internal_of_look (fun _ => ByPath.not_internal_of_list hs) h
  | mkdir path => exact not_internal_of_change (fun _ => ByPath.not_internal_of_makeDirectory hs) h
  | cd path => exact not_internal_of_change (fun _ => ByPath.not_internal_of_enter hs) h
  | pwd => exact not_internal_of_look (fun _ => ByPath.not_internal_of_current hs) h
  | cat path => exact not_internal_of_look (fun _ => ByPath.not_internal_of_read hs) h
  | touch path => exact not_internal_of_change (fun _ => ByPath.not_internal_of_makeFile hs) h
  | write path text => exact not_internal_of_change (fun _ => ByPath.not_internal_of_write hs) h
  | rm path => exact not_internal_of_change (fun _ => ByPath.not_internal_of_remove hs) h
  | mv path newName => exact not_internal_of_change (fun _ => ByPath.not_internal_of_rename hs) h
  | cp source destination =>
    exact not_internal_of_change (fun _ => ByPath.not_internal_of_copy hs) h
  | find pattern => exact not_internal_of_look (fun _ => ByPath.not_internal_of_find hs) h
  | du path => exact not_internal_of_look (fun _ => ByPath.not_internal_of_usage hs) h
  | stat path => exact not_internal_of_look (fun _ => ByPath.not_internal_of_stat hs) h
  | log count =>
    dsimp only [run] at h
    cases hcount : logCount? count with
    | none =>
      rw [hcount] at h
      obtain rfl := Except.error.inj h
      exact not_false
    | some n =>
      rw [hcount] at h
      cases h

end FileCommand

/-! ## Command lines -/

namespace Command

variable {name operands line : String} {cause : CommandError}

theorem not_internal_of_withOperand {make : String → FileCommand}
    (h : withOperand name operands make = .error cause) : ¬ cause.Internal := by
  unfold withOperand at h
  split_ifs at h
  obtain rfl := Except.error.inj h
  exact not_false

theorem not_internal_of_withTwoOperands {make : String → String → FileCommand}
    (h : withTwoOperands name operands make = .error cause) : ¬ cause.Internal := by
  unfold withTwoOperands at h
  dsimp only at h
  split_ifs at h
  obtain rfl := Except.error.inj h
  exact not_false

/-- A line that spells no command is refused for its words. -/
theorem not_internal_of_parse (h : parse line = .error cause) : ¬ cause.Internal := by
  unfold parse ofWords at h
  dsimp only at h
  split at h
  case h_3 | h_6 | h_7 | h_9 => exact not_internal_of_withOperand h
  case h_8 | h_10 | h_11 => exact not_internal_of_withTwoOperands h
  case h_20 =>
    obtain rfl := Except.error.inj h
    exact not_false
  all_goals cases h

end Command

namespace Shell

variable {sh : Shell} {cause : CommandError}

/-- Writes a text to the console. -/
def checkedPrint (sh : Shell) (fd : Descriptor) (text : String) : Option Shell :=
  if text.isEmpty then some sh
  else
    (sh.session.checkedHandle (.write fd (Text.bytes text))).map fun
      | (.ok _, session) => { sh with session := session }
      | (.error e, session) =>
        { sh with session := session.record {
            level := .warn, component
            message := "console write failed: " ++ e.message } }

theorem checkedPrint_eq (hs : sh.session.store.Orderly) (fd : Descriptor) (text : String) :
    sh.checkedPrint fd text = some (sh.print fd text) := by
  unfold checkedPrint print
  split_ifs
  · rfl
  · rw [Session.checkedHandle_eq hs]
    rfl

/-- Carries out a command and gives its answer. The requests by which the shell sets variables and
leaves have to do with neither the store nor parts of data. -/
def checkedPerform (sh : Shell) : Command → Option (Except CommandError String × Shell)
  | .file command =>
    (command.checkedRun sh.session.store).map fun outcome =>
      let sh := sh.withStore outcome.2
      (outcome.1, if mayMoveCursor command then sh.refreshCwd else sh)
  | .help => some (sh.perform .help)
  | .echo text => some (sh.perform (.echo text))
  | .set key value => some (sh.perform (.set key value))
  | .env => some (sh.perform .env)
  | .exit status => some (sh.perform (.exit status))

theorem checkedPerform_eq (hs : sh.session.store.Orderly) (c : Command) :
    sh.checkedPerform c = some (sh.perform c) := by
  cases c with
  | file command =>
    rw [checkedPerform, FileCommand.checkedRun_eq hs]
    rfl
  | help => rfl
  | echo text => rfl
  | set key value => rfl
  | env => rfl
  | exit status => rfl

/-- Carries out a line and gives its answer. -/
def checkedExecute (sh : Shell) (line : String) : Option (Except CommandError String × Shell) :=
  match Command.parse line with
  | .error e => some (.error e, sh)
  | .ok command => sh.checkedPerform command

/-- **No command line over an orderly store makes an access that is out of range.** -/
theorem checkedExecute_eq (hs : sh.session.store.Orderly) (line : String) :
    sh.checkedExecute line = some (sh.execute line) := by
  unfold checkedExecute execute
  cases Command.parse line with
  | error c => rfl
  | ok command => exact checkedPerform_eq hs command

/-- Carries out a line and shows its answer. -/
def checkedRunLine (sh : Shell) (line : String) : Option Shell :=
  (sh.checkedExecute line).bind fun
    | (.ok answer, sh) =>
      if answer.isEmpty then some sh else sh.checkedPrint .stdout (answer ++ "\n")
    | (.error e, sh) => sh.checkedPrint .stderr (e.message ++ "\n")

theorem checkedRunLine_eq (hs : sh.session.store.Orderly) (line : String) :
    sh.checkedRunLine line = some (sh.runLine line) := by
  have hafter := (works_execute sh line).reaches.orderly hs
  have hexecute := checkedExecute_eq hs line
  unfold checkedRunLine runLine
  generalize sh.execute line = outcome at hafter hexecute ⊢
  rw [hexecute, Option.bind_some]
  obtain ⟨e | answer, after⟩ := outcome
  · exact checkedPrint_eq hafter _ _
  · dsimp only
    split_ifs
    · rfl
    · exact checkedPrint_eq hafter _ _

theorem not_internal_of_request (hs : sh.session.store.Sound) {name : String} {r : Request}
    (h : (sh.request name r).1 = .error cause) : ¬ cause.Internal := by
  unfold request at h
  generalize hanswer : sh.session.handle r = outcome at h
  obtain ⟨c | _, after⟩ := outcome
  · obtain rfl := Except.error.inj h
    exact Session.not_internal_of_handle hs (congrArg Prod.fst hanswer)
  · cases h

theorem not_internal_of_leave (hs : sh.session.store.Sound) {operand : String}
    (h : (sh.leave operand).1 = .error cause) : ¬ cause.Internal := by
  unfold leave at h
  cases hstatus : exitStatus? operand with
  | none =>
    rw [hstatus] at h
    obtain rfl := Except.error.inj h
    exact not_false
  | some status =>
    rw [hstatus] at h
    dsimp only at h
    generalize hrequest : sh.request "exit" (.exit status) = outcome at h
    obtain ⟨c | _, after⟩ := outcome
    · obtain rfl := Except.error.inj h
      exact not_internal_of_request hs (congrArg Prod.fst hrequest)
    · cases h

theorem not_internal_of_perform (hs : sh.session.store.Sound) {c : Command}
    (h : (sh.perform c).1 = .error cause) : ¬ cause.Internal := by
  cases c with
  | file command => exact FileCommand.not_internal_of_run hs h
  | help => cases h
  | echo text => cases h
  | set key value => exact not_internal_of_request hs h
  | env => cases h
  | exit status => exact not_internal_of_leave hs h

/-- **No command line over a sound store is refused internally.** -/
theorem not_internal_of_execute (hs : sh.session.store.Sound) {line : String}
    (h : (sh.execute line).1 = .error cause) : ¬ cause.Internal := by
  unfold execute at h
  cases hparse : Command.parse line with
  | error c =>
    rw [hparse] at h
    obtain rfl := Except.error.inj h
    exact Command.not_internal_of_parse hparse
  | ok command =>
    rw [hparse] at h
    exact not_internal_of_perform hs h

end Shell

/-! ## The store below all layers -/

/-- Nothing that is asked of the store goes wrong inside. With checked accesses it comes to the
same, so none of them is out of range, and through the layers no refusal is internal. Asked
directly, the store blames none but the identifier that it was given, and that one only if it is
not in use. -/
structure Store.Unfailing (s : Store) : Prop where
  perform (op : Operation) : s.checkedPerform op = some (s.perform op) ∧
    ∀ cause, (s.perform op).1 = .error cause → cause.BlamesGiven s.table op.given?
  ask (q : Query) : s.checkedAsk q = some (s.ask q) ∧
    ∀ cause, s.ask q = .error cause → cause.BlamesGiven s.table q.given?
  performByPath (op : ByPath.Operation) : ByPath.checkedPerform s op = some (ByPath.perform s op) ∧
    ∀ cause, (ByPath.perform s op).1 = .error cause → ¬ cause.Internal
  askByPath (q : ByPath.Query) : ByPath.checkedAsk s q = some (ByPath.ask s q) ∧
    ∀ cause, ByPath.ask s q = .error cause → ¬ cause.Internal
  /-- Any session over the store, whatever its open files are. -/
  handle (ses : Session) (r : Request) : ses.store = s →
    ses.checkedHandle r = some (ses.handle r) ∧
      ∀ cause, (ses.handle r).1 = .error cause → ¬ cause.Internal
  /-- Any shell over the store. -/
  execute (sh : Shell) (line : String) : sh.session.store = s →
    sh.checkedExecute line = some (sh.execute line) ∧
      sh.checkedRunLine line = some (sh.runLine line) ∧
      ∀ cause, (sh.execute line).1 = .error cause → ¬ cause.Internal

/-- **Every reachable store is unfailing**, over a heap in whatever state calls have left it when
the store was made. -/
theorem Store.Reachable.unfailing {config : Config} {limit : Option Nat} {calls : List Heap.Call}
    {s : Store} (hs : Reachable config (Heap.run { limit := limit } calls) s) : s.Unfailing := by
  have horderly := hs.orderly (Heap.keepsBooks_run limit calls)
  have hsound := horderly.sound
  constructor
  · exact fun op => ⟨horderly.checkedPerform_eq op, fun _ => hsound.blamesGiven_perform⟩
  · exact fun q => ⟨horderly.checkedAsk_eq q, fun _ => hsound.blamesGiven_ask⟩
  · exact fun op => ⟨ByPath.checkedPerform_eq horderly op,
      fun _ => ByPath.not_internal_of_perform hsound⟩
  · exact fun q => ⟨ByPath.checkedAsk_eq horderly q, fun _ => ByPath.not_internal_of_ask hsound⟩
  · rintro ses r rfl
    exact ⟨Session.checkedHandle_eq horderly r, fun _ => Session.not_internal_of_handle hsound⟩
  · rintro sh line rfl
    exact ⟨Shell.checkedExecute_eq horderly line, Shell.checkedRunLine_eq horderly line,
      fun _ => Shell.not_internal_of_execute hsound⟩

/-- A store over a heap of which another part is out, with a file that was written twice, deleted
from below the current directory and made again. A write to a slot that is free is the one that the
identifier is to blame for. -/
theorem Store.Reachable.unfailing_of_reuse :
    let config : Config := { maxEntries := 4, writeSlack := 2 }
    let heap := Heap.run { limit := some 32 } [.allocate 8, .release (.zeros 0 8), .allocate 4]
    let s := (init ⟨0⟩ config heap).run
      [.createDirectory "d", .changeDirectory ⟨1⟩, .createFile "a", .write ⟨2⟩ [1, 2, 3],
        .write ⟨2⟩ [4], .delete ⟨1⟩, .createFile "b", .write ⟨1⟩ [5, 6]]
    Reachable config heap s ∧ s.heap.stats.bytesInUse = 8 ∧
      (s.perform (.write ⟨2⟩ [7])).1 = .error (.invalidId ⟨2⟩) ∧ s.Unfailing := by
  intro config heap s
  have hs : Reachable config heap s := reachable_run rfl ⟨0⟩ heap _
  exact ⟨hs, by decide +kernel, by decide +kernel, hs.unfailing⟩

end FileTree
