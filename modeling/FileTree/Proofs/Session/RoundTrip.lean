import FileTree.Proofs.Session.Refinement

/-!
# What is written is read back

A session does to open files what the machine of byte strings and positions does. So an event
touches at most one file and the position of one descriptor. What is written through one descriptor
to a new file, while nothing else writes to it, is what the file contains, and what is read when the
file is opened again and read to the end, in pieces of whatever size.

## Main definitions

* `Session.Spares`, `Event.Avoids`: an event leaves a file, or a descriptor, alone
* `Session.Confines`: an event touches what it is about and nothing else
* `Session.Reserves`: a descriptor is used in one way, and nothing else touches its file
* `Event.written`, `Session.obtained`: the bytes written, and those read
* `RoundTrip`: a file is written, opened again and read

## Main results

* `Session.Live.confines`: an event touches no other file and no other descriptor
* `Session.Live.content_of_writing`, `Session.Live.obtained_of_reading`: what is written in many
  writes, and what is read in many reads
* `Session.mirrors_machine`: open files are the machine, and what is written is read back
-/

namespace FileTree

/-- The event is no request about the descriptor. -/
def Event.Avoids (fd : Descriptor) : Event → Prop
  | .call (.read x _) | .call (.write x _) | .call (.closeFile x) => x ≠ fd
  | _ => True

/-- The event writes through the descriptor. -/
def Event.Writes (fd : Descriptor) (ev : Event) : Prop :=
  ∃ data, ev = .call (.write fd data)

/-- The event reads through the descriptor. -/
def Event.Reads (fd : Descriptor) (ev : Event) : Prop :=
  ∃ size, ev = .call (.read fd size)

/-- What is written through the descriptor by an event. -/
def Event.data (fd : Descriptor) : Event → List UInt8
  | .call (.write x data) => if x = fd then data else []
  | _ => []

/-- What is written through the descriptor by events in order. -/
def Event.written (fd : Descriptor) (evs : List Event) : List UInt8 :=
  evs.flatMap (Event.data fd)

/-- The event asks for at least one byte through the descriptor. -/
def Event.asks (fd : Descriptor) : Event → Bool
  | .call (.read x size) => x = fd ∧ size ≠ 0
  | _ => false

theorem Event.data_of_avoids {fd : Descriptor} {ev : Event} (h : ev.Avoids fd) :
    ev.data fd = [] := by
  cases ev with
  | call r =>
    cases r with
    | write x data => exact if_neg h
    | _ => rfl
  | operate op => rfl

theorem Event.asks_of_avoids {fd : Descriptor} {ev : Event} (h : ev.Avoids fd) :
    ev.asks fd = false := by
  cases ev with
  | call r =>
    cases r with
    | read x size => exact decide_eq_false fun heq => h heq.1
    | _ => rfl
  | operate op => rfl

namespace Session

/-- The event neither writes to the file nor takes it away. -/
def Spares (ses : Session) (id : EntryId) : Event → Prop
  | .call (.write fd _) => ∀ file, ses.files.find? fd = some file → file.entry ≠ id
  | .call _ => True
  | .operate (.write x _) => x ≠ id
  | .operate op => ¬ ses.store.Removes op id

/-- The event changes no file but the one that it writes to or takes away, and moves no descriptor
but the one that it is about. -/
structure Confines (ses : Session) (ev : Event) : Prop where
  content : ∀ ⦃id data⦄, ses.Spares id ev → ses.store.content id = some data →
    (ses.react ev).store.content id = some data
  position : ∀ ⦃fd place⦄, ev.Avoids fd → ses.position fd = some place →
    (ses.react ev).position fd = some place

/-- Every event is a use of the descriptor of the given kind, or leaves both the descriptor and the
file alone. -/
def Reserves (ses : Session) (use : Event → Prop) (fd : Descriptor) (id : EntryId) :
    List Event → Prop
  | [] => True
  | ev :: evs =>
    (use ev ∨ ses.Spares id ev ∧ ev.Avoids fd) ∧ (ses.react ev).Reserves use fd id evs

/-- Every event leaves the file alone. -/
def Untouched (ses : Session) (id : EntryId) : List Event → Prop
  | [] => True
  | ev :: evs => ses.Spares id ev ∧ (ses.react ev).Untouched id evs

/-- The bytes in a response. -/
def payload : Option (Except SyscallError Response) → List UInt8
  | some (.ok (.data bytes)) => bytes
  | _ => []

/-- What is read through the descriptor by an event. -/
def gets (ses : Session) (fd : Descriptor) : Event → List UInt8
  | .call (.read x size) => if x = fd then payload (ses.response? (.call (.read x size))) else []
  | _ => []

/-- What is read through the descriptor by events in order. -/
def obtained (ses : Session) (fd : Descriptor) : List Event → List UInt8
  | [] => []
  | ev :: evs => ses.gets fd ev ++ (ses.react ev).obtained fd evs

/-- The request opens the entry on the descriptor. -/
def Opens (ses : Session) (path : String) (create : Bool) (fd : Descriptor) (id : EntryId) : Prop :=
  (ses.handle (.openFile path create)).1 = .ok (.opened fd) ∧
    (locate ses.store path create).1 = .ok id

variable {ses : Session} {fd : Descriptor} {id : EntryId} {ev : Event} {evs : List Event}
  {data : List UInt8} {place : EntryId × Nat} {size : UInt64} {n : Nat}

/-! ## What an event leaves alone -/

theorem isFile_of_keeps {s s' : Store} (hk : s.table.Keeps s'.table id)
    (hc : s.content id = some data) : s'.isFile id = true := by
  obtain ⟨e, he, hfile, -⟩ := Store.content_eq_some_iff.mp hc
  obtain ⟨e', he', hkind⟩ := hk.exists_entry he
  rw [Store.isFile, Store.content_eq_some_iff.mpr ⟨e', he', hkind.trans hfile, rfl⟩]
  rfl

/-- What leaves a file alone leaves it alone in the machine. -/
theorem Live.spared_inputs (h : ses.Live) (hs : ses.Spares id ev)
    (hc : ses.store.content id = some data) : ses.machine.Spared id (ses.inputs ev) := by
  have hcensus (op : Operation) (hkept : ¬ ses.store.Removes op id) :
      ses.machine.Spared id [.census (ses.store.perform op).2.isFile] :=
    ⟨isFile_of_keeps (h.sound.store.keeps_perform hkept) hc, trivial⟩
  cases ev with
  | call r =>
    cases r with
    | openFile path create =>
      have hk := (serves_locate ses.store path create).keeps h.sound.store id
      exact ⟨isFile_of_keeps hk hc, trivial, trivial⟩
    | write fd bytes =>
      refine ⟨fun n hp => ?_, trivial⟩
      obtain ⟨file, hf, heq⟩ := Option.map_eq_some_iff.mp hp
      exact hs file hf (congrArg Prod.fst heq)
    | read fd size => exact ⟨trivial, trivial⟩
    | closeFile fd => exact ⟨trivial, trivial⟩
    | _ => exact trivial
  | operate op =>
    cases op with
    | write x bytes => exact ⟨hs, trivial⟩
    | _ => exact hcensus _ hs

/-- A request that is not about a descriptor is not about it in the machine. -/
theorem avoids_inputs (ses : Session) (hav : ev.Avoids fd) :
    ∀ input ∈ ses.inputs ev, input.Avoids fd := by
  intro input hm
  cases ev with
  | call r =>
    cases r with
    | openFile path create =>
      rcases List.mem_pair.mp hm with rfl | rfl <;> trivial
    | read x size =>
      obtain rfl := List.mem_singleton.mp hm
      exact hav
    | write x bytes =>
      obtain rfl := List.mem_singleton.mp hm
      exact hav
    | closeFile x =>
      obtain rfl := List.mem_singleton.mp hm
      exact hav
    | _ => cases hm
  | operate op =>
    cases op <;> obtain rfl := List.mem_singleton.mp hm <;> trivial

/-- **An event touches what it is about, and nothing else.** -/
theorem Live.confines (h : ses.Live) (ha : ses.Allows ev) : ses.Confines ev where
  content id data hs hc := by
    have hkept := FileMachine.content_run (h.spared_inputs hs hc) hc
    rwa [(h.mirrored ha).run_eq] at hkept
  position fd place hav hp := by
    have hkept := FileMachine.position_run (m := ses.machine) (ses.avoids_inputs hav) hp
    rwa [(h.mirrored ha).run_eq] at hkept

/-! ## Reading and writing at a position -/

/-- A write replaces what comes after the position, which then is at the end. -/
theorem Live.react_write (h : ses.Live) (ha : ses.Allows (.call (.write fd data)))
    {old : List UInt8} (hc : ses.store.content id = some old)
    (hp : ses.position fd = some (id, n)) :
    let written := old.take (min n old.length) ++ data
    (ses.react (.call (.write fd data))).store.content id = some written ∧
      (ses.react (.call (.write fd data))).position fd = some (id, written.length) := by
  intro written
  have hwrite : ses.machine.write fd data = (.ok (.count data.length.toUInt64),
      (ses.machine.fill id written).place fd (some (id, written.length))) := by
    simp only [FileMachine.write, show ses.machine.position fd = _ from hp,
      show ses.machine.content id = _ from hc]
    rfl
  have hnext := congrArg Prod.snd ((h.write_eq ha.1 ha.2).symm.trans hwrite)
  constructor
  · exact (congrFun (congrArg FileMachine.content hnext) id).trans (Function.update_self ..)
  · exact (congrFun (congrArg FileMachine.position hnext) fd).trans (Function.update_self ..)

/-- A read answers what comes after the position, and moves it past that. -/
theorem Live.react_read (h : ses.Live) (ha : ses.Allows (.call (.read fd size)))
    (hc : ses.store.content id = some data) (hp : ses.position fd = some (id, n)) :
    let start := min n data.length
    let count := min size.toNat (data.length - start)
    ses.response? (.call (.read fd size)) = some (.ok (.data ((data.drop start).take count))) ∧
      (ses.react (.call (.read fd size))).store.content id = some data ∧
      (ses.react (.call (.read fd size))).position fd = some (id, start + count) := by
  intro start count
  have hread : ses.machine.read fd size = (.ok (.data ((data.drop start).take count)),
      ses.machine.place fd (some (id, start + count))) := by
    simp only [FileMachine.read, show ses.machine.position fd = _ from hp,
      show ses.machine.content id = _ from hc]
    rfl
  have hresult := (h.read_eq ha size).symm.trans hread
  have hnext := congrArg Prod.snd hresult
  refine ⟨?_, ?_, ?_⟩
  · exact congrArg some (congrArg Prod.fst hresult)
  · exact (congrFun (congrArg FileMachine.content hnext) id).trans hc
  · exact (congrFun (congrArg FileMachine.position hnext) fd).trans (Function.update_self ..)

/-- A file is opened at its start, and empty if it was not there. -/
theorem Live.react_open (h : ses.Live) {path : String} {create : Bool}
    (ho : ses.Opens path create fd id) :
    (ses.react (.call (.openFile path create))).store.content id =
        some ((ses.store.content id).getD []) ∧
      (ses.react (.call (.openFile path create))).position fd = some (id, 0) := by
  obtain ⟨hopened, hnamed⟩ := ho
  obtain ⟨x, store, e, files, hlocate, he, hk, hacquire, log, heq⟩ := openFile_eq_opened hopened
  rw [hlocate] at hnamed
  obtain rfl := Except.ok.inj hnamed
  rw [Session.react, handle, heq]
  have hc : store.content x = some e.data := Store.content_eq_some_iff.mpr ⟨e, he, hk, rfl⟩
  have hkept := undisturbed_locate h.sound.store path create
  rw [hlocate] at hkept
  constructor
  · rw [← hkept hc]
    exact hc
  · show (files.find? fd).map _ = _
    rw [(h.sound.files.acquire hacquire).2.2.2, if_pos rfl]
    rfl

/-! ## Many reads and many writes -/

/-- **What is written through one descriptor, and by nobody else, is appended.** -/
theorem Live.content_of_writing (h : ses.Live) (ha : ses.Admits evs)
    (hw : ses.Reserves (Event.Writes fd) fd id evs) (hc : ses.store.content id = some data)
    (hp : ses.position fd = some (id, data.length)) :
    (ses.run evs).store.content id = some (data ++ Event.written fd evs) := by
  induction evs generalizing ses data with
  | nil => rw [Event.written, List.flatMap_nil, List.append_nil]; exact hc
  | cons ev evs ih =>
    obtain ⟨huse, hrest⟩ := hw
    rw [Event.written, List.flatMap_cons, ← List.append_assoc, run_cons]
    rcases huse with ⟨bytes, rfl⟩ | ⟨hs, hav⟩
    · obtain ⟨hc', hp'⟩ := h.react_write ha.1 hc hp
      rw [Nat.min_self, List.take_length] at hc' hp'
      rw [Event.data, if_pos rfl]
      exact ih (h.react ha.1) ha.2 hrest hc' hp'
    · rw [Event.data_of_avoids hav, List.append_nil]
      exact ih (h.react ha.1) ha.2 hrest ((h.confines ha.1).content hs hc)
        ((h.confines ha.1).position hav hp)

theorem gets_of_avoids (ses : Session) (hav : ev.Avoids fd) : ses.gets fd ev = [] := by
  cases ev with
  | call r =>
    cases r with
    | read x size => exact if_neg hav
    | _ => rfl
  | operate op => rfl

/-- A piece, and what comes after it, make up the whole. -/
theorem take_drop_append_drop_take {count stop : Nat} (h : n + count ≤ stop) :
    (data.drop n).take count ++ (data.take stop).drop (n + count) = (data.take stop).drop n := by
  have hpiece : ((data.take stop).drop n).take count = (data.drop n).take count := by
    rw [List.drop_take, List.take_take, Nat.min_eq_left (by omega)]
  rw [← hpiece, ← List.drop_drop, List.take_append_drop]

/-- **What is read through one descriptor, while nobody writes to the file**, is the file from the
position on, and every read that asks for something comes on as long as there is something left. -/
theorem Live.obtained_of_reading (h : ses.Live) (ha : ses.Admits evs)
    (hr : ses.Reserves (Event.Reads fd) fd id evs) (hc : ses.store.content id = some data)
    (hp : ses.position fd = some (id, n)) (hn : n ≤ data.length) :
    (ses.run evs).store.content id = some data ∧
      ∃ stop, (ses.run evs).position fd = some (id, stop) ∧
        min (n + evs.countP (Event.asks fd)) data.length ≤ stop ∧ n ≤ stop ∧
        stop ≤ data.length ∧ ses.obtained fd evs = (data.take stop).drop n := by
  induction evs generalizing ses n with
  | nil =>
    refine ⟨hc, n, hp, by simp, Nat.le_refl n, hn, ?_⟩
    rw [obtained, List.drop_eq_nil_of_le (by simp)]
  | cons ev evs ih =>
    obtain ⟨huse, hrest⟩ := hr
    rw [obtained, run_cons, List.countP_cons]
    rcases huse with ⟨size, rfl⟩ | ⟨hs, hav⟩
    · obtain ⟨hresponse, hc', hp'⟩ := h.react_read ha.1 hc hp
      rw [Nat.min_eq_left hn] at hresponse hp'
      generalize hcount : min size.toNat (data.length - n) = count at hresponse hp'
      obtain ⟨hend, stop, hstop, hmin, hle, hlast, hobtained⟩ :=
        ih (h.react ha.1) ha.2 hrest hc' hp' (by omega)
      refine ⟨hend, stop, hstop, ?_, by omega, hlast, ?_⟩
      · have hasks : (if Event.asks fd (.call (.read fd size)) then 1 else 0) ≤ size.toNat := by
          split_ifs with hsome
          · have hne : size ≠ 0 := (of_decide_eq_true hsome).2
            exact Nat.pos_of_ne_zero fun hzero => hne (UInt64.toNat_inj.mp hzero)
          · exact Nat.zero_le _
        omega
      · rw [gets, if_pos rfl, hresponse, payload, hobtained]
        exact take_drop_append_drop_take (by omega)
    · rw [gets_of_avoids ses hav, Event.asks_of_avoids hav]
      exact ih (h.react ha.1) ha.2 hrest ((h.confines ha.1).content hs hc)
        ((h.confines ha.1).position hav hp) hn

/-- A file that is left alone keeps its content. -/
theorem Live.content_run (h : ses.Live) (ha : ses.Admits evs) (hu : ses.Untouched id evs)
    (hc : ses.store.content id = some data) : (ses.run evs).store.content id = some data := by
  induction evs generalizing ses with
  | nil => exact hc
  | cons ev evs ih => exact ih (h.react ha.1) ha.2 hu.2 ((h.confines ha.1).content hu.1 hc)

theorem Live.allows_read (h : ses.Live) (hp : ses.position fd = some place) (size : UInt64) :
    ses.Allows (.call (.read fd size)) := by
  obtain ⟨file, hf, -⟩ := Option.map_eq_some_iff.mp hp
  exact h.firstNumber_le hf

end Session

/-! ## There and back -/

/-- A file is opened and written, and opened again and read, while other things happen. -/
structure RoundTrip where
  before : List Event
  path : String
  create : Bool
  fd : Descriptor
  id : EntryId
  writing : List Event
  between : List Event
  path' : String
  create' : Bool
  fd' : Descriptor
  reading : List Event

namespace RoundTrip

/-- All that happens. -/
def events (t : RoundTrip) : List Event :=
  t.before ++ .call (.openFile t.path t.create) :: t.writing ++ t.between ++
    .call (.openFile t.path' t.create') :: t.reading

/-- The session before the file is opened. -/
def start (t : RoundTrip) (ses : Session) : Session :=
  ses.run t.before

/-- The session in which the file is open for writing. -/
def opened (t : RoundTrip) (ses : Session) : Session :=
  (t.start ses).react (.call (.openFile t.path t.create))

/-- The session in which the file is written. -/
def filled (t : RoundTrip) (ses : Session) : Session :=
  (t.opened ses).run t.writing

/-- The session before the file is opened again. -/
def left (t : RoundTrip) (ses : Session) : Session :=
  (t.filled ses).run t.between

/-- The session in which the file is open for reading. -/
def reopened (t : RoundTrip) (ses : Session) : Session :=
  (t.left ses).react (.call (.openFile t.path' t.create'))

/-- The session in which the file has been read. -/
def finished (t : RoundTrip) (ses : Session) : Session :=
  (t.reopened ses).run t.reading

/-- The file is new when it is opened, or empty. First it is written through the one descriptor
only, then left alone until it is opened again, and then it is read through the other. -/
structure Proper (t : RoundTrip) (ses : Session) : Prop where
  opens : (t.start ses).Opens t.path t.create t.fd t.id
  new : ((t.start ses).store.content t.id).getD [] = []
  writes : (t.opened ses).Reserves (Event.Writes t.fd) t.fd t.id t.writing
  untouched : (t.filled ses).Untouched t.id t.between
  reopens : (t.left ses).Opens t.path' t.create' t.fd' t.id
  reads : (t.reopened ses).Reserves (Event.Reads t.fd') t.fd' t.id t.reading

/-- When the file was read up to an answer that is empty, although something was asked for, then
what was read is what was written; and the answer is empty after as many reads that ask for
something as there are bytes. -/
structure Returns (t : RoundTrip) (ses : Session) : Prop where
  obtained_eq : ∀ size : UInt64, size ≠ 0 →
    ((t.finished ses).handle (.read t.fd' size)).1 = .ok (.data []) →
    (t.reopened ses).obtained t.fd' t.reading = Event.written t.fd t.writing
  ends : (Event.written t.fd t.writing).length ≤ t.reading.countP (Event.asks t.fd') →
    ∀ size : UInt64, ((t.finished ses).handle (.read t.fd' size)).1 = .ok (.data [])

/-- **What is written to a new file is read back.** -/
theorem Proper.returns {t : RoundTrip} {ses : Session} (ht : t.Proper ses) (h : ses.Live)
    (ha : ses.Admits t.events) : t.Returns ses := by
  simp only [events, Session.admits_append, Session.run_append] at ha
  obtain ⟨⟨⟨hbefore, hopen, hwriting⟩, hbetween⟩, hreopen, hreading⟩ := ha
  have hstart : (t.start ses).Live := h.run hbefore
  have hopened : (t.opened ses).Live := hstart.react hopen
  have hfilled : (t.filled ses).Live := hopened.run hwriting
  have hleft : (t.left ses).Live := hfilled.run hbetween
  have hreopened : (t.reopened ses).Live := hleft.react hreopen
  have hfinished : (t.finished ses).Live := hreopened.run hreading
  obtain ⟨hempty, hfirst⟩ := hstart.react_open ht.opens
  rw [ht.new] at hempty
  have hwritten := hopened.content_of_writing hwriting ht.writes hempty hfirst
  rw [List.nil_append] at hwritten
  have hkept := hfilled.content_run hbetween ht.untouched hwritten
  obtain ⟨hthere, hagain⟩ := hleft.react_open ht.reopens
  rw [show (t.left ses).store.content t.id = _ from hkept, Option.getD_some] at hthere
  obtain ⟨hend, stop, hstop, hmin, -, hle, hobtained⟩ :=
    hreopened.obtained_of_reading hreading ht.reads hthere hagain (Nat.zero_le _)
  have hlast (size : UInt64) :=
    Option.some.inj (hfinished.react_read (hfinished.allows_read hstop size) hend hstop).1
  rw [Nat.min_eq_left hle] at hlast
  constructor
  · intro size hsize hanswer
    have hpos : 0 < size.toNat := Nat.pos_of_ne_zero fun hzero => hsize (UInt64.toNat_inj.mp hzero)
    have hnone := congrArg List.length
      (Response.data.inj (Except.ok.inj ((hlast size).symm.trans hanswer)))
    rw [List.length_take, List.length_drop, List.length_nil] at hnone
    rw [hobtained, List.drop_zero, List.take_of_length_le (by omega)]
  · intro hlong size
    rw [hlast, List.drop_eq_nil_of_le (by omega), List.take_nil]

end RoundTrip

/-- **Open files are the machine of byte strings and positions.** The heap has no limit, and what
happens are requests to open, read, write and close files, and operations that delete no open file.
Then the responses are those of the machine, and so are the files and positions; each event touches
only what it is about; and what is written through one descriptor to a new file is read back. -/
theorem Session.mirrors_machine {config : Config} {heap : Heap} {ses : Session} {evs : List Event}
    (hstore : Store.Reachable config heap ses.store) (hl : heap.limit = none)
    (hfiles : ses.files = {}) (ha : ses.Admits evs) :
    ses.responses evs = ses.machine.responses (ses.inputsOf evs) ∧
      (ses.run evs).machine = ses.machine.run (ses.inputsOf evs) ∧
      (∀ before ev later, evs = before ++ ev :: later → (ses.run before).Confines ev) ∧
      ∀ t : RoundTrip, t.events = evs → t.Proper ses → t.Returns ses := by
  have hlive := Session.live_of_reachable hstore hl hfiles
  obtain ⟨hresponses, hrun⟩ := hlive.mirrored_run ha
  refine ⟨hresponses.symm, hrun.symm, ?_, ?_⟩
  · rintro before ev later rfl
    obtain ⟨hbefore, hev, -⟩ := Session.admits_append.mp ha
    exact (hlive.run hbefore).confines hev
  · rintro t rfl ht
    exact ht.returns hlive ha

/-- A new file is written in two pieces, between which another file is replaced and the new one read
by someone else. It is closed and renamed, and read under its new name in pieces of two bytes. -/
theorem Session.mirrors_machine_of_interleaving :
    let config : Config := { maxEntries := 4 }
    let ses : Session := { store := Store.init ⟨0⟩ config {} }
    let t : RoundTrip := {
      before := [.operate (.createFile "x")]
      path := "f"
      create := true
      fd := ⟨3⟩
      id := ⟨2⟩
      writing := [.call (.write ⟨3⟩ [1, 2]), .operate (.write ⟨1⟩ [9]), .call (.openFile "f" false),
        .call (.read ⟨4⟩ 8), .call (.write ⟨3⟩ [3])]
      between := [.call (.closeFile ⟨3⟩), .operate (.rename ⟨2⟩ "g")]
      path' := "g"
      create' := false
      fd' := ⟨3⟩
      reading := [.call (.read ⟨3⟩ 2), .call (.read ⟨3⟩ 2)] }
    (Store.Reachable config {} ses.store ∧ ses.Admits t.events ∧ t.Proper ses) ∧
      (ses.responses t.events = ses.machine.responses (ses.inputsOf t.events) ∧
      (ses.run t.events).machine = ses.machine.run (ses.inputsOf t.events) ∧
      (∀ before ev later, t.events = before ++ ev :: later → (ses.run before).Confines ev) ∧
      ∀ t' : RoundTrip, t'.events = t.events → t'.Proper ses → t'.Returns ses) ∧
      (t.reopened ses).obtained t.fd' t.reading = [1, 2, 3] := by
  intro config ses t
  have hstore : Store.Reachable config {} ses.store := Store.reachable_run rfl ⟨0⟩ {} []
  have hsound : ses.Sound := ⟨hstore.sound, OpenFiles.ordered_empty⟩
  have h₃ : OpenFiles.firstNumber ≤ (⟨3⟩ : Descriptor).number.toNat := by decide
  have h₄ : OpenFiles.firstNumber ≤ (⟨4⟩ : Descriptor).number.toNat := by decide
  have hfd : (⟨4⟩ : Descriptor) ≠ ⟨3⟩ := by decide
  have hid : (⟨1⟩ : EntryId) ≠ ⟨2⟩ := by decide
  have ha : ses.Admits t.events :=
    ⟨hsound.allows_operate rfl, trivial, ⟨h₃, List.cons_ne_nil _ _⟩,
      (((hsound.react _).react _).react _).allows_operate rfl, trivial, h₄,
      ⟨h₃, List.cons_ne_nil _ _⟩, h₃,
      ((((((((hsound.react _).react _).react _).react _).react _).react _).react _).react
        _).allows_operate rfl,
      trivial, h₃, h₃, trivial⟩
  have ht : t.Proper ses := {
    opens := ⟨by decide +kernel, by decide +kernel⟩
    new := by decide +kernel
    writes := ⟨.inl ⟨_, rfl⟩, .inr ⟨hid, trivial⟩, .inr ⟨trivial, trivial⟩, .inr ⟨trivial, hfd⟩,
      .inl ⟨_, rfl⟩, trivial⟩
    untouched := ⟨trivial, fun hr => absurd hr.2 (by decide +kernel), trivial⟩
    reopens := ⟨by decide +kernel, by decide +kernel⟩
    reads := ⟨.inl ⟨_, rfl⟩, .inl ⟨_, rfl⟩, trivial⟩ }
  exact ⟨⟨hstore, ha, ht⟩, mirrors_machine hstore rfl rfl ha, by decide +kernel⟩

end FileTree
