import FileTree.Proofs.Session.Event

/-!
# A descriptor stays with its entry

A descriptor remembers the entry for which it was opened and the generation of the entry's slot.
As long as the entry has not been taken out, reads and writes go to it, under whatever name it has
by then. From then on the descriptor is bad, even if another entry has taken the slot.

## Main definitions

* `Request.Accesses`: a request reads from a descriptor, or writes something to it
* `Session.Stale`: the descriptor is bad, and trying it changes nothing but the log
* `Session.granted`, `Session.FileWritten`: what the heap answers to a write, and what the write
  comes to
* `Session.Follows`: the descriptor reads and writes an entry

## Main results

* `Session.Sound.isCurrent_run_iff`: the generations tell whether an entry was taken out
* `Session.follows_of_isCurrent`, `Session.stale_of_not_isCurrent`: what the generations tell is
  what requests find
* `Session.accesses_iff_loses`: a descriptor is bad exactly when its entry was taken out
-/

namespace FileTree

/-- The request reads from the descriptor, or writes something to it. -/
def Request.Accesses (fd : Descriptor) : Request → Prop
  | .read fd' _ => fd' = fd
  | .write fd' data => fd' = fd ∧ data ≠ []
  | _ => False

namespace Session

/-- The descriptor is bad, and trying it changes nothing but the log. -/
def Stale (ses : Session) (fd : Descriptor) : Prop :=
  ∀ r : Request, r.Accesses fd →
    ∃ entry, ses.handle r = (.error (.badDescriptor fd), ses.record entry)

/-- The answer of the heap to a write of the data behind the content that comes before `offset`. -/
def granted (ses : Session) (e : Entry) (offset : Nat) (data : List UInt8) :
    Except HeapError (Buffer × Heap) :=
  ses.store.heap.allocate
    ((e.data.take offset ++ data).length + ses.store.config.writeSlack.toNat)

/-- What writing to an entry comes to: the heap refuses, and at most the log changes, or it does
not, the entry has the data behind the content that came before `offset`, and no other entry
changes. -/
inductive FileWritten (ses : Session) (fd : Descriptor) (id : EntryId) (e : Entry) (offset : Nat)
    (data : List UInt8) : Except SyscallError Response × Session → Prop
  | exhausted {cause : HeapError} {store : Store} :
      ses.granted e offset data = .error cause → ses.store.Noted store →
      FileWritten ses fd id e offset data
        (.error (.store (.allocation cause)), { ses with store := store })
  | written {b fresh : Buffer} {size : Nat} {heap : Heap} {store : Store} :
      ses.granted e offset data = .ok (fresh, heap) →
      (e.withContent b size).data = e.data.take offset ++ data →
      store.table.find? id = some (e.withContent b size) →
      (∀ x, x ≠ id → store.table.find? x = ses.store.table.find? x) →
      (∀ x, store.table.generationAt x = ses.store.table.generationAt x) →
      store.cursor = ses.store.cursor →
      FileWritten ses fd id e offset data
        (.ok (.count data.length.toUInt64),
          { ses with store := store, files := ses.files.seek fd (offset + data.length) })

/-- The descriptor reads and writes the entry, which is a file, at its position. -/
structure Follows (ses : Session) (fd : Descriptor) (id : EntryId) (e : Entry) (offset : Nat) :
    Prop where
  found : ses.store.table.find? id = some e
  kind_eq : e.kind = .file
  position : ∃ file, ses.files.find? fd = some file ∧ file.entry = id ∧
    offset = min file.offset e.data.length
  read : ∀ n : UInt64, ses.handle (.read fd n) =
    (.ok (.data ((e.data.drop offset).take n.toNat)),
      { ses with files := ses.files.seek fd (min (offset + n.toNat) e.data.length) })
  write : ∀ data, data ≠ [] → ses.FileWritten fd id e offset data (ses.handle (.write fd data))

variable {ses : Session} {evs : List Event} {id : EntryId} {e : Entry} {fd : Descriptor}
  {file : OpenFile}

theorem isCurrent_iff : ses.isCurrent file = true ↔
    ses.store.table.isUsed file.entry = true ∧
      ses.store.table.generationAt file.entry = file.generation := by
  unfold isCurrent Table.generation Table.isUsed
  cases ses.store.table.find? file.entry <;> simp

/-- **The generations tell whether the entry was taken out**, as long as they have not come
around. -/
theorem Sound.isCurrent_run_iff (h : ses.Sound)
    (hused : ses.store.table.isUsed file.entry = true)
    (hgen : ses.store.table.generationAt file.entry = file.generation)
    (hdel : ses.deletions evs < 2 ^ 32) :
    (ses.run evs).isCurrent file = true ↔ ¬ ses.Loses file.entry evs := by
  have hle := h.removals_le_deletions file.entry evs
  rw [isCurrent_iff, loses_iff, h.generationAt_run, hgen, Nat.not_lt, Nat.le_zero]
  constructor
  · -- A generation that is the same has advanced by a multiple of 2³², which is none at all.
    rintro ⟨-, hsame⟩
    have hzero : UInt32.ofNat (ses.removals file.entry evs) = 0 :=
      UInt32.add_right_inj file.generation |>.mp (by rw [hsame, UInt32.add_zero])
    have := congrArg UInt32.toNat hzero
    rw [UInt32.toNat_ofNat', UInt32.toNat_zero] at this
    omega
  · intro hzero
    obtain ⟨e, he⟩ := Table.isUsed_iff.mp hused
    obtain ⟨e', he', -⟩ := (h.keeps_run hzero).exists_entry he
    exact ⟨Table.isUsed_of_find? he', by rw [hzero]; exact UInt32.add_zero _⟩

/-- A descriptor that a file has is none of the standard ones. -/
theorem ne_standard (h : OpenFiles.firstNumber ≤ fd.number.toNat) :
    fd ≠ .stdin ∧ fd ≠ .stdout ∧ fd ≠ .stderr := by
  refine ⟨?_, ?_, ?_⟩ <;> rintro rfl <;> exact absurd h (by decide)

theorem not_isStandard (h : OpenFiles.firstNumber ≤ fd.number.toNat) : ¬ fd.isStandard = true := by
  rw [Descriptor.isStandard, decide_eq_true_eq, UInt32.le_iff_toNat_le]
  exact Nat.not_le_of_lt h

/-- The descriptor of an entry that is gone, or whose slot has another, is bad. -/
theorem stale_of_not_isCurrent (hf : ses.files.find? fd = some file)
    (hfd : OpenFiles.firstNumber ≤ fd.number.toNat) (hc : ¬ ses.isCurrent file = true) :
    ses.Stale fd := by
  obtain ⟨h₀, h₁, h₂⟩ := ne_standard hfd
  intro r hr
  cases r with
  | read fd' n =>
    obtain rfl : fd' = fd := hr
    have hstale : ses.handle (.read fd' n) = ses.staleDescriptor fd' file := by
      simp only [handle, Session.read, if_neg h₀, if_neg (not_or.mpr ⟨h₁, h₂⟩), hf, readFile,
        if_neg hc]
    exact ⟨_, hstale⟩
  | write fd' data =>
    obtain ⟨rfl, hne⟩ : fd' = fd ∧ data ≠ [] := hr
    have hstale : ses.handle (.write fd' data) = ses.staleDescriptor fd' file := by
      simp only [handle, Session.write, List.isEmpty_iff, if_neg hne,
        if_neg (not_or.mpr ⟨h₁, h₂⟩), if_neg h₀, hf, writeFile, if_neg hc]
    exact ⟨_, hstale⟩
  | _ => cases hr

/-- What is written to the descriptor of an open file goes to that file. -/
theorem handle_write_of_find? (hf : ses.files.find? fd = some file)
    (hfd : OpenFiles.firstNumber ≤ fd.number.toNat) {data : List UInt8} (hne : data ≠ []) :
    ses.handle (.write fd data) = ses.writeFile fd file data := by
  obtain ⟨h₀, h₁, h₂⟩ := ne_standard hfd
  simp only [handle, Session.write, List.isEmpty_iff, if_neg hne, if_neg (not_or.mpr ⟨h₁, h₂⟩),
    if_neg h₀, hf]

/-- Writing to a file that is there fills it, unless the heap refuses. -/
theorem fileWritten_writeFile (hfound : ses.store.table.find? file.entry = some e)
    (hfile : e.kind = .file) (hc : ses.isCurrent file = true) (data : List UInt8) :
    ses.FileWritten fd file.entry e (min file.offset e.data.length) data
      (ses.writeFile fd file data) := by
  rw [writeFile, if_pos hc]
  simp only [Store.readAll_of_file hfound hfile]
  have hw := ses.store.written_write file.entry
    (e.data.take (min file.offset e.data.length) ++ data)
  generalize ses.store.write file.entry _ = outcome at hw ⊢
  cases hw with
  | refused hdir =>
    rw [hdir hfound] at hfile
    cases hfile
  | exhausted halloc hn => exact .exhausted halloc hn
  | @filled e' buffer heap log _ hfound' _ halloc =>
    obtain rfl := Option.some.inj (hfound.symm.trans hfound')
    have hroom : (e.data.take (min file.offset e.data.length) ++ data).length ≤
        buffer.capacity := by
      obtain ⟨rfl, -, -⟩ := Heap.allocate_eq_ok halloc
      exact Nat.le_add_right _ _
    refine .written halloc (e.data_withContent hroom) ?_ (fun x hx => ?_)
      (fun x => Table.generationAt_modify _ _ _ _) rfl
    · show (Table.modify _ _ _).find? file.entry = _
      rw [Table.find?_modify, if_pos rfl, hfound, Option.map_some]
    · show (Table.modify _ _ _).find? x = _
      rw [Table.find?_modify, if_neg (Ne.symm hx)]

/-- The descriptor of an entry that is still there reads and writes it. -/
theorem follows_of_isCurrent (hf : ses.files.find? fd = some file)
    (hfd : OpenFiles.firstNumber ≤ fd.number.toNat) (hc : ses.isCurrent file = true)
    (hfound : ses.store.table.find? file.entry = some e) (hfile : e.kind = .file) :
    ses.Follows fd file.entry e (min file.offset e.data.length) := by
  obtain ⟨h₀, h₁, h₂⟩ := ne_standard hfd
  refine ⟨hfound, hfile, ⟨file, hf, rfl, rfl⟩, fun n => ?_, fun data hne => ?_⟩
  · simp only [handle, Session.read, if_neg h₀, if_neg (not_or.mpr ⟨h₁, h₂⟩), hf, readFile,
      if_pos hc, Store.readAll_of_file hfound hfile]
    have htake : ∀ start, (e.data.drop start).take (min (start + n.toNat) e.data.length - start) =
        (e.data.drop start).take n.toNat := by
      intro start
      rw [List.take_eq_take_iff, List.length_drop]
      omega
    rw [htake]
  · rw [handle_write_of_find? hf hfd hne]
    exact fileWritten_writeFile hfound hfile hc data

theorem Stale.fst_handle (h : ses.Stale fd) {r : Request} (hr : r.Accesses fd) :
    (ses.handle r).1 = .error (.badDescriptor fd) := by
  obtain ⟨entry, heq⟩ := h r hr
  rw [heq]

theorem Follows.fst_handle_ne {offset : Nat} (h : ses.Follows fd id e offset) {r : Request}
    (hr : r.Accesses fd) : (ses.handle r).1 ≠ .error (.badDescriptor fd) := by
  cases r with
  | read fd' n =>
    obtain rfl : fd' = fd := hr
    rw [h.read n]
    intro heq
    cases heq
  | write fd' data =>
    obtain ⟨rfl, hne⟩ : fd' = fd ∧ data ≠ [] := hr
    have hw := h.write data hne
    generalize ses.handle (.write fd' data) = outcome at hw ⊢
    cases hw <;> intro heq <;> cases heq
  | _ => cases hr

/-- The descriptor of a file stays with its entry until the entry is taken out. -/
theorem Sound.stale_or_follows (h : ses.Sound) (hf : ses.files.find? fd = some file)
    (hfd : OpenFiles.firstNumber ≤ fd.number.toNat)
    (hfound : ses.store.table.find? file.entry = some e) (hfile : e.kind = .file)
    (hgen : ses.store.table.generationAt file.entry = file.generation)
    (hclose : .call (.closeFile fd) ∉ evs) (hdel : ses.deletions evs < 2 ^ 32) :
    (ses.Loses file.entry evs → (ses.run evs).Stale fd) ∧
      (¬ ses.Loses file.entry evs →
        ∃ e' offset, (ses.run evs).Follows fd file.entry e' offset) := by
  obtain ⟨position, hnow⟩ := h.exists_offset_run hf hclose
  have hcurrent : (ses.run evs).isCurrent { file with offset := position } = true ↔
      ¬ ses.Loses file.entry evs :=
    h.isCurrent_run_iff (Table.isUsed_of_find? hfound) hgen hdel
  constructor
  · intro hl
    exact stale_of_not_isCurrent hnow hfd fun hc => hcurrent.mp hc hl
  · intro hl
    have hzero := Nat.le_zero.mp (Nat.not_lt.mp (loses_iff.not.mp hl))
    obtain ⟨e', he', hk⟩ := (h.keeps_run hzero).exists_entry hfound
    have hfollows := follows_of_isCurrent hnow hfd (hcurrent.mpr hl) he' (hk.trans hfile)
    exact ⟨e', _, hfollows⟩

/-- **A descriptor is bad exactly when its entry was taken out** since it was opened, whatever
happened meanwhile. A bad one leaves everything but the log alone, and a good one reads and writes
the entry for which it was opened. -/
theorem accesses_iff_loses {config : Config} {heap : Heap}
    (hstore : Store.Reachable config heap ses.store) (hfiles : ses.files = {})
    {before after : List Event} {path : String} {create : Bool} {opened : Session}
    (hopen : (ses.run before).handle (.openFile path create) = (.ok (.opened fd), opened))
    (hclose : .call (.closeFile fd) ∉ after) (hdel : opened.deletions after < 2 ^ 32) :
    OpenFiles.firstNumber ≤ fd.number.toNat ∧
    ∃ id, (locate (ses.run before).store path create).1 = .ok id ∧
      opened.store.table.isUsed id = true ∧
      (∀ r : Request, r.Accesses fd →
        (((opened.run after).handle r).1 = .error (.badDescriptor fd) ↔ opened.Loses id after)) ∧
      (opened.Loses id after → (opened.run after).Stale fd) ∧
      (¬ opened.Loses id after → ∃ e offset, (opened.run after).Follows fd id e offset) := by
  have hses : ses.Sound := ⟨hstore.sound, hfiles ▸ OpenFiles.ordered_empty⟩
  have hbefore := hses.run before
  have hsound : opened.Sound := by
    have := hbefore.react (.call (.openFile path create))
    rwa [Session.react, hopen] at this
  obtain ⟨id, store, e, files, hlocate, hfound, hfile, hacquire, log, hopened⟩ :=
    openFile_eq_opened (congrArg Prod.fst hopen)
  obtain rfl := (congrArg Prod.snd hopen).symm.trans hopened
  obtain ⟨-, hfd, -, hfind⟩ := hbefore.files.acquire hacquire
  have hfind : files.find? fd = some ⟨id, store.table.generationAt id, 0⟩ := by
    rw [hfind, if_pos rfl]
  obtain ⟨hstale, hfollows⟩ :=
    hsound.stale_or_follows hfind hfd hfound hfile rfl hclose hdel
  refine ⟨hfd, id, by rw [hlocate], Table.isUsed_of_find? hfound, fun r hr => ?_, hstale, hfollows⟩
  constructor
  · intro hbad
    by_contra hl
    obtain ⟨e', offset, hf⟩ := hfollows hl
    exact hf.fst_handle_ne hr hbad
  · intro hl
    exact (hstale hl).fst_handle hr

/-- A file is opened. Either it is deleted by someone else, and another one takes its slot, or it is
renamed, and another one takes its name. -/
theorem accesses_iff_loses_of_reuse :
    let config : Config := { maxEntries := 4 }
    let ses : Session := { store := Store.init ⟨0⟩ config {} }
    let before : List Event := [.operate (.createFile "a"), .operate (.write ⟨1⟩ [104, 105])]
    let opened := ((ses.run before).handle (.openFile "a" true)).2
    let deleted : List Event := [.operate (.delete ⟨1⟩), .operate (.createFile "b")]
    let renamed : List Event := [.operate (.rename ⟨1⟩ "b"), .operate (.createFile "a")]
    let written := opened.run (renamed ++ [.call (.read ⟨3⟩ 1), .call (.write ⟨3⟩ [33])])
    (Store.Reachable config {} ses.store ∧ ses.files = {} ∧
      (ses.run before).handle (.openFile "a" true) = (.ok (.opened ⟨3⟩), opened)) ∧
    (opened.Loses ⟨1⟩ deleted ∧ ¬ opened.Loses ⟨1⟩ renamed) ∧
    (((opened.run renamed).handle (.read ⟨3⟩ 1)).1 = .ok (.data [104]) ∧
      written.store.readAll ⟨1⟩ = .ok [104, 33] ∧ written.store.readAll ⟨2⟩ = .ok []) ∧
    ∀ after ∈ [deleted, renamed],
      (.call (.closeFile ⟨3⟩) ∉ after ∧ opened.deletions after < 2 ^ 32) ∧
      OpenFiles.firstNumber ≤ (⟨3⟩ : Descriptor).number.toNat ∧
      ∃ id, (locate (ses.run before).store "a" true).1 = .ok id ∧
        opened.store.table.isUsed id = true ∧
        (∀ r : Request, r.Accesses ⟨3⟩ →
          (((opened.run after).handle r).1 = .error (.badDescriptor ⟨3⟩) ↔
            opened.Loses id after)) ∧
        (opened.Loses id after → (opened.run after).Stale ⟨3⟩) ∧
        (¬ opened.Loses id after → ∃ e offset, (opened.run after).Follows ⟨3⟩ id e offset) := by
  intro config ses before opened deleted renamed written
  have hstore : Store.Reachable config {} ses.store :=
    ⟨⟨0⟩, _, Store.fresh_eq_ok_iff.mpr ⟨rfl, rfl⟩, .refl⟩
  have hanswer : ((ses.run before).handle (.openFile "a" true)).1 = .ok (.opened ⟨3⟩) := by
    decide +kernel
  have hopen : (ses.run before).handle (.openFile "a" true) = (.ok (.opened ⟨3⟩), opened) := by
    rw [← hanswer]
  have hloses : opened.Loses ⟨1⟩ deleted ∧ ¬ opened.Loses ⟨1⟩ renamed := by
    rw [loses_iff, loses_iff]
    decide +kernel
  refine ⟨⟨hstore, rfl, hopen⟩, hloses, ?_, ?_⟩
  · decide +kernel
  intro after hafter
  have hclose : .call (.closeFile ⟨3⟩) ∉ after := by
    revert after
    simp [deleted, renamed]
  have hlength : after.length < 2 ^ 32 := by
    revert after
    simp [deleted, renamed]
  have hdel : opened.deletions after < 2 ^ 32 :=
    Nat.lt_of_le_of_lt (deletions_le_length opened after) hlength
  exact ⟨⟨hclose, hdel⟩, accesses_iff_loses hstore rfl hopen hclose hdel⟩

end Session

end FileTree
