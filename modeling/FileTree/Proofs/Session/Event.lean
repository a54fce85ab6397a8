import FileTree.Proofs.Session.Served

/-!
# What happens to a session

A session shares its store: what happens is a request of its process, or an operation that someone
else performs on the store. However they follow one another, the generation of a slot counts how
often an entry was taken out of it, which is at most once for each deletion that succeeds.

## Main definitions

* `Event`, `Session.react`, `Session.run`: what happens, and what comes of it
* `Session.Sound`: the store is sound, and the open files are in order
* `Session.Reachable`: what comes of a session without open files
* `Session.Removes`, `Session.Loses`: an event, or a run, takes an entry out
* `Session.removals`, `Session.deletions`: how often a slot is vacated, and how many deletions
  succeed

## Main results

* `Session.Sound.run`: a session stays sound
* `Session.Sound.generationAt_run`: the generation of a slot counts the removals
* `Session.Sound.removals_le_deletions`: there are no more removals than deletions
* `Session.Sound.keeps_run`: an entry that is not taken out keeps its slot and its kind
* `Session.Sound.exists_offset_run`: an open file stays open until it is closed
-/

namespace FileTree

/-- What happens to a session: a request of its process, or an operation on its store. -/
inductive Event where
  | call (r : Request)
  | operate (op : Operation)

namespace Session

/-- The session after an event. -/
def react (ses : Session) : Event → Session
  | .call r => (ses.handle r).2
  | .operate op => { ses with store := (ses.store.perform op).2 }

/-- The session after events in order. -/
def run (ses : Session) (evs : List Event) : Session :=
  evs.foldl react ses

@[simp] theorem run_nil (ses : Session) : ses.run [] = ses := rfl

@[simp] theorem run_cons (ses : Session) (ev : Event) (evs : List Event) :
    ses.run (ev :: evs) = (ses.react ev).run evs := rfl

/-- The store is sound, and the open files are in order. -/
structure Sound (ses : Session) : Prop where
  store : ses.store.Sound
  files : ses.files.Ordered

/-- The event is a deletion that succeeds. -/
def deletes (ses : Session) : Event → Bool
  | .call _ => false
  | .operate op => ses.store.deletes op

/-- The event takes the entry out. -/
def Removes (ses : Session) (ev : Event) (id : EntryId) : Prop :=
  ses.store.table.isUsed id = true ∧ (ses.react ev).store.table.isUsed id = false

instance (ses : Session) (ev : Event) (id : EntryId) : Decidable (ses.Removes ev id) :=
  inferInstanceAs (Decidable (_ ∧ _))

/-- An event of the run takes the entry out. -/
def Loses (ses : Session) (id : EntryId) (evs : List Event) : Prop :=
  ∃ before ev later, evs = before ++ ev :: later ∧ (ses.run before).Removes ev id

/-- How many deletions of the run succeed. -/
def deletions (ses : Session) : List Event → Nat
  | [] => 0
  | ev :: evs => (if ses.deletes ev then 1 else 0) + (ses.react ev).deletions evs

/-- How often the run takes out what is in the slot. -/
def removals (ses : Session) (id : EntryId) : List Event → Nat
  | [] => 0
  | ev :: evs => (if ses.Removes ev id then 1 else 0) + (ses.react ev).removals id evs

variable {ses : Session} {ev : Event} {evs : List Event} {id : EntryId} {fd : Descriptor}
  {file : OpenFile}

theorem deletions_le_length (ses : Session) (evs : List Event) :
    ses.deletions evs ≤ evs.length := by
  induction evs generalizing ses with
  | nil => exact Nat.le_refl _
  | cons ev evs ih =>
    have := ih (ses.react ev)
    rw [deletions, List.length_cons]
    split_ifs <;> omega

/-- What happens to a session is to its store a row of operations. -/
theorem reaches_run (ses : Session) (evs : List Event) : ses.store.Reaches (ses.run evs).store := by
  induction evs generalizing ses with
  | nil => exact .refl
  | cons ev evs ih =>
    refine .trans ?_ (ih (ses.react ev))
    cases ev with
    | call r => exact (served_handle ses r).store.reaches
    | operate op => exact .perform op .refl

theorem Sound.react (h : ses.Sound) (ev : Event) : (ses.react ev).Sound := by
  cases ev with
  | call r =>
    have hr := served_handle ses r
    exact ⟨hr.store.reaches.sound h.store, hr.files.ordered h.files⟩
  | operate op => exact ⟨h.store.perform op, h.files⟩

theorem Sound.run (h : ses.Sound) (evs : List Event) : (ses.run evs).Sound := by
  induction evs generalizing ses with
  | nil => exact h
  | cons ev evs ih => exact ih (h.react ev)

/-- The session comes of one without open files over a fresh store with the given configuration and
heap: by requests of its process, and by whatever happens to the rest of it meanwhile, as others
have a hand in the store. -/
inductive Reachable (config : Config) (heap : Heap) : Session → Prop
  | start {ses : Session} : Store.Reachable config heap ses.store → ses.files = {} →
      Reachable config heap ses
  | serve {ses : Session} (r : Request) : Reachable config heap ses →
      Reachable config heap (ses.handle r).2
  | share {ses ses' : Session} : Reachable config heap ses → ses.store.Reaches ses'.store →
      ses'.files = ses.files → Reachable config heap ses'

theorem Reachable.sound {config : Config} {heap : Heap} (h : ses.Reachable config heap) :
    ses.Sound := by
  induction h with
  | start hstore hfiles => exact ⟨hstore.sound, hfiles ▸ OpenFiles.ordered_empty⟩
  | serve r _ ih => exact ih.react (.call r)
  | share _ hstore hfiles ih => exact ⟨hstore.sound ih.store, hfiles ▸ ih.files⟩

/-- An event that does not take an entry out keeps it. -/
theorem Sound.keeps_react (h : ses.Sound) (hr : ¬ ses.Removes ev id) :
    ses.store.table.Keeps (ses.react ev).store.table id := by
  cases ev with
  | call r => exact (served_handle ses r).store.keeps h.store id
  | operate op => exact h.store.keeps_perform hr

/-- A request keeps every entry, so it takes none out. -/
theorem Sound.not_removes_call (h : ses.Sound) (r : Request) (id : EntryId) :
    ¬ ses.Removes (.call r) id := by
  rintro ⟨hused, hnot⟩
  obtain ⟨e, he⟩ := Table.isUsed_iff.mp hused
  obtain ⟨e', he', -⟩ := ((served_handle ses r).store.keeps h.store id).exists_entry he
  rw [Session.react, Table.isUsed_of_find? he'] at hnot
  cases hnot

/-- An event that takes an entry out is a deletion that succeeds, and advances the generation of
the slot. -/
theorem Sound.generationAt_of_removes (h : ses.Sound) (hr : ses.Removes ev id) :
    ses.deletes ev = true ∧ (ses.react ev).store.table.generationAt id =
      ses.store.table.generationAt id + 1 := by
  cases ev with
  | call r => exact absurd hr (h.not_removes_call r id)
  | operate op => exact h.store.generationAt_of_removes hr

theorem Sound.removals_le_deletions (h : ses.Sound) (id : EntryId) (evs : List Event) :
    ses.removals id evs ≤ ses.deletions evs := by
  induction evs generalizing ses with
  | nil => exact Nat.le_refl _
  | cons ev evs ih =>
    rw [removals, deletions]
    refine Nat.add_le_add ?_ (ih (h.react ev))
    split_ifs with hr hd hd
    · exact Nat.le_refl _
    · exact absurd (h.generationAt_of_removes hr).1 hd
    · exact Nat.zero_le _
    · exact Nat.le_refl _

/-- **The generation of a slot counts how often an entry was taken out of it.** -/
theorem Sound.generationAt_run (h : ses.Sound) (id : EntryId) (evs : List Event) :
    (ses.run evs).store.table.generationAt id =
      ses.store.table.generationAt id + UInt32.ofNat (ses.removals id evs) := by
  induction evs generalizing ses with
  | nil => simp [removals]
  | cons ev evs ih =>
    rw [run_cons, ih (h.react ev), removals]
    split_ifs with hr
    · rw [(h.generationAt_of_removes hr).2, UInt32.ofNat_add, UInt32.add_assoc]
      rfl
    · rw [(h.keeps_react hr).generationAt_eq, Nat.zero_add]

theorem loses_iff : ses.Loses id evs ↔ 0 < ses.removals id evs := by
  induction evs generalizing ses with
  | nil => simp [Loses, removals]
  | cons ev evs ih =>
    have hcons : ses.Loses id (ev :: evs) ↔ ses.Removes ev id ∨ (ses.react ev).Loses id evs := by
      constructor
      · rintro ⟨before, ev', later, heq, hr⟩
        cases before with
        | nil =>
          cases heq
          exact .inl hr
        | cons x before =>
          cases heq
          exact .inr ⟨before, ev', later, rfl, hr⟩
      · rintro (hr | ⟨before, ev', later, rfl, hr⟩)
        · exact ⟨[], ev, evs, rfl, hr⟩
        · exact ⟨ev :: before, ev', later, rfl, hr⟩
    rw [hcons, ih, removals]
    split_ifs with hr
    · exact iff_of_true (.inl hr) (by omega)
    · rw [Nat.zero_add]
      exact or_iff_right hr

/-- An entry that is not taken out keeps its slot and its kind. -/
theorem Sound.keeps_run (h : ses.Sound) (hr : ses.removals id evs = 0) :
    ses.store.table.Keeps (ses.run evs).store.table id := by
  induction evs generalizing ses with
  | nil => exact .refl _ id
  | cons ev evs ih =>
    rw [removals, Nat.add_eq_zero_iff] at hr
    refine (h.keeps_react fun hrem => ?_).trans (ih (h.react ev) hr.2)
    rw [if_pos hrem] at hr
    exact absurd hr.1 (by decide)

/-- A file that is open stays open on its descriptor until that one is closed. -/
theorem Sound.exists_offset_run (h : ses.Sound) (hf : ses.files.find? fd = some file)
    (hclose : .call (.closeFile fd) ∉ evs) :
    ∃ offset, (ses.run evs).files.find? fd = some { file with offset := offset } := by
  induction evs generalizing ses file with
  | nil => exact ⟨file.offset, hf⟩
  | cons ev evs ih =>
    -- The event may move the position, which the induction therefore leaves open.
    obtain ⟨hev, hclose⟩ := List.ne_and_not_mem_of_not_mem_cons hclose
    obtain ⟨offset, hf⟩ : ∃ offset,
        (ses.react ev).files.find? fd = some { file with offset := offset } := by
      cases ev with
      | call r =>
        apply (served_handle ses r).files.exists_offset h.files hf
        rintro rfl
        exact hev rfl
      | operate op => exact ⟨file.offset, hf⟩
    obtain ⟨last, hlast⟩ := ih (h.react ev) hf hclose
    exact ⟨last, hlast⟩

end Session

end FileTree
