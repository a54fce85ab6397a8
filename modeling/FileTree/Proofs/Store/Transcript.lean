import FileTree.Proofs.Store.Alike
import FileTree.Proofs.Store.Integrity

/-!
# What a user sees of a store

A user performs operations on a store, asks it questions, and turns the switches of its log. What
he sees are the answers. They depend on the operations and the questions, and on the limits of the
configuration: not on the policy for old buffers, the room beyond the content of files or the size
of the log, not on whether the heap takes buffers back, and not on what is done to the log.

## Main definitions

* `Query`, `Store.ask`: a question about a store, and the reply
* `Act`, `Store.act`, `Store.enact`: what a user does, and what comes of it
* `Act.shows`: the act is seen
* `Store.transcript`: the answers that a user sees

## Main results

* `Store.Alike.ask`: questions have the same reply in stores that look alike
* `Store.transcript_eq_and_alike_enact`: what a user sees of two fresh stores with the same limits
-/

namespace FileTree

/-- A question about a store. -/
inductive Query where
  | entry (id : EntryId)
  | generation (id : EntryId)
  | count
  | current
  | resolve (path : String)
  | listChildren (dir : EntryId) (max : Nat)
  | read (id : EntryId) (target : List UInt8)
  | readAll (id : EntryId)
  | fullPath (id : EntryId)
  | walk (id : EntryId)
  | verify
  deriving DecidableEq

/-- What a question is replied with. -/
inductive Reply where
  | view (view : Entry.View)
  | generation (g : UInt32)
  | count (n : Nat)
  | entry (id : EntryId)
  | entries (ids : List EntryId)
  | copied (count : Nat) (target : List UInt8)
  | bytes (data : List UInt8)
  | path (text : String)
  | sound
  deriving DecidableEq

/-- What a user does with a store. -/
inductive Act where
  | operate (op : Operation)
  | ask (q : Query)
  | setLogging (on : Bool)
  | setLogLevel (level : Level)
  | clearLog
  deriving DecidableEq

/-- The act is an operation or a question, whose answer is seen. -/
def Act.shows : Act → Bool
  | .operate _ | .ask _ => true
  | .setLogging _ | .setLogLevel _ | .clearLog => false

/-- What is seen of an act. -/
inductive Sight where
  | answer (a : Except StoreError Answer)
  | reply (r : Except StoreError Reply)
  deriving DecidableEq

namespace Store

/-- The reply to a question. Of an entry, what it shows. -/
def ask (s : Store) : Query → Except StoreError Reply
  | .entry id => (s.entry id).map fun e => .view e.view
  | .generation id => (s.table.generation id).map .generation
  | .count => .ok (.count s.table.size)
  | .current => .ok (.entry s.cursor)
  | .resolve path => (s.resolve path).map .entry
  | .listChildren dir max => (s.listChildren dir max).map .entries
  | .read id target => (s.read id target).map fun r => .copied r.1 r.2
  | .readAll id => (s.readAll id).map .bytes
  | .fullPath id => (s.fullPath id).map .path
  | .walk id => (s.walk id).map .entries
  | .verify => s.verify.map fun _ => .sound

/-- The store after an act. -/
def act (s : Store) : Act → Store
  | .operate op => (s.perform op).2
  | .ask _ => s
  | .setLogging on => { s with log := s.log.setEnabled on }
  | .setLogLevel level => { s with log := s.log.setMinLevel level }
  | .clearLog => { s with log := s.log.clear }

/-- The store after acts in order. -/
def enact (s : Store) (acts : List Act) : Store :=
  acts.foldl act s

/-- What is seen of an act, if anything is. -/
def sight? (s : Store) : Act → Option Sight
  | .operate op => some (.answer (s.perform op).1)
  | .ask q => some (.reply (s.ask q))
  | .setLogging _ | .setLogLevel _ | .clearLog => none

/-- What is seen of acts in order. -/
def transcript (s : Store) : List Act → List Sight
  | [] => []
  | a :: acts => (s.sight? a).toList ++ (s.act a).transcript acts

variable {s t : Store} {a : Act}

/-! ## Questions -/

theorem Alike.readAll_eq (h : s.Alike t) (id : EntryId) : t.readAll id = s.readAll id := by
  unfold readAll
  rcases h.table.get_cases id with ⟨cause, hg, hg'⟩ | ⟨e, e', hg, hg', heq⟩
  · rw [hg, hg']
  · have hdata : e.data = e'.data := congrArg Entry.View.data heq
    simp only [hg, hg', Entry.isDirectory_eq_of_view_eq heq, hdata]

theorem Alike.listChildren_eq (h : s.Alike t) (dir : EntryId) (max : Nat) :
    t.listChildren dir max = s.listChildren dir max := by
  unfold listChildren
  rcases h.table.get_cases dir with ⟨cause, hg, hg'⟩ | ⟨e, e', hg, hg', heq⟩
  · rw [hg, hg']
  · have hchildren : e.children = e'.children := congrArg Entry.View.children heq
    simp only [hg, hg', Entry.isDirectory_eq_of_view_eq heq, hchildren]

theorem Alike.fullPath_eq (h : s.Alike t) (id : EntryId) : t.fullPath id = s.fullPath id := by
  unfold fullPath
  rw [h.table.namesUp_eq, h.limits.maxPathDepth_eq, h.limits.maxPathLength_eq]
  rcases h.table.get_cases id with ⟨cause, hg, hg'⟩ | ⟨e, e', hg, hg', -⟩
  · rw [hg, hg']
  · rw [hg, hg']

/-- Questions have the same reply in stores that look alike. -/
theorem Alike.ask (h : s.Alike t) (hs : s.Sound) (ht : t.Sound) (q : Query) :
    t.ask q = s.ask q := by
  cases q with
  | entry id =>
    rcases h.table.get_cases id with ⟨cause, hg, hg'⟩ | ⟨e, e', hg, hg', heq⟩
    · simp only [Store.ask, Store.entry, hg, hg']
    · simp only [Store.ask, Store.entry, hg, hg', heq, Except.map]
  | generation id => rw [Store.ask, h.table.generation_eq, Store.ask]
  | count => rw [Store.ask, Table.size, h.table.size_eq, h.table.free_eq, Store.ask, Table.size]
  | current => rw [Store.ask, h.cursor_eq, Store.ask]
  | resolve path =>
    rw [Store.ask, Store.resolve, h.table.resolve_eq, h.cursor_eq, Store.ask, Store.resolve]
  | listChildren dir max => rw [Store.ask, h.listChildren_eq, Store.ask]
  | read id target => rw [Store.ask, Store.read, h.readAll_eq, Store.ask, Store.read]
  | readAll id => rw [Store.ask, h.readAll_eq, Store.ask]
  | fullPath id => rw [Store.ask, h.fullPath_eq, Store.ask]
  | walk id => rw [Store.ask, Store.walk, h.table.walk_eq, Store.ask, Store.walk]
  | verify =>
    rw [Store.ask, Store.ask, hs.verify_eq_ok, ht.verify_eq_ok]

/-! ## Acts -/

theorem reaches_act (s : Store) (a : Act) : s.Reaches (s.act a) := by
  cases a with
  | operate op => exact .perform op .refl
  | ask q => exact .refl
  | setLogging on => exact .relog _ .refl
  | setLogLevel level => exact .relog _ .refl
  | clearLog => exact .relog _ .refl

/-- An act that is not seen changes the log alone. -/
theorem unseen_act (s : Store) (ha : a.shows = false) : s.Unseen (s.act a) := by
  cases a with
  | operate op => cases ha
  | ask q => cases ha
  | setLogging on => exact ⟨rfl, rfl, rfl, rfl⟩
  | setLogLevel level => exact ⟨rfl, rfl, rfl, rfl⟩
  | clearLog => exact ⟨rfl, rfl, rfl, rfl⟩

theorem sight?_of_not_shows (s : Store) (ha : a.shows = false) : s.sight? a = none := by
  cases a with
  | operate op => cases ha
  | ask q => cases ha
  | _ => rfl

theorem Alike.act_of_not_shows (h : s.Alike t) (ha : a.shows = false) : (s.act a).Alike t :=
  h.unseen (s.unseen_act ha) (.refl t)

/-- The same act is seen alike in stores that look alike, and leaves them alike. -/
theorem Alike.act (h : s.Alike t) (hs : s.Sound) (ht : t.Sound) (ha : a.shows = true) :
    t.sight? a = s.sight? a ∧ (s.act a).Alike (t.act a) := by
  cases a with
  | operate op =>
    have hstep := h.perform op
    simp only [sight?, Store.act]
    generalize s.perform op = o at hstep ⊢
    generalize t.perform op = o' at hstep ⊢
    obtain ⟨h'⟩ := hstep
    exact ⟨rfl, h'⟩
  | ask q => exact ⟨by rw [sight?, h.ask hs ht, sight?], h⟩
  | setLogging on => cases ha
  | setLogLevel level => cases ha
  | clearLog => cases ha

/-- Acts that are not seen may be left out in one of two stores that look alike. -/
theorem Alike.enact_filter (h : s.Alike t) (hs : s.Sound) (ht : t.Sound) (acts : List Act) :
    t.transcript (acts.filter Act.shows) = s.transcript acts ∧
      (s.enact acts).Alike (t.enact (acts.filter Act.shows)) := by
  induction acts generalizing s t with
  | nil => exact ⟨rfl, h⟩
  | cons a acts ih =>
    cases ha : a.shows with
    | false =>
      obtain ⟨htr, halike⟩ := ih (h.act_of_not_shows ha) ((s.reaches_act a).sound hs) ht
      rw [List.filter_cons_of_neg (by simp [ha]), transcript, s.sight?_of_not_shows ha]
      exact ⟨htr, halike⟩
    | true =>
      obtain ⟨hsight, hnext⟩ := h.act hs ht ha
      obtain ⟨htr, halike⟩ := ih hnext ((s.reaches_act a).sound hs)
        ((t.reaches_act a).sound ht)
      rw [List.filter_cons_of_pos ha, transcript, transcript, hsight, htr]
      exact ⟨rfl, halike⟩

/-- Fresh stores look alike when their limits agree and their heaps have none. -/
theorem alike_init {config config' : Config} {heap heap' : Heap} (id id' : StoreId)
    (hlimits : config.SameLimits config') (hl : heap.limit = none) (hl' : heap'.limit = none) :
    (init id config heap).Alike (init id' config' heap') where
  table := by
    show (Table.new _).Alike (Table.new _)
    rw [hlimits.maxEntries_eq]
    exact .refl _
  cursor_eq := rfl
  limits := hlimits
  unlimited := hl
  unlimited' := hl'

/-- **What a user sees of two fresh stores.** The configurations agree in the limits of the tree
and the heaps have none; the heaps may differ in whether they take buffers back. If the same
operations and questions follow one another, whatever is done to the logs meanwhile, then every
operation and every question has the same answer, and the tables look alike in the end. As a
beginning of the acts is a run of its own, they do so after every step. -/
theorem transcript_eq_and_alike_enact {id id' : StoreId} {config config' : Config}
    {heap heap' : Heap} {acts acts' : List Act} (hs : fresh id config heap = .ok s)
    (ht : fresh id' config' heap' = .ok t) (hlimits : config.SameLimits config')
    (hl : heap.limit = none) (hl' : heap'.limit = none)
    (hacts : acts.filter Act.shows = acts'.filter Act.shows) :
    s.transcript acts = t.transcript acts' ∧
      (s.enact acts).table.Alike (t.enact acts').table ∧
      (t.enact acts').cursor = (s.enact acts).cursor := by
  obtain ⟨hc, rfl⟩ := fresh_eq_ok_iff.mp hs
  obtain ⟨hc', rfl⟩ := fresh_eq_ok_iff.mp ht
  have halike := alike_init id id' hlimits hl hl'
  obtain ⟨htr, hend⟩ := halike.enact_filter (sound_init hc id heap) (sound_init hc' id' heap') acts
  obtain ⟨htr', hend'⟩ := (Alike.refl (s := init id' config' heap') hl').enact_filter
    (sound_init hc' id' heap') (sound_init hc' id' heap') acts'
  rw [← hacts] at htr' hend'
  have hends := hend.trans hend'.symm
  exact ⟨htr.symm.trans htr', hends.table, hends.cursor_eq⟩

/-- One heap takes back what the other keeps, one log is silent while the other is read: a directory
with a file that was written twice is deleted, and its slots are used again. -/
theorem transcript_eq_and_alike_enact_of_refused_release :
    let config : Config := { maxEntries := 4 }
    let config' : Config :=
      { maxEntries := 4, writeSlack := 0, logCapacity := 2, writePolicy := .leakOnReplace }
    let s := init ⟨0⟩ config {}
    let t := init ⟨1⟩ config' { refusesReleases := true }
    let acts : List Act :=
      [.operate (.createDirectory "d"), .operate (.changeDirectory ⟨1⟩),
        .operate (.createFile "f"), .operate (.write ⟨2⟩ [1, 2]), .operate (.write ⟨2⟩ [3]),
        .ask (.readAll ⟨2⟩), .operate (.delete ⟨1⟩), .operate (.createFile "g"),
        .ask (.fullPath ⟨1⟩), .ask .verify]
    let acts' := acts.take 3 ++ .setLogging false :: acts.drop 3 ++ [.setLogLevel .error, .clearLog]
    (s.enact acts).heap.stats.liveBuffers = 0 ∧ (t.enact acts').heap.stats.liveBuffers = 2 ∧
      s.transcript acts = t.transcript acts' ∧
      (s.enact acts).table.Alike (t.enact acts').table ∧
      (t.enact acts').cursor = (s.enact acts).cursor := by
  intro config config' s t acts acts'
  have hs : fresh ⟨0⟩ config {} = .ok s := rfl
  have ht : fresh ⟨1⟩ config' { refusesReleases := true } = .ok t := rfl
  have hlimits : config.SameLimits config' := ⟨rfl, rfl, rfl, rfl, rfl⟩
  refine ⟨by decide +kernel, by decide +kernel, ?_⟩
  exact transcript_eq_and_alike_enact hs ht hlimits rfl rfl rfl

end Store

end FileTree
