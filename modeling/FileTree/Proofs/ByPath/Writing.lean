import FileTree.Proofs.ByPath.Listing
import FileTree.Proofs.ByPath.Usage
import FileTree.Proofs.Store.Composition
import FileTree.Proofs.Store.NewFile
import FileTree.Proofs.Store.Writing

/-!
# Writing by path

A path is read in two ways. Who looks an entry up cuts it at its separators and goes from directory
to directory; who makes a file takes it as one name, without its leading separators and cut to the
longest length, and puts the file into the current directory. So a path need not lead to the file
that was made for it. But what is asked for twice is found the second time: a path that leads
nowhere leads to the new file after all, or to nothing still, and then the name is taken by it.

Where the two readings agree the path leads to the file that was written: when it led there before,
or when it is a single name that is not cut and starts in the current directory.

## Main definitions

* `ByPath.Agrees`: looking a path up and making a file for it come to the same entry
* `ByPath.Wrote`: what a write by path leaves

## Main results

* `Store.With.way_old`: a way that does not end at a new entry was there before
* `ByPath.resolveOrCreate_again`: what was found or made is found again
* `ByPath.Agrees.resolve_eq`: where the readings agree, the path leads to the entry
* `ByPath.Agrees.read_of_write`: and what was written is read again, in any store
* `ByPath.wrote_of_write`: what every write by path that succeeds leaves
-/

namespace FileTree

namespace Store

variable {s s' : Store} {id x start : EntryId} {e : Entry} {kind : EntryKind} {name path : String}
  {names : List String} {data : List UInt8}

/-! ## Following names in a store that changed -/

/-- With the content of a file replaced, names lead where they did. -/
theorem Rewritten.signpost_eq (h : s.Rewritten id e data s') (hf : s.table.find? id = some e)
    (x : EntryId) :
    (s'.table.find? x).map Entry.signpost = (s.table.find? x).map Entry.signpost := by
  by_cases hx : x = id
  · obtain ⟨e', hf', -, -, heq⟩ := h.exists_entry
    rw [hx, hf, hf', heq]
    rfl
  · rw [h.others_eq x hx]

theorem Rewritten.findChild?_eq (h : s.Rewritten id e data s') (hf : s.table.find? id = some e) :
    s'.table.findChild? = s.table.findChild? :=
  Table.findChild?_congr (h.signpost_eq hf)

theorem Rewritten.resolve_eq (h : s.Rewritten id e data s') (hf : s.table.find? id = some e)
    (path : String) : s'.resolve path = s.resolve path := by
  rw [resolve, resolve, h.cursor_eq]
  exact Table.resolve_congr (h.signpost_eq hf) _ _

/-- An entry other than the new one was there before, under the same name and with the same
children but for the new one. -/
theorem With.exists_old (h : s.With kind name id s') (hx : s'.table.find? x = some e)
    (hne : x ≠ id) : ∃ e₀, s.table.find? x = some e₀ ∧ e.name = e₀.name ∧
      ∀ child ∈ e.children, child ≠ id → child ∈ e₀.children := by
  by_cases hcur : x = s.cursor
  · obtain ⟨dir, hdir, hdir'⟩ := h.find?_cursor
    obtain rfl := Option.some.inj ((hcur ▸ hx).symm.trans hdir')
    refine ⟨dir, hcur ▸ hdir, rfl, fun child hm hchild => ?_⟩
    rcases List.mem_append.mp hm with hm | hm
    · exact hm
    · exact absurd (List.mem_singleton.mp hm) hchild
  · exact ⟨e, (h.find?_other x hne hcur).symm.trans hx, rfl, fun _ hm _ => hm⟩

/-- No way goes on from the new entry, which has no children. -/
theorem With.eq_of_way (h : s.With kind name id s') (hw : s'.table.Way id names x) : x = id := by
  cases hw with
  | here _ => rfl
  | down hf hm _ _ =>
    obtain rfl := Option.some.inj (hf.symm.trans h.find?_new)
    cases hm

/-- A way that does not end at the new entry was there before. -/
theorem With.way_old (h : s.With kind name id s') (hw : s'.table.Way start names x)
    (hx : x ≠ id) : s.table.Way start names x := by
  induction hw with
  | here hf =>
    obtain ⟨e₀, hf₀, -⟩ := h.exists_old hf hx
    exact .here hf₀
  | @down y child target dir c names hf hm hc hw ih =>
    have hchild : child ≠ id := by
      rintro rfl
      exact hx (h.eq_of_way hw)
    have hy : y ≠ id := by
      rintro rfl
      exact hx (h.eq_of_way (.down hf hm hc hw))
    obtain ⟨dir₀, hdir₀, -, hchildren⟩ := h.exists_old hf hy
    obtain ⟨c₀, hc₀, hname, -⟩ := h.exists_old hc hchild
    rw [hname]
    exact .down hdir₀ (hchildren child hm hchild) hc₀ (ih hx)

/-- When the content of the new entry is replaced, its directory still lists it, and nothing else
differs. -/
theorem With.of_rewritten {s'' : Store} (h : s.With kind name id s')
    (hw : s'.Rewritten id e data s'') :
    (∃ dir, s.table.find? s.cursor = some dir ∧
      s''.table.find? s.cursor = some { dir with children := dir.children ++ [id] }) ∧
    ∀ x, x ≠ id → x ≠ s.cursor → s''.table.find? x = s.table.find? x := by
  obtain ⟨dir, hdir, hdir'⟩ := h.find?_cursor
  have hcur : s.cursor ≠ id := by
    rintro rfl
    cases h.isUsed_eq.symm.trans (Table.isUsed_of_find? hdir)
  exact ⟨⟨dir, hdir, (hw.others_eq _ hcur).trans hdir'⟩, fun x hx hne =>
    (hw.others_eq x hx).trans (h.find?_other x hx hne)⟩

end Store

namespace ByPath

variable {s s₁ s' : Store} {id x : EntryId} {path : String} {data : List UInt8} {config : Config}
  {heap : Heap}

/-! ## Found or made -/

/-- An entry was there, or none was and the path gave a file its name. -/
theorem resolveOrCreate_cases (hs : s.Sound) (h : resolveOrCreate s path = (.ok id, s₁)) :
    (s.resolve path = .ok id ∧ s₁ = s) ∨
      s.resolve path = .error (.notFound path) ∧ s.create .file path = (.ok id, s₁) := by
  unfold resolveOrCreate at h
  rcases hs.exists_resolve_eq_ok_or path with ⟨x, -, hx⟩ | hmissing
  · rw [hx] at h
    cases h
    exact .inl ⟨hx, rfl⟩
  · rw [hmissing] at h
    exact .inr ⟨hmissing, h⟩

theorem resolveOrCreate_of_resolve (h : s.resolve path = .ok id) :
    resolveOrCreate s path = (.ok id, s) := by
  simp only [resolveOrCreate, h]

theorem resolveOrCreate_of_missing (h : s.resolve path = .error (.notFound path)) :
    resolveOrCreate s path = s.createFile path := by
  simp only [resolveOrCreate, h]

/-- What was there is in a store that did not change, and what was made is new. -/
theorem eq_or_with_of_resolveOrCreate (hs : s.Sound)
    (h : resolveOrCreate s path = (.ok id, s₁)) :
    (s₁ = s ∧ s.table.isUsed id = true) ∨ s.With .file (s.nameFor path) id s₁ := by
  rcases resolveOrCreate_cases hs h with ⟨hok, rfl⟩ | ⟨-, hcreate⟩
  · obtain ⟨e, he⟩ := hs.exists_entry_of_resolve hok
    exact .inl ⟨rfl, Table.isUsed_of_find? he⟩
  · exact hs.eq_or_with_of_create hcreate

theorem eq_of_resolveOrCreate (hs : s.Sound) (h : resolveOrCreate s path = (.ok id, s₁))
    (hused : s.table.isUsed id = true) : s₁ = s := by
  rcases eq_or_with_of_resolveOrCreate hs h with ⟨rfl, -⟩ | hwith
  · rfl
  · cases hwith.isUsed_eq.symm.trans hused

theorem with_of_resolveOrCreate (hs : s.Sound) (h : resolveOrCreate s path = (.ok id, s₁))
    (hfree : s.table.isUsed id = false) : s.With .file (s.nameFor path) id s₁ := by
  rcases eq_or_with_of_resolveOrCreate hs h with ⟨-, hused⟩ | hwith
  · cases hfree.symm.trans hused
  · exact hwith

/-- Neither looking an entry up nor making one moves the cursor or vacates a slot. -/
theorem frame_of_resolveOrCreate (hs : s.Sound) (h : resolveOrCreate s path = (.ok id, s₁)) :
    s₁.cursor = s.cursor ∧ s₁.config = s.config ∧
      ∀ x, s₁.table.generationAt x = s.table.generationAt x :=
  Store.frame_of_eq_or_with (eq_or_with_of_resolveOrCreate hs h)

theorem reachable_resolveOrCreate (hs : Store.Reachable config heap s)
    (h : resolveOrCreate s path = (.ok id, s₁)) : Store.Reachable config heap s₁ := by
  rcases resolveOrCreate_cases hs.sound h with ⟨-, rfl⟩ | ⟨-, hcreate⟩
  · exact hs
  · obtain ⟨storeId, s₀, hs₀, hr⟩ := hs
    have hstore : s₁ = (s.perform (.createFile path)).2 := congrArg Prod.snd hcreate.symm
    exact ⟨storeId, s₀, hs₀, hstore ▸ hr.perform (.createFile path)⟩

/-- **What was found or made is found again.** After a file was made the path may lead to it, and to
nothing else; if it does not, the name is found in the current directory. -/
theorem resolveOrCreate_again (hs : Store.Reachable config heap s)
    (h : resolveOrCreate s path = (.ok id, s₁)) : resolveOrCreate s₁ path = (.ok id, s₁) := by
  have hs₁ := reachable_resolveOrCreate hs h
  rcases eq_or_with_of_resolveOrCreate hs.sound h with ⟨rfl, -⟩ | hwith
  · exact h
  rcases resolveOrCreate_cases hs.sound h with ⟨-, rfl⟩ | ⟨hmissing, hcreate⟩
  · exact h
  rcases hs₁.sound.exists_resolve_eq_ok_or path with ⟨x, -, hx⟩ | hmissing'
  · have hway := (hs₁.sound.resolve_eq_ok_iff hs₁.distinctNames).mp hx
    have hsame : x = id := by
      by_contra hne
      have hold := hwith.way_old hway hne
      rw [Store.startOf, hwith.cursor_eq] at hold
      rw [(hs.sound.resolve_eq_ok_iff hs.distinctNames).mpr hold] at hmissing
      cases hmissing
    rw [resolveOrCreate_of_resolve hx, hsame]
  · rw [resolveOrCreate_of_missing hmissing']
    exact hs.create_create hcreate .file

/-- So it is when its content was replaced meanwhile. -/
theorem resolveOrCreate_rewritten (hs : Store.Reachable config heap s) {e : Entry}
    (h : resolveOrCreate s path = (.ok id, s)) (hw : s.Rewritten x e data s')
    (hf : s.table.find? x = some e) : resolveOrCreate s' path = (.ok id, s') := by
  rcases resolveOrCreate_cases hs.sound h with ⟨hok, -⟩ | ⟨hmissing, hcreate⟩
  · exact resolveOrCreate_of_resolve ((hw.resolve_eq hf path).trans hok)
  · obtain ⟨hname, hfound⟩ := hs.findChild?_of_create hcreate
    have hsame : s'.nameFor path = s.nameFor path := by
      rw [Store.nameFor, Store.nameFor, hw.config_eq]
    rw [resolveOrCreate_of_missing ((hw.resolve_eq hf path).trans hmissing)]
    refine Store.create_of_findChild? (hsame.symm ▸ hname) ?_
    rw [hw.findChild?_eq hf, hw.cursor_eq, hsame]
    exact hfound

/-! ## Where the two readings agree -/

/-- Looking the path up and making a file for it come to the same entry: the path leads to an entry
already, or it is one name that is not cut, looked up where the file would be made. -/
def Agrees (s : Store) (path : String) : Prop :=
  (∃ id, s.resolve path = .ok id) ∨
    Path.separator ∉ (Path.creationName path).toList ∧
      (Path.creationName path).length ≤ s.config.maxNameLength.toNat ∧
      (Path.isAbsolute path = false ∨ s.cursor = .root)

theorem agrees_of_notMem (hsep : Path.separator ∉ path.toList)
    (hlen : path.length ≤ s.config.maxNameLength.toNat) : Agrees s path := by
  have hname := Path.creationName_of_notMem hsep
  exact .inr ⟨by rwa [hname], by rwa [hname], .inl (Path.isAbsolute_of_notMem hsep)⟩

/-- Where the readings agree, the path leads to what was found or made, in any store where that is
there. -/
theorem Agrees.resolve_of_isUsed (ha : Agrees s path)
    (h : resolveOrCreate s path = (.ok id, s₁)) (hused : s₁.table.isUsed id = true) :
    s₁.resolve path = .ok id := by
  unfold resolveOrCreate at h
  split at h
  · rename_i x hx
    cases h
    exact hx
  · rename_i hmissing
    rcases ha with ⟨x, hx⟩ | ⟨hsep, hlen, hstart⟩
    · rw [hmissing] at hx
      cases hx
    obtain ⟨hne, hcursor, hfound⟩ := Store.findChild?_of_create h hused
    rw [Store.nameFor, Store.cut_eq_self hlen] at hne hfound
    have hseg : Path.segments path = [Path.creationName path] := by
      rw [← Path.segments_creationName, Path.segments_of_notMem hsep hne]
    rw [Store.resolve, hcursor]
    exact Table.resolve_of_findChild? hseg hstart hfound
  · cases h

/-- Where the readings agree, the path leads to what was found or made. -/
theorem Agrees.resolve_eq (ha : Agrees s path) (hs : Store.Reachable config heap s)
    (h : resolveOrCreate s path = (.ok id, s₁)) : s₁.resolve path = .ok id :=
  ha.resolve_of_isUsed h (Store.isUsed_of_eq_or_with (eq_or_with_of_resolveOrCreate hs.sound h))

/-! ## Writing -/

theorem write_eq_ok_iff : write s path data = (.ok id, s') ↔
    ∃ s₁, resolveOrCreate s path = (.ok id, s₁) ∧ s₁.write id data = (.ok (), s') := by
  unfold write
  obtain ⟨c | x, s₁⟩ := resolveOrCreate s path
  · simp
  · dsimp only
    rcases hw : s₁.write x data with ⟨c | _, s₂⟩
    · constructor
      · intro h
        cases h
      · rintro ⟨s₁, h, hok⟩
        cases h
        rw [hw] at hok
        cases hok
    · constructor
      · intro h
        cases h
        exact ⟨s₁, rfl, hw⟩
      · rintro ⟨s₁, h, hok⟩
        cases h
        rw [hw] at hok
        cases hok
        rfl

/-- A write goes to what is found or made. -/
theorem eq_of_write (h : resolveOrCreate s path = (.ok id, s₁))
    (hw : write s path data = (.ok x, s')) : x = id := by
  obtain ⟨s₂, h₂, -⟩ := write_eq_ok_iff.mp hw
  rw [h] at h₂
  cases h₂
  rfl

/-- Where the readings agree, what was written is read again, in any store. -/
theorem Agrees.read_of_write (ha : Agrees s path) (h : write s path data = (.ok id, s')) :
    read s' path = .ok data := by
  obtain ⟨s₁, hfirst, hwrite⟩ := write_eq_ok_iff.mp h
  obtain ⟨e, hf, -, hw⟩ := Store.exists_rewritten_of_write hwrite
  have hresolve := ha.resolve_of_isUsed hfirst (Table.isUsed_of_find? hf)
  simp only [read, hw.resolve_eq hf, hresolve, hw.readAll_eq, lift]

/-- What a write by path leaves. -/
structure Wrote (s : Store) (path : String) (data : List UInt8) (id : EntryId) (s' : Store) :
    Prop where
  readAll_eq : s'.readAll id = .ok data
  /-- The next write to the path goes to the same entry, if it succeeds. -/
  again : ∀ ⦃more id' s''⦄, write s' path more = (.ok id', s'') → id' = id
  read_eq : Agrees s path → read s' path = .ok data
  exists_stat : Agrees s path →
    ∃ st, stat s' path = .ok st ∧ st.id = id ∧ st.size = data.length
  /-- If the entry was there, no other entry has changed. -/
  old : s.table.isUsed id = true → ∀ x, x ≠ id → s'.table.find? x = s.table.find? x
  /-- If the entry is new, the current directory lists it last, and no other entry has changed. -/
  new : s.table.isUsed id = false →
    (∃ dir, s.table.find? s.cursor = some dir ∧
      s'.table.find? s.cursor = some { dir with children := dir.children ++ [id] }) ∧
    ∀ x, x ≠ id → x ≠ s.cursor → s'.table.find? x = s.table.find? x
  generationAt_eq : ∀ x, s'.table.generationAt x = s.table.generationAt x
  cursor_eq : s'.cursor = s.cursor

/-- **What every write by path that succeeds leaves.** The entry holds the data and is found again
by the next write; where looking up and making agree, it is what the path leads to; and nothing else
has changed. -/
theorem wrote_of_write (hs : Store.Reachable config heap s)
    (h : write s path data = (.ok id, s')) : Wrote s path data id s' := by
  obtain ⟨s₁, hfirst, hwrite⟩ := write_eq_ok_iff.mp h
  have hs₁ := reachable_resolveOrCreate hs hfirst
  have hw := s₁.written_write id data
  have hsteps := s₁.steps_write id data
  rw [hwrite] at hw hsteps
  have hs' : s'.Sound := hsteps.sound hs₁.sound
  obtain ⟨e, hf⟩ : ∃ e, s₁.table.find? id = some e := by
    cases hw with
    | filled _ hf _ _ => exact ⟨_, hf⟩
  have hnew := hw.rewritten hf
  have hresolve : Agrees s path → s'.resolve path = .ok id := fun ha =>
    (hnew.resolve_eq hf path).trans (ha.resolve_eq hs hfirst)
  obtain ⟨hcursor, -, hgeneration⟩ := frame_of_resolveOrCreate hs.sound hfirst
  refine ⟨hnew.readAll_eq, fun more id' s'' hmore => ?_, fun ha => ?_, fun ha => ?_,
    fun hused x hx => ?_, fun hfree => ?_, fun x => (hnew.generationAt_eq x).trans (hgeneration x),
    hnew.cursor_eq.trans hcursor⟩
  · have hagain := resolveOrCreate_rewritten hs₁ (resolveOrCreate_again hs hfirst) hnew hf
    exact eq_of_write hagain hmore
  · simp only [read, hresolve ha, hnew.readAll_eq]
    rfl
  · obtain ⟨e', hf', hsize, -⟩ := hnew.exists_entry
    obtain ⟨st, hstat, hid, hst, -⟩ :=
      exists_stat hs' ((target_eq_resolve hs' path).trans (hresolve ha)) hf'
    exact ⟨st, hstat, hid, hst.trans hsize⟩
  · rw [hnew.others_eq x hx, eq_of_resolveOrCreate hs.sound hfirst hused]
  · exact (with_of_resolveOrCreate hs.sound hfirst hfree).of_rewritten hnew

/-- Two paths that lead nowhere. The first has a separator in it and is too long: the file gets its
first three characters as a name, and the path leads nowhere still. The second leads to the file. -/
theorem wrote_of_write_of_two_readings :
    let config : Config := { maxEntries := 4, maxNameLength := 3 }
    let s := (Store.init ⟨0⟩ config {}).run [.createDirectory "d"]
    (Store.Reachable config {} s ∧ (write s "d/ab" [1]).1 = .ok ⟨2⟩ ∧
      read (write s "d/ab" [1]).2 "d/ab" = .error (.store (.notFound "d/ab")) ∧
      read (write s "d/ab" [1]).2 "d" = .error (.store (.notAFile ⟨1⟩)) ∧
      (write s "//xy" [1]).1 = .ok ⟨2⟩ ∧ Agrees s "//xy") ∧
      Wrote s "d/ab" [1] ⟨2⟩ (write s "d/ab" [1]).2 ∧
      Wrote s "//xy" [1] ⟨2⟩ (write s "//xy" [1]).2 := by
  intro config s
  have hs : Store.Reachable config {} s := Store.reachable_run rfl ⟨0⟩ {} _
  have hfirst : (write s "d/ab" [1]).1 = .ok ⟨2⟩ := by decide +kernel
  have hlost : read (write s "d/ab" [1]).2 "d/ab" = .error (.store (.notFound "d/ab")) := by
    decide +kernel
  have hdir : read (write s "d/ab" [1]).2 "d" = .error (.store (.notAFile ⟨1⟩)) := by
    decide +kernel
  have hsecond : (write s "//xy" [1]).1 = .ok ⟨2⟩ := by decide +kernel
  have hagrees : Agrees s "//xy" :=
    .inr ⟨by decide +kernel, by decide +kernel, .inr (by decide +kernel)⟩
  clear_value s
  exact ⟨⟨hs, hfirst, hlost, hdir, hsecond, hagrees⟩, wrote_of_write hs (Prod.ext hfirst rfl),
    wrote_of_write hs (Prod.ext hsecond rfl)⟩

end ByPath

end FileTree
