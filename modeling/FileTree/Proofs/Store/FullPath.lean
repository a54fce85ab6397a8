import FileTree.Proofs.Store.Naming
import Mathlib.Data.List.DropRight

/-!
# Full paths

The full path of an entry has names of the way from the root: of these the last ones, as many as
the limit on depth admits, and of the last ones the first, as many as the limit on length admits.
Where neither limit cuts and no name has a separator in it, the full path names the entry.

## Main definitions

* `Store.FullPathOf`: the full path of an entry keeps to the limits, and leads back to the entry
  where they do not cut

## Main results

* `Store.Sound.fullPath_eq`: a full path is rendered from the last names on the way
* `Store.Reachable.fullPath_eq_absolute`: where neither limit cuts, all names are in the full path
* `Store.Reachable.fullPathOf`: every entry of a reachable store has such a full path
-/

namespace FileTree.Store

variable {s : Store} {id : EntryId} {e : Entry} {names : List String} {config : Config}
  {heap : Heap}

/-- The full path of an entry is rendered from the last names on the way from the root. -/
theorem Sound.fullPath_eq (hs : s.Sound) (hw : s.table.Way .root names id) :
    s.fullPath id = .ok (Path.render s.config.maxPathLength.toNat
      (names.rtake s.config.maxPathDepth.toNat)) := by
  obtain ⟨e, he⟩ := hw.exists_target
  simp only [fullPath, Table.get_of_find? he, hs.linked.namesUp_eq hw,
    List.rtake_eq_reverse_take_reverse]

/-- Every entry of a sound store has a full path. -/
theorem Sound.exists_fullPath (hs : s.Sound) (hf : s.table.find? id = some e) :
    ∃ path, s.fullPath id = .ok path := by
  obtain ⟨names, hway⟩ := hs.linked.exists_way (hs.linked.below_root hf)
  exact ⟨_, hs.fullPath_eq hway⟩

/-- The full path of an entry keeps to the limits of a configuration, and leads back to the entry
where they do not cut. -/
structure FullPathOf (config : Config) (s : Store) (id : EntryId) (names : List String) :
    Prop where
  /-- The path has as many as fit of the last names, which are no more than the depth. -/
  rendered : ∃ kept,
    Path.LongestFit config.maxPathLength.toNat (names.rtake config.maxPathDepth.toNat) kept ∧
      s.fullPath id = .ok (Path.absolute kept)
  /-- The path of the root is a separator. -/
  root : id = .root → s.fullPath id = .ok "/"
  /-- The path is no longer than the limit. -/
  length_le ⦃path : String⦄ : s.fullPath id = .ok path →
    path.utf8ByteSize ≤ config.maxPathLength.toNat
  /-- Where all names fit and none has a separator in it, the path names the entry, whatever the
  current directory. -/
  resolve_eq_ok : names.length ≤ config.maxPathDepth.toNat →
    (Path.absolute names).utf8ByteSize ≤ config.maxPathLength.toNat →
    (∀ name ∈ names, Path.separator ∉ name.toList) →
    ∃ path, s.fullPath id = .ok path ∧
      ∀ cursor, { s with cursor := cursor }.resolve path = .ok id

/-- A reachable store has the configuration that it was made with, which is sound. -/
theorem Reachable.config_eq (hs : Reachable config heap s) :
    config.check = .ok () ∧ s.config = config := by
  obtain ⟨id, s₀, hs₀, hr⟩ := hs
  obtain ⟨hc, rfl⟩ := fresh_eq_ok_iff.mp hs₀
  exact ⟨hc, (hr.steps (sound_init hc id heap)).config_eq⟩

theorem Reachable.exists_longestFit (hs : Reachable config heap s)
    (hw : s.table.Way .root names id) : ∃ kept,
      Path.LongestFit config.maxPathLength.toNat (names.rtake config.maxPathDepth.toNat) kept ∧
        s.fullPath id = .ok (Path.absolute kept) := by
  obtain ⟨hc, hconfig⟩ := hs.config_eq
  obtain ⟨-, -, -, -, hlength⟩ := Config.positive_of_check hc
  obtain ⟨kept, hkept, heq⟩ :=
    Path.exists_longestFit_render hlength (names.rtake config.maxPathDepth.toNat)
  exact ⟨kept, hkept, by rw [hs.sound.fullPath_eq hw, hconfig, heq]⟩

/-- Where neither limit cuts, the full path has all names on the way from the root. -/
theorem Reachable.fullPath_eq_absolute (hs : Reachable config heap s)
    (hw : s.table.Way .root names id) (hdepth : names.length ≤ s.config.maxPathDepth.toNat)
    (hlength : (Path.absolute names).utf8ByteSize ≤ s.config.maxPathLength.toNat) :
    s.fullPath id = .ok (Path.absolute names) := by
  obtain ⟨-, hconfig⟩ := hs.config_eq
  obtain ⟨kept, hkept, hpath⟩ := hs.exists_longestFit hw
  rw [← hconfig, List.rtake, Nat.sub_eq_zero_of_le hdepth, List.drop_zero] at hkept
  rw [hpath, hkept.eq_of_fits hlength]

/-- **Every entry of a reachable store has its full path**: of the names on the way from the root
the last ones that the depth admits, and of these as many as fit, which leads back to the entry
where neither limit cuts and no name has a separator in it. -/
theorem Reachable.fullPathOf (hs : Reachable config heap s) (hf : s.table.find? id = some e) :
    ∃ names, (∀ others, s.table.Way .root others id ↔ others = names) ∧
      s.FullPathOf config id names := by
  have hsound := hs.sound
  obtain ⟨names, hway⟩ := hsound.linked.exists_way (hsound.linked.below_root hf)
  obtain ⟨kept, hkept, hpath⟩ := hs.exists_longestFit hway
  refine ⟨names, fun others => hsound.linked.way_iff hway, ⟨kept, hkept, hpath⟩, ?_, ?_, ?_⟩
  · rintro rfl
    obtain rfl := hsound.linked.eq_nil_of_way hway
    obtain rfl : kept = [] := by simpa using hkept.initial
    exact hpath
  · intro path h
    obtain rfl := Except.ok.inj (hpath.symm.trans h)
    exact hkept.fits
  · intro hdepth hlength hnames
    have hall : names.rtake config.maxPathDepth.toNat = names := by
      rw [List.rtake, Nat.sub_eq_zero_of_le hdepth, List.drop_zero]
    rw [hall] at hkept
    obtain rfl := hkept.eq_of_fits hlength
    refine ⟨_, hpath, fun cursor => ?_⟩
    rw [resolve_withCursor (Path.isAbsolute_absolute _)]
    exact hsound.resolve_absolute hs.distinctNames hway hnames

/-- Both limits cut: of three names the depth admits two, and of these the length admits one, in
which there is a letter of two bytes. -/
theorem Reachable.fullPathOf_of_cut :
    let config : Config := { maxEntries := 4, maxPathDepth := 2, maxPathLength := 5 }
    let s := (init ⟨0⟩ config {}).run
      [.createDirectory "a", .changeDirectory ⟨1⟩, .createDirectory "bé", .changeDirectory ⟨2⟩,
        .createFile "c"]
    let e : Entry := { name := "c", kind := .file, parent := ⟨2⟩ }
    (Reachable config {} s ∧ s.table.find? ⟨3⟩ = some e) ∧
      ∃ names, (∀ others, s.table.Way .root others ⟨3⟩ ↔ others = names) ∧
        s.FullPathOf config ⟨3⟩ names := by
  intro config s e
  have hs : Reachable config {} s := reachable_run rfl ⟨0⟩ {} _
  have hf : s.table.find? ⟨3⟩ = some e := by decide
  exact ⟨⟨hs, hf⟩, hs.fullPathOf hf⟩

end FileTree.Store
