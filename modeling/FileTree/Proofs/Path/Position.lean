import FileTree.Proofs.Path.Absolute

/-!
# Where a name stands in a path

Separators cut a path into what comes before a name, the name, and what comes after it. The
segments of the path are then those of the three parts, whatever the name, so a name can be
replaced where it stands. Every segment of a path stands in it somewhere.

## Main definitions

* `Path.Stands`: a name stands in a path between two other parts

## Main results

* `Path.Stands.segments_eq`: the segments of the path are those of the parts
* `Path.exists_stands`: every segment stands in the path, between those before and after it
-/

namespace FileTree.Path

/-- The name stands in the path between the two other parts: separators, or the ends of the path,
keep them apart. -/
structure Stands (before name after path : String) : Prop where
  path_eq : path = before ++ name ++ after
  before_eq : before = "" ∨ ∃ p, before = p ++ "/"
  after_eq : after = "" ∨ ∃ q, after = "/" ++ q

variable {before name after path other : String}

/-- Another name can stand in the place of a name. -/
theorem Stands.replace (h : Stands before name after path) (other : String) :
    Stands before other after (before ++ other ++ after) :=
  ⟨rfl, h.before_eq, h.after_eq⟩

theorem segments_append_of_before (h : before = "" ∨ ∃ p, before = p ++ "/") (q : String) :
    segments (before ++ q) = segments before ++ segments q := by
  rcases h with rfl | ⟨p, rfl⟩
  · rw [String.empty_append, segments_empty, List.nil_append]
  · have hend := segments_append_slash_append p ""
    rw [String.append_empty, segments_empty, List.append_nil] at hend
    rw [segments_append_slash_append, hend]

theorem segments_append_of_after (h : after = "" ∨ ∃ q, after = "/" ++ q) (p : String) :
    segments (p ++ after) = segments p ++ segments after := by
  rcases h with rfl | ⟨q, rfl⟩
  · rw [String.append_empty, segments_empty, List.append_nil]
  · have hstart := segments_append_slash_append "" q
    rw [String.empty_append, segments_empty, List.nil_append] at hstart
    rw [← String.append_assoc, segments_append_slash_append, hstart]

/-- The segments of a path are those of its parts. -/
theorem Stands.segments_eq (h : Stands before name after path) :
    segments path = segments before ++ segments name ++ segments after := by
  rw [h.path_eq, segments_append_of_after h.after_eq, segments_append_of_before h.before_eq]

/-- A name without separators is one of the segments. -/
theorem Stands.segments_eq_cons (h : Stands before name after path) (hne : name ≠ "")
    (hsep : separator ∉ name.toList) :
    segments path = segments before ++ name :: segments after := by
  rw [h.segments_eq, segments_of_notMem hsep hne, List.append_assoc, List.singleton_append]

/-- What stands before a name in an absolute path is absolute, since the path does not start with
the name. -/
theorem Stands.isAbsolute_before (h : Stands before name after path) (hne : name ≠ "")
    (hsep : separator ∉ name.toList) (hpath : isAbsolute path = true) :
    isAbsolute before = true := by
  have hhead : (before ++ name ++ after).toList.head? = some separator := by
    rw [← h.path_eq]
    exact beq_iff_eq.mp hpath
  simp only [String.toList_append, List.append_assoc] at hhead
  rw [isAbsolute, beq_iff_eq]
  cases hb : before.toList with
  | cons c cs =>
    rw [hb, List.cons_append] at hhead
    exact hhead
  | nil =>
    cases hn : name.toList with
    | nil => exact absurd (String.toList_eq_nil_iff.mp hn) hne
    | cons c cs =>
      rw [hb, hn, List.nil_append, List.cons_append, List.head?_cons, Option.some.injEq] at hhead
      rw [hn, hhead] at hsep
      exact absurd (List.mem_cons_self ..) hsep

/-- What follows a path that is not empty does not tell where it starts. -/
theorem isAbsolute_append_of_ne_empty (h : before ≠ "") (rest : String) :
    isAbsolute (before ++ rest) = isAbsolute before := by
  have hne : before.toList ≠ [] := by simpa using h
  rw [isAbsolute, isAbsolute, String.toList_append, List.head?_append_of_ne_nil _ hne]

theorem isAbsolute_append (h : isAbsolute before = true) (rest : String) :
    isAbsolute (before ++ rest) = true := by
  have hne : before ≠ "" := by
    rintro rfl
    cases h
  rw [isAbsolute_append_of_ne_empty hne, h]

/-- Where two lists are put together, a member of the whole is in the second or in the first. -/
theorem exists_of_append_eq {α : Type} {as bs front back : List α} {x : α}
    (h : as ++ bs = front ++ x :: back) :
    (∃ mid, front = as ++ mid ∧ bs = mid ++ x :: back) ∨
      ∃ mid, as = front ++ x :: mid ∧ back = mid ++ bs := by
  rcases List.append_eq_append_iff.mp h with ⟨mid, hfront, hbs⟩ | ⟨mid, has, hmid⟩
  · exact .inl ⟨mid, hfront, hbs⟩
  · cases mid with
    | nil => exact .inl ⟨[], by simpa using has.symm, hmid.symm⟩
    | cons y mid =>
      obtain ⟨rfl, rfl⟩ := List.cons.inj hmid
      exact .inr ⟨mid, has, rfl⟩

/-- Every segment of a row of characters stands in it, between the segments before and after. -/
theorem exists_split_of_segmentsOf {cs seg : List Char} {front back : List (List Char)}
    (h : segmentsOf cs = front ++ seg :: back) :
    ∃ before after, cs = before ++ seg ++ after ∧
      (before = [] ∨ ∃ p, before = p ++ [separator]) ∧
      (after = [] ∨ ∃ q, after = separator :: q) ∧
      segmentsOf before = front ∧ segmentsOf after = back := by
  -- The induction is on the length: a separator cuts the row into two shorter ones.
  induction hn : cs.length using Nat.strongRecOn generalizing cs front back with
  | ind n ih =>
    subst hn
    by_cases hs : separator ∈ cs
    · obtain ⟨p, q, rfl⟩ := List.append_of_mem hs
      rw [List.length_append, List.length_cons] at ih
      rw [segmentsOf_append_separator] at h
      rcases exists_of_append_eq h with ⟨mid, rfl, hq⟩ | ⟨mid, hp, rfl⟩
      · obtain ⟨before, after, rfl, hbefore, hafter, rfl, rfl⟩ := ih q.length (by omega) hq rfl
        refine ⟨p ++ separator :: before, after, by simp, .inr ?_, hafter,
          segmentsOf_append_separator _ _, rfl⟩
        rcases hbefore with rfl | ⟨b, rfl⟩
        · exact ⟨p, rfl⟩
        · exact ⟨p ++ separator :: b, by simp⟩
      · obtain ⟨before, after, rfl, hbefore, hafter, rfl, rfl⟩ := ih p.length (by omega) hp rfl
        refine ⟨before, after ++ separator :: q, by simp, hbefore, .inr ?_, rfl,
          segmentsOf_append_separator _ _⟩
        rcases hafter with rfl | ⟨a, rfl⟩
        · exact ⟨q, rfl⟩
        · exact ⟨a ++ separator :: q, rfl⟩
    · have hne : cs ≠ [] := by
        rintro rfl
        simp [segmentsOf] at h
      rw [segmentsOf_of_notMem hs hne] at h
      cases front with
      | cons _ front => simp at h
      | nil =>
        obtain ⟨rfl, rfl⟩ := List.cons.inj h
        exact ⟨[], [], by simp, .inl rfl, .inl rfl, by simp [segmentsOf], by simp [segmentsOf]⟩

/-- Every segment of a path stands in it, between the segments before and after. -/
theorem exists_stands {front back : List String} (h : segments path = front ++ name :: back) :
    ∃ before after, Stands before name after path ∧ segments before = front ∧
      segments after = back := by
  obtain ⟨frontOf, rest, hcs, rfl, hrest⟩ := List.map_eq_append_iff.mp h
  obtain ⟨seg, backOf, rfl, rfl, rfl⟩ := List.map_eq_cons_iff.mp hrest
  obtain ⟨before, after, hpath, hbefore, hafter, rfl, rfl⟩ := exists_split_of_segmentsOf hcs
  refine ⟨String.ofList before, String.ofList after, ⟨?_, ?_, ?_⟩, ?_, ?_⟩
  · rw [← String.ofList_append, ← String.ofList_append, ← hpath, String.ofList_toList]
  · rcases hbefore with rfl | ⟨p, rfl⟩
    · exact .inl rfl
    · exact .inr ⟨String.ofList p, String.ofList_append⟩
  · rcases hafter with rfl | ⟨q, rfl⟩
    · exact .inl rfl
    · exact .inr ⟨String.ofList q, @String.ofList_append [separator] q⟩
  · rw [segments, String.toList_ofList]
  · rw [segments, String.toList_ofList]

end FileTree.Path
