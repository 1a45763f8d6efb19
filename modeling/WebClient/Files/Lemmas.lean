import WebClient.Files

/-!
# Following paths, and what is written

How far a path leads depends on the directories alone. Main statement: what was
written at a path is there.
-/

set_option autoImplicit false

namespace WebClient

theorem Place.not_encloses_parent {place : Place} (named : place.names ≠ []) :
    place.encloses place.parent = false := by
  unfold Place.encloses Place.parent
  split
  · contradiction
  · contradiction
  · simp only [beq_self_eq_true, Bool.true_and, Bool.eq_false_iff]
    intro above
    have shorter := (List.isPrefixOf_iff_prefix.1 above).length_le
    have longer := List.length_pos_iff.2 named
    simp only [List.length_dropLast] at shorter
    omega

namespace Files

/-! ## Following paths -/

theorem go_eq_ok_iff {place next : Place} {part : Text} :
    go place part = .ok next ↔ part.utf8.length ≤ Place.nameLimit ∧ place.step part = next := by
  unfold go
  split <;> simp <;> omega

theorem enter_eq_ok_iff {files : Files} {place next : Place} {part : Text} :
    files.enter place part = .ok next ↔ go place part = .ok next ∧ files.hasDirectory next := by
  unfold enter
  cases gone : go place part with
  | error fault => simp
  | ok reached =>
    by_cases found : files.hasDirectory reached
    · simp only [at?, found, if_true, Except.ok.injEq]
      exact ⟨fun same => ⟨same, same ▸ found⟩, And.left⟩
    · simp only [at?, if_neg found, Except.ok.injEq]
      constructor
      · split <;> simp_all
      · rintro ⟨rfl, there⟩
        exact absurd there found

theorem foldl_step_of_foldlM_enter {files : Files} {parts : List Text} {place last : Place}
    (followed : parts.foldlM files.enter place = .ok last) :
    parts.foldl Place.step place = last := by
  induction parts generalizing place with
  | nil => exact Except.ok.inj followed
  | cons part rest ih =>
    simp only [List.foldlM_cons] at followed
    cases entered : files.enter place part with
    | error fault => simp [entered, bind, Except.bind] at followed
    | ok next =>
      rw [entered] at followed
      rw [List.foldl_cons, (go_eq_ok_iff.1 (enter_eq_ok_iff.1 entered).1).2]
      exact ih followed

/-- Where there are no fewer directories, parts that can be gone through still can. -/
theorem foldlM_enter_mono {files others : Files}
    (more : ∀ place, files.hasDirectory place → others.hasDirectory place)
    {parts : List Text} {place last : Place}
    (followed : parts.foldlM files.enter place = .ok last) :
    parts.foldlM others.enter place = .ok last := by
  induction parts generalizing place with
  | nil => exact followed
  | cons part rest ih =>
    simp only [List.foldlM_cons] at followed ⊢
    cases entered : files.enter place part with
    | error fault => simp [entered, bind, Except.bind] at followed
    | ok next =>
      obtain ⟨gone, found⟩ := enter_eq_ok_iff.1 entered
      rw [entered] at followed
      rw [enter_eq_ok_iff.2 ⟨gone, more next found⟩]
      exact ih followed

theorem approach_eq_ok_iff {files : Files} {path : Text} {directory : Place}
    {part : Option Text} :
    files.approach path = .ok (directory, part) ↔
      (¬ path.contains '\x00' ∧ path ≠ [] ∧ path.utf8.length < pathLimit) ∧
        (Place.parts path).dropLast.foldlM files.enter (Place.start path) = .ok directory ∧
        (Place.parts path).getLast? = part := by
  unfold approach
  split
  · simp_all
  · split
    · simp_all
    · split
      · rename_i long
        exact iff_of_false (by simp) fun followed => absurd followed.1.2.2 (Nat.not_lt.2 long)
      · cases walked : (Place.parts path).dropLast.foldlM files.enter (Place.start path) <;>
          simp_all [Except.map]

/-- A path leads to where its last part leads from its last directory. -/
theorem ofPath_of_approach {files : Files} {path part : Text} {directory : Place}
    (followed : files.approach path = .ok (directory, some part)) :
    Place.ofPath path = directory.step part := by
  obtain ⟨_, walked, final⟩ := approach_eq_ok_iff.1 followed
  obtain ⟨front, whole⟩ := List.getLast?_eq_some_iff.1 final
  rw [whole, List.dropLast_concat] at walked
  rw [Place.ofPath, whole, List.foldl_append, foldl_step_of_foldlM_enter walked]
  rfl

theorem approach_mono {files others : Files}
    (more : ∀ place, files.hasDirectory place → others.hasDirectory place) {path : Text}
    {directory : Place} {part : Option Text}
    (followed : files.approach path = .ok (directory, part)) :
    others.approach path = .ok (directory, part) := by
  obtain ⟨proper, walked, final⟩ := approach_eq_ok_iff.1 followed
  exact approach_eq_ok_iff.2 ⟨proper, foldlM_enter_mono more walked, final⟩

/-! ## Putting a file somewhere -/

theorem hasDirectory_iff {files : Files} {place : Place} :
    files.hasDirectory place ↔
      place.names = [] ∨ ∃ entry ∈ files, place.encloses (directoryOf entry.1) := by
  simp [hasDirectory]

theorem directoryOf_of_isAt {place : Place} {name : Text} (there : isAt place name) :
    directoryOf name = place.parent := by
  simp only [isAt, Bool.and_eq_true, Bool.not_eq_true', beq_iff_eq] at there
  simp [directoryOf, there]

theorem hasDirectory_put {files : Files} {place other : Place} {path : Text} {content : Bytes}
    (there : isAt place path) (found : files.hasDirectory other) :
    (files.put place path content).hasDirectory other := by
  rw [hasDirectory_iff] at found ⊢
  rcases found with empty | ⟨entry, kept, encloses⟩
  · exact .inl empty
  · by_cases replaced : isAt place entry.1
    · refine .inr ⟨(path, content), by simp [put], ?_⟩
      rwa [directoryOf_of_isAt there, ← directoryOf_of_isAt replaced]
    · exact .inr ⟨entry, by simp [put, kept, replaced], encloses⟩

theorem not_hasDirectory_put {files : Files} {place : Place} {path : Text} {content : Bytes}
    (there : isAt place path) (free : ¬ files.hasDirectory place) :
    ¬ (files.put place path content).hasDirectory place := by
  simp only [hasDirectory_iff, not_or, not_exists, not_and] at free ⊢
  refine ⟨free.1, fun entry present => ?_⟩
  rcases List.mem_append.1 present with kept | new
  · exact free.2 entry (List.mem_filter.1 kept).1
  · obtain rfl := List.mem_singleton.1 new
    simp [directoryOf_of_isAt there, Place.not_encloses_parent free.1]

theorem at?_put {files : Files} {place : Place} {path : Text} {content : Bytes}
    (there : isAt place path) (free : ¬ files.hasDirectory place) :
    (files.put place path content).at? place = some (.file content) := by
  have absent : List.find? (fun entry => isAt place entry.1)
      (files.filter fun entry => !isAt place entry.1) = none := by
    rw [List.find?_eq_none]
    intro entry kept
    simpa using (List.mem_filter.1 kept).2
  rw [at?, if_neg (not_hasDirectory_put there free), put, List.find?_append]
  simp [absent, there]

theorem write_eq_ok_iff {files after : Files} {path : Text} {content : Bytes} :
    files.write path content = .ok after ↔
      ∃ directory part place, files.approach path = .ok (directory, some part) ∧
        endsWithSlash path = false ∧ Place.isDots part = false ∧ go directory part = .ok place ∧
        ¬ files.hasDirectory place ∧ files.put place path content = after := by
  constructor
  · intro written
    unfold write at written
    split at written
    · cases written
    · cases written
    · rename_i directory part followed
      split at written
      · cases written
      · rename_i plain
        simp only [Bool.or_eq_true, not_or, Bool.not_eq_true] at plain
        split at written
        · cases written
        · rename_i place gone
          split at written
          · cases written
          · rename_i free
            exact ⟨directory, part, place, followed, plain.1, plain.2, gone, free,
              Except.ok.inj written⟩
  · rintro ⟨directory, part, place, followed, slash, dots, gone, free, rfl⟩
    simp [write, followed, slash, dots, gone, free]

/-- What was written at a path is there. -/
theorem content?_of_write {files after : Files} {path : Text} {content : Bytes}
    (written : files.write path content = .ok after) :
    after.content? path = some content := by
  obtain ⟨directory, part, place, followed, slash, _, gone, free, rfl⟩ :=
    write_eq_ok_iff.1 written
  have there : isAt place path := by
    simp [isAt, slash, ofPath_of_approach followed, (go_eq_ok_iff.1 gone).2]
  have again : (files.put place path content).approach path = .ok (directory, some part) :=
    approach_mono (fun _ => hasDirectory_put there) followed
  simp [content?, find, again, gone, at?_put there free, slash]

end Files

end WebClient
