import WebClient.Proofs.Tags

/-!
# Searching by offsets

Tags and attributes can be searched for without taking the text apart: by offsets into a copy
of it in small letters, from which the text is cut. Each cut is checked here, and the rounds are
counted: a search that has not ended by then has no outcome. So done, each search ends within as
many rounds as there are characters, and one more, every cut is in range, and what is found is
what is found by going through the characters.
-/

set_option autoImplicit false

namespace WebClient.Text

/-! ## Slices of the copy in small letters -/

theorem fromByte?_lower (front rest : Text) :
    fromByte? (byteLength front) (lower (front ++ rest)) = some (lower rest) := by
  rw [lower_append, ← byteLength_lower front, fromByte?_byteLength]

private theorem upToByte?_lower (front rest : Text) :
    upToByte? (byteLength front) (lower (front ++ rest)) = some (lower front) := by
  rw [lower_append, ← byteLength_lower front, upToByte?_byteLength]

theorem slice?_lower (front part rest : Text) :
    slice? (byteLength front) (byteLength (front ++ part)) (lower (front ++ part ++ rest)) =
      some (lower part) := by
  rw [← byteLength_lower front, ← byteLength_lower (front ++ part), lower_append (front ++ part),
    lower_append front, slice?_append]

/-- A place told by how much of the text follows it. -/
theorem fromByte?_sub_add_one {mark : Char} (single : mark.utf8Size = 1) (front rest : Text) :
    fromByte? (byteLength (front ++ mark :: rest) - byteLength (mark :: rest) + 1)
      (front ++ mark :: rest) = some rest := by
  have place : byteLength (front ++ mark :: rest) - byteLength (mark :: rest) + 1 =
      byteLength (front ++ [mark]) := by
    rw [byteLength_append, byteLength_append, Nat.add_sub_cancel, byteLength_cons, single]
    rfl
  rw [place, List.append_cons front mark rest, fromByte?_byteLength]

end WebClient.Text

namespace WebClient.Markup

/-! ## Rounds -/

/-- What one round of a search comes to: nothing is left, or the search goes on from an offset,
perhaps with something found. -/
inductive Round (α : Type) where
  | ended
  | onward (found : Option α) (next : Nat)

section

variable {α β : Type} {text front rest : Text} {round : Nat → Option (Round α)}

/-- All that a search finds from an offset on, in at most so many rounds. There is no outcome if
a round has none, or if the last of them does not end the search. -/
def findAll? (round : Nat → Option (Round α)) : (rounds offset : Nat) → Option (List α)
  | 0, _ => none
  | rounds + 1, offset => do
    match ← round offset with
    | .ended => return []
    | .onward found next => return found.toList ++ (← findAll? round rounds next)

/-- The first that a search finds from an offset on, in at most so many rounds. -/
def findFirst? (round : Nat → Option (Round α)) : (rounds offset : Nat) → Option (Option α)
  | 0, _ => none
  | rounds + 1, offset => do
    match ← round offset with
    | .ended => return none
    | .onward (some value) _ => return some value
    | .onward none next => findFirst? round rounds next

/-- At every place of a text a round is the last one, and leaves `nothing`, or it passes over
some of the text, and what it finds is put before the rest of the result. -/
def Follows (round : Nat → Option (Round α)) (text : Text) (nothing : β)
    (before : Option α → β → β) (result : Text → Text → β) : Prop :=
  ∀ front rest, text = front ++ rest →
    (round (Text.byteLength front) = some .ended ∧ result front rest = nothing) ∨
    ∃ found passed after, rest = passed ++ after ∧ passed ≠ [] ∧
      round (Text.byteLength front) = some (.onward found (Text.byteLength (front ++ passed))) ∧
      result front rest = before found (result (front ++ passed) after)

theorem enough_of_passed {passed after : Text} {rounds : Nat} (occupied : passed ≠ [])
    (enough : (passed ++ after).length < rounds + 1) : after.length < rounds := by
  have positive := List.length_pos_iff.2 occupied
  rw [List.length_append] at enough
  omega

/-- As many rounds as there are characters, and one more, are enough. -/
theorem findAll?_eq_some {all : Text → Text → List α} {rounds : Nat}
    (follows : Follows round text [] (fun found more => found.toList ++ more) all)
    (whole : text = front ++ rest) (enough : rest.length < rounds) :
    findAll? round rounds (Text.byteLength front) = some (all front rest) := by
  induction rounds generalizing front rest with
  | zero => exact absurd enough (Nat.not_lt_zero _)
  | succ rounds ih =>
    rw [findAll?]
    rcases follows front rest whole with
      ⟨ended, nothing⟩ | ⟨found, passed, after, rfl, occupied, onward, split⟩
    · rw [ended, nothing]
      rfl
    · have later := ih (whole.trans (List.append_assoc ..).symm) (enough_of_passed occupied enough)
      simp only [onward, later, split, Option.bind_eq_bind, Option.bind_some, Option.pure_def]

theorem findFirst?_eq_some {first : Text → Text → Option α} {rounds : Nat}
    (follows : Follows round text none Option.or first) (whole : text = front ++ rest)
    (enough : rest.length < rounds) :
    findFirst? round rounds (Text.byteLength front) = some (first front rest) := by
  induction rounds generalizing front rest with
  | zero => exact absurd enough (Nat.not_lt_zero _)
  | succ rounds ih =>
    rw [findFirst?]
    rcases follows front rest whole with
      ⟨ended, nothing⟩ | ⟨found, passed, after, rfl, occupied, onward, split⟩
    · rw [ended, nothing]
      rfl
    · rw [onward, split]
      cases found with
      | some value => rfl
      | none =>
        exact ih (whole.trans (List.append_assoc ..).symm) (enough_of_passed occupied enough)

end

/-! ## Attributes -/

/-- The value that is said behind a name, cut from the tag as it was written; `behind` is what
follows the name in small letters. -/
def assignedBySlices? (tag small behind : Text) : Option (Option Text) :=
  match Text.trimStart behind with
  | '=' :: value => do
    let written ← Text.fromByte? (Text.byteLength small - Text.byteLength ('=' :: value) + 1) tag
    return some (attributeValue written)
  | _ => some none

/-- A round of the search for an attribute goes to the next place of its name, which counts at
the beginning and behind a blank. -/
def attributeRound? (name tag small : Text) (offset : Nat) : Option (Round Text) := do
  let rest ← Text.fromByte? offset small
  match Text.cutRun? name rest with
  | none => return .ended
  | some (passed, _) =>
    let start := offset + Text.byteLength passed
    let next := start + Text.byteLength name
    let before ← Text.upToByte? start small
    let behind ← Text.fromByte? next small
    let value ←
      if before.getLast?.all Text.isBlank then assignedBySlices? tag small behind else some none
    return .onward value next

/-- The value of an attribute, searched for by offsets into a copy in small letters. -/
def attributeBySlices? (name tag small : Text) : Option (Option Text) :=
  findFirst? (attributeRound? name tag small) (tag.length + 1) 0

section

variable {name front inner after rest written : Text} {c : Char} {atBoundary : Bool}

/-- Whether a name may begin behind a text; `atBoundary` is whether it may in front of it. -/
def boundaryBehind (atBoundary : Bool) (text : Text) : Bool :=
  (text.getLast?.map Text.isBlank).getD atBoundary

theorem boundaryBehind_cons (atBoundary : Bool) (c : Char) (text : Text) :
    boundaryBehind atBoundary (c :: text) = boundaryBehind (Text.isBlank c) text := by
  cases text with
  | nil => rfl
  | cons next text => rw [boundaryBehind, boundaryBehind, List.getLast?_cons_cons,
      List.getLast?_cons, Option.map_some, Option.getD_some, Option.getD_some]

theorem boundaryBehind_append (atBoundary : Bool) (left right : Text) :
    boundaryBehind atBoundary (left ++ right) =
      boundaryBehind (boundaryBehind atBoundary left) right := by
  induction left generalizing atBoundary with
  | nil => rfl
  | cons c left ih => rw [List.cons_append, boundaryBehind_cons, boundaryBehind_cons, ih]

private theorem boundaryBehind_eq_false {text : Text} (nonempty : text ≠ [])
    (solid : ∀ c ∈ text, Text.isBlank c = false) : boundaryBehind atBoundary text = false := by
  rw [boundaryBehind, List.getLast?_eq_some_getLast nonempty]
  exact solid _ (List.getLast_mem nonempty)

/-- A part of a tag where the attribute is nowhere is passed over. -/
theorem attributeFrom?_append
    (elsewhere : ∀ early late, inner = early ++ late → late ≠ [] →
      boundaryBehind atBoundary early = true →
      (Text.dropFolded? name (late ++ rest)).bind valueAfter? = none) :
    attributeFrom? name atBoundary (inner ++ rest) =
      attributeFrom? name (boundaryBehind atBoundary inner) rest := by
  induction inner generalizing atBoundary with
  | nil => rfl
  | cons c inner ih =>
    have here : (if atBoundary then
        (Text.dropFolded? name (c :: (inner ++ rest))).bind valueAfter? else none) = none := by
      cases atBoundary with
      | false => rfl
      | true => exact elsewhere [] (c :: inner) rfl (List.cons_ne_nil c inner) rfl
    rw [List.cons_append, attributeFrom?, here, boundaryBehind_cons]
    refine ih fun early late split occupied boundary => ?_
    refine elsewhere (c :: early) late (by rw [split, List.cons_append]) occupied ?_
    rw [boundaryBehind_cons, boundary]

private theorem attributeFrom?_eq_none (free : Text.cutFolded? name rest = none) :
    attributeFrom? name atBoundary rest = none := by
  induction rest generalizing atBoundary with
  | nil => rfl
  | cons c rest ih =>
    rw [Text.cutFolded?] at free
    cases here : Text.dropFolded? name (c :: rest) with
    | some after => simp [here] at free
    | none =>
      rw [here, Option.map_eq_none_iff] at free
      rw [attributeFrom?, here, Option.bind_none, ite_self]
      exact ih free

/-- What a place of the name says, and else what the tag says behind it. -/
theorem attributeFrom?_written (nonempty : written ≠ [])
    (solid : ∀ c ∈ written, Text.isBlank c = false) (after : Text) :
    attributeFrom? (Text.lower written) atBoundary (written ++ after) =
      (if atBoundary then valueAfter? after else none).or
        (attributeFrom? (Text.lower written) (boundaryBehind atBoundary written) after) := by
  have spelled : Text.dropFolded? (Text.lower written) (written ++ after) = some after :=
    Text.dropFolded?_eq_some_iff.2 ⟨written, rfl, rfl⟩
  cases here : if atBoundary then valueAfter? after else none with
  | some value =>
    obtain ⟨c, others, rfl⟩ := List.exists_cons_of_ne_nil nonempty
    rw [List.cons_append] at spelled ⊢
    rw [attributeFrom?, spelled, Option.bind_some, here]
    rfl
  | none =>
    refine attributeFrom?_append fun early late split occupied boundary => ?_
    cases early with
    | nil =>
      obtain rfl : written = late := split
      obtain rfl : atBoundary = true := boundary
      rw [spelled]
      exact here
    | cons c early =>
      have solidEarly : ∀ letter ∈ c :: early, Text.isBlank letter = false := fun letter member =>
        solid letter (split ▸ List.mem_append_left late member)
      rw [boundaryBehind_eq_false (List.cons_ne_nil c early) solidEarly] at boundary
      cases boundary

private theorem boundaryBehind_lower (text : Text) :
    (Text.lower text).getLast?.all Text.isBlank = boundaryBehind true text := by
  rw [boundaryBehind, Text.lower, List.getLast?_map]
  cases text.getLast? with
  | none => rfl
  | some last => exact Text.isBlank_toLower last

private theorem assignedBySlices?_append (front after : Text) :
    assignedBySlices? (front ++ after) (Text.lower (front ++ after)) (Text.lower after) =
      some (valueAfter? after) := by
  rw [assignedBySlices?, valueAfter?, Text.trimStart_lower]
  cases assigned : Text.trimStart after with
  | nil => rfl
  | cons mark value =>
    have small : mark.toLower = '=' ↔ mark = '=' := Text.toLower_eq_iff (by decide) (by decide)
    by_cases equals : mark = '='
    · subst equals
      have split : after = after.takeWhile Text.isBlank ++ '=' :: value := by
        rw [← assigned, Text.trimStart, List.takeWhile_append_dropWhile]
      have cut := Text.fromByte?_sub_add_one (rfl : ('=' : Char).utf8Size = 1)
        (front ++ after.takeWhile Text.isBlank) value
      rw [List.append_assoc, ← split, ← Text.byteLength_lower ('=' :: value)] at cut
      have shape : Text.lower ('=' :: value) = '=' :: Text.lower value := rfl
      rw [shape] at cut ⊢
      simp only [Text.byteLength_lower, cut, Option.bind_eq_bind, Option.bind_some, Option.pure_def]
    · have other : mark.toLower ≠ '=' := equals ∘ small.1
      simp [Text.lower, equals, other]

/-- A round goes to the next place of the name, and takes the value that is said there. -/
theorem attributeRound?_of_cut (front : Text) {passed : Text}
    (cut : Text.cutFolded? (Text.lower written) (passed ++ (written ++ after)) =
      some (passed, after)) :
    attributeRound? (Text.lower written) (front ++ (passed ++ (written ++ after)))
        (Text.lower (front ++ (passed ++ (written ++ after)))) (Text.byteLength front) =
      some (.onward
        (if boundaryBehind true (front ++ passed) then valueAfter? after else none)
        (Text.byteLength (front ++ (passed ++ written)))) := by
  have start : Text.byteLength front + Text.byteLength (Text.lower passed) =
      Text.byteLength (front ++ passed) := by
    rw [Text.byteLength_lower, Text.byteLength_append]
  have next : Text.byteLength (front ++ passed) + Text.byteLength (Text.lower written) =
      Text.byteLength (front ++ (passed ++ written)) := by
    rw [Text.byteLength_lower, ← Text.byteLength_append, List.append_assoc]
  have before : Text.upToByte? (Text.byteLength (front ++ passed))
      (Text.lower (front ++ (passed ++ (written ++ after)))) =
        some (Text.lower (front ++ passed)) := by
    rw [← List.append_assoc, Text.upToByte?_lower]
  have behind : Text.fromByte? (Text.byteLength (front ++ (passed ++ written)))
      (Text.lower (front ++ (passed ++ (written ++ after)))) = some (Text.lower after) := by
    simpa only [List.append_assoc] using Text.fromByte?_lower (front ++ (passed ++ written)) after
  have value := assignedBySlices?_append (front ++ (passed ++ written)) after
  simp only [List.append_assoc] at value
  simp only [attributeRound?, Text.fromByte?_lower, Text.cutRun?_lower, cut, Option.map_some,
    Option.bind_eq_bind, Option.bind_some, start, next, before, behind, boundaryBehind_lower, value]
  cases boundaryBehind true (front ++ passed) <;> rfl

/-- The rounds of the search for an attribute find what going through the tag finds. -/
theorem attributeRound?_follows {name : Text} (nonempty : name ≠ [])
    (solid : ∀ c ∈ name, Text.isBlank c = false) (tag : Text) :
    Follows (attributeRound? name tag (Text.lower tag)) tag none Option.or
      fun front rest => attributeFrom? name (boundaryBehind true front) rest := by
  rintro front rest rfl
  cases cut : Text.cutFolded? name rest with
  | none =>
    refine .inl ⟨?_, attributeFrom?_eq_none cut⟩
    rw [attributeRound?, Text.fromByte?_lower, Option.bind_eq_bind, Option.bind_some,
      Text.cutRun?_lower, cut]
    rfl
  | some found =>
    obtain ⟨passed, after⟩ := found
    obtain ⟨written, rfl, rfl, first⟩ := (Text.cutFolded?_eq_some_iff nonempty).1 cut
    have occupied : written ≠ [] := by
      rintro rfl
      exact nonempty rfl
    have solidWritten : ∀ c ∈ written, Text.isBlank c = false := fun c member => by
      rw [← Text.isBlank_toLower]
      exact solid _ (List.mem_map_of_mem member)
    refine .inr ⟨_, passed ++ written, after, (List.append_assoc ..).symm, by simp [occupied],
      attributeRound?_of_cut front cut, ?_⟩
    have skipped : attributeFrom? (Text.lower written) (boundaryBehind true front)
        (passed ++ (written ++ after)) =
          attributeFrom? (Text.lower written) (boundaryBehind true (front ++ passed))
            (written ++ after) := by
      rw [boundaryBehind_append]
      refine attributeFrom?_append fun early late split occupied _ => ?_
      rw [Text.dropFolded?_eq_none_iff.2 (first early late split occupied), Option.bind_none]
    dsimp only
    rw [skipped, attributeFrom?_written occupied solidWritten, ← boundaryBehind_append,
      List.append_assoc]

theorem attributeBySlices?_eq {name : Text} (nonempty : name ≠ [])
    (solid : ∀ c ∈ name, Text.isBlank c = false) (tag : Text) :
    attributeBySlices? name tag (Text.lower tag) = some (attribute? name tag) :=
  findFirst?_eq_some (attributeRound?_follows nonempty solid tag) (List.nil_append tag).symm
    (Nat.lt_succ_self _)

end

/-! ## Frames -/

def sourceBySlices? (text small : Text) (start last : Nat) : Option (Option Text) := do
  let tag ← Text.slice? start last text
  let smallTag ← Text.slice? start last small
  let value ← attributeBySlices? "src".toList tag smallTag
  return value.bind fun value =>
    let source := Text.trim value
    if source.isEmpty then none else some source

/-- A round of the search for frames, from the `<` at an offset on. Where a frame tag opens the
round goes to its end. -/
def frameRoundAt? (text : Text) (start : Nat) : Option (Round Frame) := do
  let small := Text.lower text
  let opening ← Text.fromByte? start small
  if opensFrame opening then
    match Text.cutFirst? '>' opening with
    | none => return .ended
    | some (inner, _) =>
      let last := start + Text.byteLength inner + 1
      let source ← sourceBySlices? text small start last
      return .onward (source.map fun source => ⟨last, source⟩) last
  else return .onward none (start + 1)

def frameRound? (text : Text) (offset : Nat) : Option (Round Frame) := do
  let rest ← Text.fromByte? offset (Text.lower text)
  match Text.cutFirst? '<' rest with
  | none => return .ended
  | some (passed, _) => frameRoundAt? text (offset + Text.byteLength passed)

/-- The frames of a document, searched for by offsets into a copy in small letters. -/
def framesBySlices? (text : Text) : Option (List Frame) :=
  findAll? (frameRound? text) (text.length + 1) 0

section

variable {front passed inner after rest text : Text}

private theorem endsName_toLower (c : Char) : endsName c.toLower = endsName c := by
  have slash : c.toLower = '/' ↔ c = '/' := Text.toLower_eq_iff (by decide) (by decide)
  have mark : c.toLower = '>' ↔ c = '>' := Text.toLower_eq_iff (by decide) (by decide)
  rw [endsName, endsName, Text.isBlank_toLower, Bool.eq_iff_iff]
  simp only [Bool.or_eq_true, beq_iff_eq, slash, mark]

theorem opensFrame_lower (text : Text) : opensFrame (Text.lower text) = opensFrame text := by
  have alike (name : Text) :
      ((Text.dropFolded? name (Text.lower text)).bind List.head?).any endsName =
        ((Text.dropFolded? name text).bind List.head?).any endsName := by
    rw [Text.dropFolded?_lower]
    rcases Text.dropFolded? name text with _ | ⟨_ | ⟨c, rest⟩⟩
    · rfl
    · rfl
    · exact endsName_toLower c
  rw [opensFrame_eq, opensFrame_eq, alike, alike]

/-- Tags open with a `<`. -/
theorem head?_of_dropFolded? {name : Text}
    (begins : Text.dropFolded? ('<' :: name) text = some after) :
    text.head? = some '<' := by
  cases text with
  | nil => cases begins
  | cons c text =>
    rw [Text.dropFolded?] at begins
    split at begins
    · rename_i same
      exact congrArg some ((Text.toLower_eq_iff (by decide) (by decide)).1 same)
    · cases begins

private theorem opensFrame_eq_false (other : text.head? ≠ some '<') : opensFrame text = false := by
  have refused {name : Text} : Text.dropFolded? ('<' :: name) text = none :=
    Option.eq_none_iff_forall_ne_some.2 fun _ begins => other (head?_of_dropFolded? begins)
  have frame : Text.dropFolded? "<frame".toList text = none := refused
  have iframe : Text.dropFolded? "<iframe".toList text = none := refused
  rw [opensFrame_eq, frame, iframe]
  rfl

/-- Where there is no `<` there is no frame tag. -/
theorem tagsFrom_append_of_unmarked (free : '<' ∉ passed) (before rest : Text) :
    tagsFrom opensFrame before (passed ++ rest) = tagsFrom opensFrame (before ++ passed) rest := by
  refine tagsFrom_append fun early late split occupied => opensFrame_eq_false ?_
  obtain ⟨c, late, rfl⟩ := List.exists_cons_of_ne_nil occupied
  intro marked
  rw [split, Option.some.inj marked] at free
  exact free (List.mem_append_right early List.mem_cons_self)

private theorem sourceBySlices?_append (front tag after : Text) :
    sourceBySlices? (front ++ tag ++ after) (Text.lower (front ++ tag ++ after))
      (Text.byteLength front) (Text.byteLength (front ++ tag)) = some (frameSource? tag) := by
  have value : attributeBySlices? "src".toList tag (Text.lower tag) =
      some (attribute? "src".toList tag) :=
    attributeBySlices?_eq (by decide) (Text.solid_of_all (by decide)) tag
  simp only [sourceBySlices?, Text.slice?_append, Text.slice?_lower, value, Option.bind_eq_bind,
    Option.bind_some, frameSource?]
  cases attribute? "src".toList tag <;> rfl

private theorem frameRoundAt?_of_shut (shut : opensFrame rest = false) (before : Text) :
    frameRoundAt? (before ++ rest) (Text.byteLength before) =
      some (.onward none (Text.byteLength before + 1)) := by
  simp [frameRoundAt?, Text.fromByte?_lower, opensFrame_lower, shut]

private theorem frameRoundAt?_of_unclosed (opened : opensFrame rest = true) (unclosed : '>' ∉ rest)
    (before : Text) :
    frameRoundAt? (before ++ rest) (Text.byteLength before) = some .ended := by
  have uncut : Text.cutFirst? '>' (Text.lower rest) = none := by
    rw [Text.cutFirst?_lower fun c => Text.toLower_eq_iff (by decide) (by decide),
      Text.cutFirst?_eq_none_iff.2 unclosed, Option.map_none]
  simp [frameRoundAt?, Text.fromByte?_lower, opensFrame_lower, opened, uncut]

private theorem frameRoundAt?_of_closed (opened : opensFrame (inner ++ '>' :: after) = true)
    (unbroken : '>' ∉ inner) (before : Text) :
    frameRoundAt? (before ++ (inner ++ '>' :: after)) (Text.byteLength before) =
      some (.onward (Tag.frame? ⟨before, inner, '>' :: after⟩)
        (Text.byteLength (before ++ (inner ++ ['>'])))) := by
  have cut : Text.cutFirst? '>' (Text.lower (inner ++ '>' :: after)) =
      some (Text.lower inner, Text.lower after) := by
    rw [Text.cutFirst?_lower fun c => Text.toLower_eq_iff (by decide) (by decide),
      Text.cutFirst?_append_cons unbroken, Option.map_some]
  have last : Text.byteLength before + Text.byteLength (Text.lower inner) + 1 =
      Text.byteLength (before ++ (inner ++ ['>'])) := by
    rw [Text.byteLength_lower, ← List.append_assoc, Text.byteLength_append (before ++ inner),
      Text.byteLength_append before]
    rfl
  have source := sourceBySlices?_append before (inner ++ ['>']) after
  simp only [List.append_assoc, List.singleton_append] at source
  simp only [frameRoundAt?, Text.fromByte?_lower, opensFrame_lower, opened, if_true, cut, last,
    source, Option.bind_eq_bind, Option.bind_some, Option.pure_def, Tag.frame?, List.append_assoc,
    reduceCtorEq, if_false]

/-- The rounds of the search for frames find the frames of the tags. -/
theorem frameRound?_follows (text : Text) :
    Follows (frameRound? text) text [] (fun found more => found.toList ++ more)
      fun front rest => (tagsFrom opensFrame front rest).filterMap Tag.frame? := by
  have less (c : Char) : c.toLower = '<' ↔ c = '<' := Text.toLower_eq_iff (by decide) (by decide)
  rintro front rest rfl
  dsimp only
  cases cut : Text.cutFirst? '<' rest with
  | none =>
    have nothing := tagsFrom_append_of_unmarked (Text.cutFirst?_eq_none_iff.1 cut) front []
    rw [List.append_nil, tagsFrom] at nothing
    refine .inl ⟨?_, by rw [nothing, List.filterMap_nil]⟩
    simp [frameRound?, Text.fromByte?_lower, Text.cutFirst?_lower less, cut]
  | some found =>
    obtain ⟨passed, after⟩ := found
    obtain ⟨rfl, free⟩ := Text.cutFirst?_eq_some cut
    have here : frameRound? (front ++ (passed ++ '<' :: after)) (Text.byteLength front) =
        frameRoundAt? (front ++ passed ++ '<' :: after) (Text.byteLength (front ++ passed)) := by
      simp [frameRound?, Text.fromByte?_lower, Text.cutFirst?_lower less, cut,
        Text.byteLength_lower]
    rw [here, tagsFrom_append_of_unmarked free]
    cases opened : opensFrame ('<' :: after) with
    | false =>
      refine .inr ⟨none, passed ++ ['<'], after, by simp, by simp, ?_, ?_⟩
      · rw [frameRoundAt?_of_shut opened, ← List.append_assoc front,
          Text.byteLength_append (front ++ passed)]
        rfl
      · rw [tagsFrom, if_neg (by simp [opened]), List.append_assoc]
        rfl
    | true =>
      by_cases marked : '>' ∈ '<' :: after
      · obtain ⟨inner, behind, shape, unbroken⟩ := List.eq_append_cons_of_mem marked
        rw [shape] at opened ⊢
        refine .inr ⟨Tag.frame? ⟨front ++ passed, inner, '>' :: behind⟩, passed ++ (inner ++ ['>']),
          behind, by simp, by simp, ?_, ?_⟩
        · rw [frameRoundAt?_of_closed opened unbroken, List.append_assoc front]
        · rw [tagsFrom_of_closed opened unbroken, List.filterMap_cons]
          simp only [List.append_assoc]
          cases Tag.frame? ⟨front ++ passed, inner, '>' :: behind⟩ <;> rfl
      · refine .inl ⟨frameRoundAt?_of_unclosed opened marked _, ?_⟩
        rw [tagsFrom_of_unclosed (List.cons_ne_nil _ _) opened marked]
        rfl

theorem framesBySlices?_eq (text : Text) : framesBySlices? text = some (frames text) := by
  rw [frames_eq_tags]
  exact findAll?_eq_some (frameRound?_follows text) (List.nil_append text).symm
    (Nat.lt_succ_self _)

end

/-! ## Refresh tags -/

def contentUrlBySlices? (content : Text) : Option (Option Text) := do
  match Text.cutRun? "url=".toList (Text.lower content) with
  | none => return none
  | some (passed, _) =>
    let after ← Text.fromByte? (Text.byteLength passed + "url=".toList.length) content
    let url := trimQuotes (Text.trim after)
    return if url.isEmpty then none else some url

def refreshUrlBySlices? (tag small : Text) : Option (Option Text) := do
  match ← attributeBySlices? "http-equiv".toList tag small with
  | none => return none
  | some kind =>
    if Text.sameFolded kind "refresh".toList then
      match ← attributeBySlices? "content".toList tag small with
      | none => return none
      | some content => contentUrlBySlices? content
    else return none

/-- A round of the search for a refresh tag, from the `<meta` at an offset on. It goes to the
next `>`, or to the end of the text. -/
def refreshRoundAt? (text : Text) (start : Nat) : Option (Round Text) := do
  let small := Text.lower text
  let opening ← Text.fromByte? start small
  let last :=
    match Text.cutFirst? '>' opening with
    | some (inner, _) => start + Text.byteLength inner
    | none => Text.byteLength small
  let tag ← Text.slice? start last text
  let smallTag ← Text.slice? start last small
  let url ← refreshUrlBySlices? tag smallTag
  return .onward url last

def refreshRound? (text : Text) (offset : Nat) : Option (Round Text) := do
  let rest ← Text.fromByte? offset (Text.lower text)
  match Text.cutRun? "<meta".toList rest with
  | none => return .ended
  | some (passed, _) => refreshRoundAt? text (offset + Text.byteLength passed)

/-- The URL of the first refresh tag, searched for by offsets into a copy in small letters. -/
def refreshBySlices? (text : Text) : Option (Option Text) :=
  findFirst? (refreshRound? text) (text.length + 1) 0

section

variable {passed inner after rest text : Text}

private theorem contentUrlBySlices?_eq (content : Text) :
    contentUrlBySlices? content = some (contentUrl? content) := by
  rw [contentUrlBySlices?, contentUrl?, Text.cutRun?_lower]
  cases cut : Text.cutFolded? "url=".toList content with
  | none => rfl
  | some found =>
    obtain ⟨passed, after⟩ := found
    obtain ⟨written, rfl, folded, -⟩ := (Text.cutFolded?_eq_some_iff (by decide)).1 cut
    have place : Text.byteLength (Text.lower passed) + "url=".toList.length =
        Text.byteLength (passed ++ written) := by
      have width : Text.byteLength (Text.lower written) = 4 := by rw [folded]; rfl
      rw [Text.byteLength_append, Text.byteLength_lower, ← Text.byteLength_lower written, width]
      rfl
    simp only [Option.map_some, place]
    rw [← List.append_assoc, Text.fromByte?_byteLength]
    rfl

private theorem refreshUrlBySlices?_eq (tag : Text) :
    refreshUrlBySlices? tag (Text.lower tag) = some (refreshUrl? tag) := by
  rw [refreshUrlBySlices?, refreshUrl?,
    attributeBySlices?_eq (by decide) (Text.solid_of_all (by decide)),
    attributeBySlices?_eq (by decide) (Text.solid_of_all (by decide))]
  cases attribute? "http-equiv".toList tag with
  | none => rfl
  | some kind =>
    simp only [Option.bind_eq_bind, Option.bind_some]
    split
    · cases attribute? "content".toList tag with
      | none => rfl
      | some content => exact contentUrlBySlices?_eq content
    · rfl

private theorem refreshRoundAt?_append (unbroken : '>' ∉ inner)
    (ended : after = [] ∨ ∃ rest, after = '>' :: rest) (before : Text) :
    refreshRoundAt? (before ++ (inner ++ after)) (Text.byteLength before) =
      some (.onward (refreshUrl? inner) (Text.byteLength (before ++ inner))) := by
  have last : (match Text.cutFirst? '>' (Text.lower (inner ++ after)) with
      | some (inner, _) => Text.byteLength before + Text.byteLength inner
      | none => Text.byteLength (Text.lower (before ++ (inner ++ after)))) =
        Text.byteLength (before ++ inner) := by
    rw [Text.cutFirst?_lower fun c => Text.toLower_eq_iff (by decide) (by decide)]
    rcases ended with rfl | ⟨rest, rfl⟩
    · rw [List.append_nil, Text.cutFirst?_eq_none_iff.2 unbroken]
      exact Text.byteLength_lower _
    · rw [Text.cutFirst?_append_cons unbroken, Text.byteLength_append]
      exact congrArg (_ + ·) (Text.byteLength_lower inner)
  simp only [refreshRoundAt?, Text.fromByte?_lower, Option.bind_eq_bind, Option.bind_some, last]
  rw [← List.append_assoc, Text.slice?_append, Text.slice?_lower]
  simp only [Option.bind_some, refreshUrlBySlices?_eq, Option.pure_def]

/-- A tag that opens at once says what it asks for before what follows it. -/
theorem refresh?_append_of_opensMeta (opened : opensMeta (inner ++ after) = true)
    (unbroken : '>' ∉ inner) (ended : after = [] ∨ ∃ rest, after = '>' :: rest) :
    refresh? (inner ++ after) = (refreshUrl? inner).or (refresh? after) := by
  rcases ended with rfl | ⟨rest, rfl⟩
  · have nothing : refresh? [] = none := rfl
    rw [List.append_nil] at opened ⊢
    rw [refresh?_of_unmarked unbroken, metaTag?_of_opensMeta opened, nothing, Option.or_none]
    rfl
  · rw [opensMeta_append_mark] at opened
    rw [refresh?_append_mark unbroken, metaTag?_of_opensMeta opened, refresh?_cons rfl]
    rfl

/-- The rounds of the search for a refresh tag find the URL of the first that has one. -/
theorem refreshRound?_follows (text : Text) :
    Follows (refreshRound? text) text none Option.or fun _ rest => refresh? rest := by
  have skipped {passed rest : Text} (elsewhere : ∀ early late, passed = early ++ late →
      late ≠ [] → ¬ "<meta".toList <+: Text.lower (late ++ rest)) :
      refresh? (passed ++ rest) = refresh? rest := by
    rw [refresh?_eq_tagsFrom [] (passed ++ rest), tagsFrom_append, ← refresh?_eq_tagsFrom]
    intro early late split occupied
    rw [opensMeta, Text.dropFolded?_eq_none_iff.2 (elsewhere early late split occupied)]
    rfl
  rintro front rest rfl
  dsimp only
  cases cut : Text.cutFolded? "<meta".toList rest with
  | none =>
    refine .inl ⟨?_, ?_⟩
    · rw [refreshRound?, Text.fromByte?_lower, Option.bind_eq_bind, Option.bind_some,
        Text.cutRun?_lower, cut]
      rfl
    · have free := Text.cutFolded?_eq_none_iff.1 cut
      rw [← List.append_nil rest, skipped]
      · rfl
      · rintro early late rfl - begins
        rw [List.append_nil] at begins
        have within : Text.lower late <:+: Text.lower (early ++ late) :=
          Text.lower_infix_lower (List.suffix_append early late).isInfix
        exact free (begins.isInfix.trans within)
  | some found =>
    obtain ⟨passed, opening⟩ := found
    obtain ⟨written, rfl, folded, first⟩ := (Text.cutFolded?_eq_some_iff (by decide)).1 cut
    have here : refreshRound? (front ++ (passed ++ (written ++ opening))) (Text.byteLength front) =
        refreshRoundAt? (front ++ passed ++ (written ++ opening))
          (Text.byteLength (front ++ passed)) := by
      rw [refreshRound?, Text.fromByte?_lower, Option.bind_eq_bind, Option.bind_some,
        Text.cutRun?_lower, cut, List.append_assoc, Text.byteLength_append front]
      exact congrArg (refreshRoundAt? _ <| _ + ·) (Text.byteLength_lower passed)
    have opened : opensMeta (written ++ opening) = true := by
      rw [opensMeta, Text.dropFolded?_eq_some_iff.2 ⟨written, rfl, folded⟩]
      rfl
    rw [here, skipped first]
    obtain ⟨inner, after, shape, unbroken, ended⟩ : ∃ inner after,
        written ++ opening = inner ++ after ∧ '>' ∉ inner ∧
          (after = [] ∨ ∃ rest, after = '>' :: rest) := by
      by_cases marked : '>' ∈ written ++ opening
      · obtain ⟨inner, behind, shape, unbroken⟩ := List.eq_append_cons_of_mem marked
        exact ⟨inner, _, shape, unbroken, .inr ⟨behind, rfl⟩⟩
      · exact ⟨_, [], (List.append_nil _).symm, marked, .inl rfl⟩
    rw [shape] at opened ⊢
    have occupied : inner ≠ [] := by
      rintro rfl
      rcases ended with rfl | ⟨rest, rfl⟩ <;> cases opened
    refine .inr ⟨refreshUrl? inner, passed ++ inner, after, (List.append_assoc ..).symm,
      by simp [occupied], ?_, refresh?_append_of_opensMeta opened unbroken ended⟩
    rw [refreshRoundAt?_append unbroken ended, List.append_assoc]

theorem refreshBySlices?_eq (text : Text) : refreshBySlices? text = some (refresh? text) :=
  findFirst?_eq_some (refreshRound?_follows text) (List.nil_append text).symm (Nat.lt_succ_self _)

end

end WebClient.Markup
