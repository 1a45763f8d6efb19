import WebClient.Markup.Frame
import WebClient.Markup.Refresh
import WebClient.Proofs.ByteOffsets
import WebClient.Proofs.FoldedSearch

/-!
# Tags in a text

A tag of some kind opens where the text spells the name of the kind, and goes on to the next
`>`, or to the end of the text if there is none. What spells the name within a tag opens no
other. The frames of a document, and the URL that it asks to be replaced by, are read off its
tags of two kinds.
-/

set_option autoImplicit false

namespace WebClient.Markup

/-- A tag, with what stands in front of it and what follows: nothing, or its `>` and the rest. -/
structure Tag where
  before : Text
  inner : Text
  after : Text
  deriving DecidableEq, Repr

/-- A tag of a text, of the kind that opens where `opens` says. -/
structure Tag.IsOf (opens : Text → Bool) (text : Text) (tag : Tag) : Prop where
  whole : text = tag.before ++ (tag.inner ++ tag.after)
  unbroken : '>' ∉ tag.inner
  ended : tag.after = [] ∨ ∃ rest, tag.after = '>' :: rest
  opened : opens (tag.inner ++ tag.after) = true
  /-- No other tag opens in front of it, unless a `>` comes between. -/
  outermost : ∀ front passed, tag.before = front ++ passed → passed ≠ [] → '>' ∉ passed →
    opens (passed ++ (tag.inner ++ tag.after)) = false

def tagsFrom (opens : Text → Bool) (before text : Text) : List Tag :=
  match text with
  | [] => []
  | c :: rest =>
    if opens (c :: rest) then
      match _cut : Text.cutFirst? '>' (c :: rest) with
      | some (inner, after) =>
        ⟨before, inner, '>' :: after⟩ :: tagsFrom opens (before ++ inner ++ ['>']) after
      | none => [⟨before, c :: rest, []⟩]
    else tagsFrom opens (before ++ [c]) rest
termination_by text.length
decreasing_by
  · have whole := congrArg List.length (Text.cutFirst?_eq_some _cut).1
    simp only [List.length_append, List.length_cons] at whole ⊢
    omega
  · exact Nat.lt_succ_self _

section

variable {opens : Text → Bool} {before text : Text} {tag : Tag}

/-- A text in which nothing opens is passed over. -/
theorem tagsFrom_append {passed : Text}
    (shut : ∀ front inner, passed = front ++ inner → inner ≠ [] → opens (inner ++ text) = false) :
    tagsFrom opens before (passed ++ text) = tagsFrom opens (before ++ passed) text := by
  induction passed generalizing before with
  | nil => rw [List.nil_append, List.append_nil]
  | cons c passed ih =>
    have here : opens (c :: (passed ++ text)) = false := shut [] (c :: passed) rfl (by simp)
    rw [List.cons_append, tagsFrom, if_neg (by simp [here]), ih, List.append_assoc,
      List.singleton_append]
    intro front inner split occupied
    exact shut (c :: front) inner (by rw [split, List.cons_append]) occupied

theorem tagsFrom_of_closed {inner after : Text} (opened : opens (inner ++ '>' :: after) = true)
    (unbroken : '>' ∉ inner) :
    tagsFrom opens before (inner ++ '>' :: after) =
      ⟨before, inner, '>' :: after⟩ :: tagsFrom opens (before ++ inner ++ ['>']) after := by
  have cut := Text.cutFirst?_append_cons unbroken after
  obtain ⟨c, rest, shape⟩ : ∃ c rest, inner ++ '>' :: after = c :: rest :=
    List.exists_cons_of_ne_nil (by simp)
  rw [shape] at opened cut ⊢
  rw [tagsFrom, if_pos opened]
  split
  · rename_i found
    cases cut.symm.trans found
    rfl
  · rename_i found
    cases cut.symm.trans found

theorem tagsFrom_of_unclosed (nonempty : text ≠ []) (opened : opens text = true)
    (unclosed : '>' ∉ text) : tagsFrom opens before text = [⟨before, text, []⟩] := by
  have uncut := Text.cutFirst?_eq_none_iff.2 unclosed
  obtain ⟨c, rest, rfl⟩ := List.exists_cons_of_ne_nil nonempty
  rw [tagsFrom, if_pos opened]
  split
  · rename_i found
    cases uncut.symm.trans found
  · rfl

/-! ## Which tags there are -/

namespace Tag.IsOf

variable {c : Char} {passed inner after rest : Text}

theorem nil_iff (blank : opens [] = false) : ¬ IsOf opens [] tag := by
  intro is
  have opened := is.opened
  rw [(List.append_eq_nil_iff.1 is.whole.symm).2, blank] at opened
  cases opened

/-- Where nothing opens at the first character, the tags are those behind it. -/
theorem cons_iff (shut : opens (c :: rest) = false) :
    IsOf opens (c :: rest) ⟨passed, inner, after⟩ ↔
      ∃ others, passed = c :: others ∧ IsOf opens rest ⟨others, inner, after⟩ := by
  constructor
  · rintro ⟨whole, unbroken, ended, opened, outermost⟩
    cases passed with
    | nil =>
      rw [whole] at shut
      exact absurd (shut.symm.trans opened) (by simp)
    | cons first others =>
      obtain ⟨rfl, rfl⟩ := List.cons.inj whole
      refine ⟨others, rfl, rfl, unbroken, ended, opened, ?_⟩
      rintro front inner rfl
      exact outermost (c :: front) inner rfl
  · rintro ⟨others, rfl, whole, unbroken, ended, opened, outermost⟩
    refine ⟨by rw [whole, List.cons_append], unbroken, ended, opened, ?_⟩
    intro front skipped split occupied unmarked
    cases front with
    | nil =>
      obtain rfl : c :: others = skipped := split
      dsimp only at whole
      rw [List.cons_append, ← whole]
      exact shut
    | cons first front =>
      obtain ⟨rfl, rfl⟩ := List.cons.inj split
      exact outermost front skipped rfl occupied unmarked

/-- Where one tag opens and ends, the others are behind it. -/
theorem closed_iff {body behind : Text} (opened : opens (body ++ '>' :: behind) = true)
    (unbroken : '>' ∉ body) :
    IsOf opens (body ++ '>' :: behind) ⟨passed, inner, after⟩ ↔
      (passed = [] ∧ inner = body ∧ after = '>' :: behind) ∨
        ∃ others, passed = body ++ '>' :: others ∧ IsOf opens behind ⟨others, inner, after⟩ := by
  constructor
  · rintro ⟨whole, unmarked, ended, first, outermost⟩
    dsimp only at whole unmarked ended
    by_cases marked : '>' ∈ passed
    · obtain ⟨front, others, rfl, free⟩ := List.eq_append_cons_of_mem marked
      rw [List.append_assoc, List.cons_append] at whole
      obtain ⟨rfl, rfl⟩ := Text.append_cons_inj unbroken free whole
      refine .inr ⟨others, rfl, rfl, unmarked, ended, first, ?_⟩
      rintro front passed rfl
      exact outermost (body ++ '>' :: front) passed (by simp)
    · obtain rfl : passed = [] := by
        by_contra occupied
        have shut := outermost [] passed rfl occupied marked
        rw [← whole, opened] at shut
        cases shut
      refine .inl ⟨rfl, ?_⟩
      rcases ended with rfl | ⟨rest, rfl⟩
      · rw [List.nil_append, List.append_nil] at whole
        exact absurd (whole ▸ List.mem_append_right body (.head behind)) unmarked
      · obtain ⟨rfl, rfl⟩ := Text.append_cons_inj unbroken unmarked whole
        exact ⟨rfl, rfl⟩
  · rintro (⟨rfl, rfl, rfl⟩ | ⟨others, rfl, whole, unmarked, ended, first, outermost⟩)
    · refine ⟨rfl, unbroken, .inr ⟨behind, rfl⟩, opened, ?_⟩
      intro front skipped split occupied
      exact absurd (List.append_eq_nil_iff.1 split.symm).2 occupied
    · refine ⟨by simp [whole], unmarked, ended, first, ?_⟩
      intro front skipped split occupied free
      -- A part without the mark that stands in front of the tag is behind this one.
      rcases List.append_eq_append_iff.1 split with ⟨more, -, joined⟩ | ⟨more, rfl, joined⟩
      · cases more with
        | nil =>
          rw [List.nil_append] at joined
          exact absurd (joined ▸ List.mem_cons_self) free
        | cons mark more =>
          obtain ⟨-, rfl⟩ := List.cons.inj joined
          exact outermost more skipped rfl occupied free
      · exact absurd (joined ▸ List.mem_append_right more (.head others)) free

/-- A tag that is not ended is the only one. -/
theorem unclosed_iff (opened : opens text = true) (unclosed : '>' ∉ text) :
    IsOf opens text ⟨passed, inner, after⟩ ↔ passed = [] ∧ inner = text ∧ after = [] := by
  constructor
  · rintro ⟨whole, unmarked, ended, first, outermost⟩
    dsimp only at whole ended
    subst whole
    simp only [List.mem_append, not_or] at unclosed
    obtain rfl : passed = [] := by
      by_contra occupied
      have shut := outermost [] passed rfl occupied unclosed.1
      rw [opened] at shut
      cases shut
    rcases ended with rfl | ⟨rest, rfl⟩
    · exact ⟨rfl, by simp, rfl⟩
    · exact absurd List.mem_cons_self unclosed.2.2
  · rintro ⟨rfl, rfl, rfl⟩
    refine ⟨by simp, unclosed, .inl rfl, by simpa using opened, ?_⟩
    intro front skipped split occupied
    exact absurd (List.append_eq_nil_iff.1 split.symm).2 occupied

end Tag.IsOf

theorem mem_tagsFrom_iff (blank : opens [] = false) :
    tag ∈ tagsFrom opens before text ↔
      ∃ passed, tag.before = before ++ passed ∧
        Tag.IsOf opens text ⟨passed, tag.inner, tag.after⟩ := by
  fun_induction tagsFrom opens before text with
  | case1 before => simp [Tag.IsOf.nil_iff blank]
  | case2 before c rest opened inner after cut ih =>
    obtain ⟨whole, unbroken⟩ := Text.cutFirst?_eq_some cut
    rw [whole] at opened ⊢
    rw [List.mem_cons, ih]
    simp only [Tag.IsOf.closed_iff opened unbroken]
    constructor
    · rintro (rfl | ⟨passed, front, is⟩)
      · exact ⟨[], (List.append_nil _).symm, .inl ⟨rfl, rfl, rfl⟩⟩
      · exact ⟨inner ++ '>' :: passed, by simp [front], .inr ⟨passed, rfl, is⟩⟩
    · rintro ⟨passed, front, ⟨rfl, same, behind⟩ | ⟨others, rfl, is⟩⟩
      · rw [List.append_nil] at front
        exact .inl (by rw [← front, ← same, ← behind])
      · exact .inr ⟨others, by simp [front], is⟩
  | case3 before c rest opened uncut =>
    simp only [Tag.IsOf.unclosed_iff opened (Text.cutFirst?_eq_none_iff.1 uncut),
      List.mem_singleton]
    constructor
    · rintro rfl
      exact ⟨[], (List.append_nil _).symm, rfl, rfl, rfl⟩
    · rintro ⟨passed, front, rfl, inner, after⟩
      rw [List.append_nil] at front
      rw [← front, ← inner, ← after]
  | case4 before c rest shut ih =>
    rw [ih]
    simp only [Tag.IsOf.cons_iff (Bool.not_eq_true _ ▸ shut)]
    constructor
    · rintro ⟨passed, front, is⟩
      exact ⟨c :: passed, by simp [front], passed, rfl, is⟩
    · rintro ⟨passed, front, others, rfl, is⟩
      exact ⟨others, by simp [front], is⟩

theorem mem_tagsFrom_nil_iff (blank : opens [] = false) :
    tag ∈ tagsFrom opens [] text ↔ Tag.IsOf opens text tag := by
  rw [mem_tagsFrom_iff blank]
  constructor
  · rintro ⟨passed, front, is⟩
    rw [List.nil_append] at front
    rw [← front] at is
    exact is
  · exact fun is => ⟨tag.before, rfl, is⟩

private theorem before_prefix_of_mem (member : tag ∈ tagsFrom opens before text) :
    before <+: tag.before := by
  fun_induction tagsFrom opens before text with
  | case1 => cases member
  | case2 before c rest opened inner after cut ih =>
    rcases List.mem_cons.1 member with rfl | later
    · exact List.prefix_refl _
    · have onward := ih later
      rw [List.append_assoc] at onward
      exact (List.prefix_append before _).trans onward
  | case3 before c rest opened uncut =>
    rw [List.mem_singleton.1 member]
  | case4 before c rest shut ih => exact (List.prefix_append before [c]).trans (ih member)

/-- One tag is over, with its end, before the next one begins. -/
theorem pairwise_tagsFrom (opens : Text → Bool) (before text : Text) :
    (tagsFrom opens before text).Pairwise fun left right =>
      left.before ++ left.inner ++ ['>'] <+: right.before := by
  fun_induction tagsFrom opens before text with
  | case1 => exact .nil
  | case2 before c rest opened inner after cut ih =>
    exact .cons (fun tag member => before_prefix_of_mem member) ih
  | case3 => exact List.pairwise_singleton _ _
  | case4 before c rest shut ih => exact ih

end

/-! ## Segments -/

section

variable {inner text : Text}

theorem segments_append_mark (unbroken : '>' ∉ inner) (after : Text) :
    segments (inner ++ '>' :: after) = (inner :: (segments after).1, (segments after).2) := by
  induction inner with
  | nil => rfl
  | cons c inner ih =>
    simp only [List.mem_cons, not_or] at unbroken
    rw [List.cons_append, segments, ih unbroken.2]
    exact fun same => unbroken.1 same.symm

theorem segments_of_unmarked (unmarked : '>' ∉ text) : segments text = ([], text) := by
  induction text with
  | nil => rfl
  | cons c text ih =>
    simp only [List.mem_cons, not_or] at unmarked
    rw [segments, ih unmarked.2]
    exact fun same => unmarked.1 same.symm

end

/-! ## Frame tags -/

section

variable {c : Char} {before inner text rest after : Text} {start : Nat}

def endsName (c : Char) : Bool :=
  Text.isBlank c || c == '/' || c == '>'

theorem opensFrame_eq (text : Text) :
    opensFrame text =
      (((Text.dropFolded? "<frame".toList text).bind List.head?).any endsName ||
        ((Text.dropFolded? "<iframe".toList text).bind List.head?).any endsName) := by
  unfold opensFrame
  dsimp only
  rcases Text.dropFolded? "<frame".toList text with _ | ⟨_ | ⟨c, rest⟩⟩ <;>
    rcases Text.dropFolded? "<iframe".toList text with _ | ⟨_ | ⟨c, rest⟩⟩ <;> rfl

/-- Of what follows a `>` nothing matters for whether a frame tag opens in front of it. -/
theorem opensFrame_append_mark (text after : Text) :
    opensFrame (text ++ '>' :: after) = opensFrame (text ++ ['>']) := by
  have alike {name : Text} (absent : '>' ∉ name) :
      (Text.dropFolded? name (text ++ '>' :: after)).bind List.head? =
        (Text.dropFolded? name (text ++ ['>'])).bind List.head? := by
    rw [Text.dropFolded?_append_mark rfl absent, Text.dropFolded?_append_mark rfl absent]
    rcases Text.dropFolded? name text with _ | ⟨_ | ⟨c, rest⟩⟩ <;> rfl
  rw [opensFrame_eq, opensFrame_eq, alike (by decide), alike (by decide)]

def Tag.frame? (tag : Tag) : Option Frame :=
  if tag.after = [] then none
  else (frameSource? (tag.inner ++ ['>'])).map fun source =>
    ⟨Text.byteLength (tag.before ++ tag.inner ++ ['>']), source⟩

private theorem framesFrom_cons (shut : opensFrame (c :: rest) = false) :
    framesFrom start (segments (c :: rest)).1 =
      framesFrom (start + c.utf8Size) (segments rest).1 := by
  by_cases mark : c = '>'
  · subst mark
    rw [← List.nil_append ('>' :: rest), segments_append_mark (by simp)]
    rfl
  · rw [segments]
    rcases split : segments rest with ⟨closed, tail⟩
    have joined := segments_flatten rest
    rw [split] at joined
    cases closed with
    | nil => rfl
    | cons first closed =>
      have elsewhere : opensFrame (c :: (first ++ ['>'])) = false := by
        have whole : rest = first ++ '>' :: (closed.flatMap (· ++ ['>']) ++ tail) := by
          rw [← joined]
          simp
        rw [whole] at shut
        rw [← shut]
        exact (opensFrame_append_mark (c :: first) _).symm
      dsimp only
      rw [framesFrom, framesFrom, List.cons_append, frameTag?, if_neg (by simp [elsewhere]),
        Text.byteLength_cons, ← Nat.add_assoc]
    · exact fun same => mark same

private theorem framesFrom_of_closed (opened : opensFrame (inner ++ '>' :: after) = true)
    (unbroken : '>' ∉ inner) :
    framesFrom (Text.byteLength before) (segments (inner ++ '>' :: after)).1 =
      (Tag.frame? ⟨before, inner, '>' :: after⟩).toList ++
        framesFrom (Text.byteLength (before ++ inner ++ ['>'])) (segments after).1 := by
  rw [opensFrame_append_mark] at opened
  have found : frameTag? (inner ++ ['>']) = some (inner ++ ['>']) := by
    cases inner with
    | nil => exact if_pos opened
    | cons c inner => exact if_pos opened
  have place : Text.byteLength before + Text.byteLength (inner ++ ['>']) =
      Text.byteLength (before ++ inner ++ ['>']) := by
    rw [← Text.byteLength_append, List.append_assoc]
  rw [segments_append_mark unbroken, framesFrom, found, place, Option.bind_some, Tag.frame?,
    if_neg (by simp)]
  cases frameSource? (inner ++ ['>']) <;> rfl

private theorem framesFrom_eq_tags (before text : Text) :
    framesFrom (Text.byteLength before) (segments text).1 =
      (tagsFrom opensFrame before text).filterMap Tag.frame? := by
  fun_induction tagsFrom opensFrame before text with
  | case1 => rfl
  | case2 before c rest opened inner after cut ih =>
    obtain ⟨whole, unbroken⟩ := Text.cutFirst?_eq_some cut
    rw [whole] at opened ⊢
    rw [framesFrom_of_closed opened unbroken, ih, List.filterMap_cons]
    cases Tag.frame? ⟨before, inner, '>' :: after⟩ <;> rfl
  | case3 before c rest opened uncut =>
    rw [segments_of_unmarked (Text.cutFirst?_eq_none_iff.1 uncut)]
    rfl
  | case4 before c rest shut ih =>
    rw [framesFrom_cons (Bool.not_eq_true _ ▸ shut), ← ih, Text.byteLength_append,
      Text.byteLength_cons]
    rfl

theorem frames_eq_tags (text : Text) :
    frames text = (tagsFrom opensFrame [] text).filterMap Tag.frame? :=
  framesFrom_eq_tags [] text

end

/-! ## Refresh tags -/

section

variable {c : Char} {inner text rest after : Text}

def opensMeta (text : Text) : Bool :=
  (Text.dropFolded? "<meta".toList text).isSome

theorem opensMeta_append_mark (text after : Text) :
    opensMeta (text ++ '>' :: after) = opensMeta text := by
  rw [opensMeta, Text.dropFolded?_append_mark rfl (by decide), Option.isSome_map]
  rfl

private theorem metaTag?_cons (shut : opensMeta (c :: rest) = false) :
    metaTag? (c :: rest) = metaTag? rest := by
  have refused : Text.dropFolded? "<meta".toList (c :: rest) = none := by
    simpa [opensMeta] using shut
  rw [metaTag?, metaTag?, Text.cutFolded?_cons (Text.dropFolded?_eq_none_iff.1 refused),
    Option.map_map]
  rfl

theorem metaTag?_of_opensMeta (opened : opensMeta text = true) : metaTag? text = some text := by
  obtain ⟨after, found⟩ := Option.isSome_iff_exists.1 opened
  cases text with
  | nil => cases found
  | cons c text =>
    rw [metaTag?, Text.cutFolded?, found]
    rfl

theorem refresh?_append_mark (unbroken : '>' ∉ inner) (after : Text) :
    refresh? (inner ++ '>' :: after) =
      ((metaTag? inner).bind refreshUrl?).or (refresh? after) := by
  rw [refresh?, refresh?, segments_append_mark unbroken]
  dsimp only
  rw [List.cons_append, List.findSome?_cons]
  cases (metaTag? inner).bind refreshUrl? <;> rfl

theorem refresh?_of_unmarked (unmarked : '>' ∉ text) :
    refresh? text = (metaTag? text).bind refreshUrl? := by
  rw [refresh?, segments_of_unmarked unmarked]
  dsimp only
  rw [List.nil_append, List.findSome?_singleton]

theorem refresh?_cons (shut : opensMeta (c :: rest) = false) :
    refresh? (c :: rest) = refresh? rest := by
  by_cases marked : '>' ∈ c :: rest
  · obtain ⟨inner, after, split, unbroken⟩ := List.eq_append_cons_of_mem marked
    cases inner with
    | nil =>
      obtain ⟨rfl, rfl⟩ := List.cons.inj split
      exact refresh?_append_mark unbroken rest
    | cons first inner =>
      obtain ⟨rfl, rfl⟩ : c = first ∧ rest = inner ++ '>' :: after := List.cons.inj split
      have free : '>' ∉ inner := fun member => unbroken (.tail _ member)
      rw [← List.cons_append] at shut ⊢
      rw [opensMeta_append_mark] at shut
      rw [refresh?_append_mark unbroken, refresh?_append_mark free, metaTag?_cons shut]
  · have free : '>' ∉ rest := fun member => marked (.tail _ member)
    rw [refresh?_of_unmarked marked, refresh?_of_unmarked free, metaTag?_cons shut]

theorem refresh?_eq_tagsFrom (before text : Text) :
    refresh? text =
      (tagsFrom opensMeta before text).findSome? fun tag => refreshUrl? tag.inner := by
  fun_induction tagsFrom opensMeta before text with
  | case1 => rfl
  | case2 before c rest opened inner after cut ih =>
    obtain ⟨whole, unbroken⟩ := Text.cutFirst?_eq_some cut
    rw [whole, opensMeta_append_mark] at opened
    rw [whole, refresh?_append_mark unbroken, metaTag?_of_opensMeta opened, Option.bind_some, ih,
      List.findSome?_cons]
    cases refreshUrl? inner <;> rfl
  | case3 before c rest opened uncut =>
    rw [refresh?_of_unmarked (Text.cutFirst?_eq_none_iff.1 uncut), metaTag?_of_opensMeta opened,
      Option.bind_some, List.findSome?_singleton]
  | case4 before c rest shut ih => rw [refresh?_cons (Bool.not_eq_true _ ▸ shut), ih]

end

end WebClient.Markup
