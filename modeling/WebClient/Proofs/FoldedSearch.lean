import WebClient.Proofs.Runs
import WebClient.Proofs.Trimming

/-!
# Searching without regard to case

A name in small letters is found in a text where it is in the small letters of the text.
Marks and blanks, which the name does not have, tell where that cannot be.
-/

set_option autoImplicit false

namespace WebClient.Text

variable {name text front written : Text}

theorem lower_append (left right : Text) : lower (left ++ right) = lower left ++ lower right :=
  List.map_append

theorem isBlank_of_mem_lower {c : Char} (blank : ∀ c ∈ text, isBlank c = true)
    (member : c ∈ lower text) : isBlank c = true := by
  obtain ⟨letter, listed, rfl⟩ := List.mem_map.1 member
  rw [isBlank_toLower]
  exact blank letter listed

theorem lower_infix_lower {part : Text} (inside : part <:+: text) : lower part <:+: lower text := by
  obtain ⟨front, back, rfl⟩ := inside
  exact ⟨lower front, lower back, by rw [lower_append, lower_append]⟩

/-! ## Runs and blanks -/

/-- A run without blanks is within what is between blanks. -/
theorem infix_of_infix_blanks {run back : Text} (nonempty : run ≠ [])
    (solid : ∀ c ∈ run, isBlank c = false) (blankFront : ∀ c ∈ front, isBlank c = true)
    (blankBack : ∀ c ∈ back, isBlank c = true) (inside : run <:+: front ++ text ++ back) :
    run <:+: text := by
  have notWithin {blanks : Text} (blank : ∀ c ∈ blanks, isBlank c = true) : ¬ run <:+: blanks := by
    intro within
    obtain ⟨first, run, rfl⟩ := List.exists_cons_of_ne_nil nonempty
    exact ne_of_isBlank (blank first (within.subset (.head _))) (solid first (.head _)) rfl
  have absent {c : Char} (blank : isBlank c = true) : c ∉ run := fun member =>
    ne_of_isBlank blank (solid c member) rfl
  have behind : run <:+: text ++ back := by
    rcases List.eq_nil_or_concat front with rfl | ⟨inner, last, rfl⟩
    · simpa using inside
    · rw [List.concat_eq_append, List.forall_mem_append, List.forall_mem_singleton] at blankFront
      have cut : run <:+: inner ++ last :: (text ++ back) := by simpa using inside
      rcases infix_append_cons (absent blankFront.2) cut with within | within
      · exact absurd within (notWithin blankFront.1)
      · exact within
  cases back with
  | nil => simpa using behind
  | cons c back =>
    rw [List.forall_mem_cons] at blankBack
    rcases infix_append_cons (absent blankBack.1) behind with within | within
    · exact within
    · exact absurd within (notWithin blankBack.2)

/-! ## Names at the beginning -/

theorem dropFolded?_eq_some_iff {rest : Text} :
    dropFolded? name text = some rest ↔
      ∃ written, text = written ++ rest ∧ lower written = name := by
  fun_induction dropFolded? name text with
  | case1 text =>
    constructor
    · rintro ⟨⟩
      exact ⟨[], rfl, rfl⟩
    · rintro ⟨written, rfl, folded⟩
      rw [List.map_eq_nil_iff.1 folded, List.nil_append]
  | case2 name c text ih =>
    rw [ih]
    constructor
    · rintro ⟨written, rfl, rfl⟩
      exact ⟨c :: written, rfl, rfl⟩
    · rintro ⟨written, whole, folded⟩
      obtain ⟨first, written, rfl, -, folded⟩ := List.map_eq_cons_iff.1 folded
      exact ⟨written, (List.cons.inj whole).2, folded⟩
  | case3 expected name c text other =>
    refine iff_of_false nofun ?_
    rintro ⟨written, whole, folded⟩
    obtain ⟨first, written, rfl, same, -⟩ := List.map_eq_cons_iff.1 folded
    rw [(List.cons.inj whole).1] at other
    exact other same
  | case4 expected name =>
    refine iff_of_false nofun ?_
    rintro ⟨written, whole, folded⟩
    rw [(List.append_eq_nil_iff.1 whole.symm).1] at folded
    cases folded

theorem dropFolded?_eq_none_iff : dropFolded? name text = none ↔ ¬ name <+: lower text := by
  rw [Option.eq_none_iff_forall_ne_some]
  constructor
  · rintro refused ⟨rest, whole⟩
    obtain ⟨written, after, rfl, folded, -⟩ := List.map_eq_append_iff.1 whole.symm
    exact refused after (dropFolded?_eq_some_iff.2 ⟨written, rfl, folded⟩)
  · intro elsewhere rest found
    obtain ⟨written, rfl, rfl⟩ := dropFolded?_eq_some_iff.1 found
    exact elsewhere ⟨lower rest, (lower_append written rest).symm⟩

/-- A name without the mark does not reach beyond it. -/
theorem dropFolded?_append_mark {mark : Char} (small : mark.toLower = mark) (absent : mark ∉ name)
    (text after : Text) :
    dropFolded? name (text ++ mark :: after) =
      (dropFolded? name text).map (· ++ mark :: after) := by
  induction name generalizing text with
  | nil => rfl
  | cons expected name ih =>
    simp only [List.mem_cons, not_or] at absent
    cases text with
    | nil =>
      rw [List.nil_append, dropFolded?, small, if_neg absent.1]
      rfl
    | cons c text =>
      simp only [List.cons_append, dropFolded?]
      split
      · exact ih absent.2 text
      · rfl

/-! ## Names anywhere -/

theorem cutFolded?_cons {c : Char} {rest : Text} (elsewhere : ¬ name <+: lower (c :: rest)) :
    cutFolded? name (c :: rest) =
      (cutFolded? name rest).map fun (before, after) => (c :: before, after) := by
  rw [cutFolded?, dropFolded?_eq_none_iff.2 elsewhere]

/-- A search goes on behind a mark that the name does not have. -/
theorem cutFolded?_append_cons {mark : Char} (small : mark.toLower = mark)
    (absent : mark ∉ name) (free : ¬ name <:+: lower front) (rest : Text) :
    cutFolded? name (front ++ mark :: rest) =
      (cutFolded? name rest).map fun (before, after) => (front ++ mark :: before, after) := by
  have elsewhere {front : Text} (free : ¬ name <:+: lower front) :
      ¬ name <+: lower (front ++ mark :: rest) := by
    rw [lower_append, lower, lower, List.map_cons, small]
    exact fun begins => free (prefix_append_cons absent begins).isInfix
  induction front with
  | nil => exact cutFolded?_cons (elsewhere free)
  | cons c front ih =>
    have later : ¬ name <:+: lower front := fun inside => free (List.infix_cons inside)
    have here : ¬ name <+: lower (c :: (front ++ mark :: rest)) := elsewhere free
    rw [List.cons_append, cutFolded?_cons here, ih later, Option.map_map]
    rfl

/-- A cut at a name is one at the first place that spells it. -/
theorem cutFolded?_eq_some_iff {before after : Text} (nonempty : name ≠ []) :
    cutFolded? name text = some (before, after) ↔
      ∃ written, text = before ++ (written ++ after) ∧ lower written = name ∧
        ∀ front inner, before = front ++ inner → inner ≠ [] →
          ¬ name <+: lower (inner ++ (written ++ after)) := by
  induction text generalizing before with
  | nil =>
    rw [cutFolded?, if_neg (by simpa using nonempty)]
    refine iff_of_false nofun ?_
    rintro ⟨written, whole, folded, -⟩
    obtain ⟨-, empty⟩ := List.append_eq_nil_iff.1 whole.symm
    rw [(List.append_eq_nil_iff.1 empty).1] at folded
    exact nonempty folded.symm
  | cons c text ih =>
    cases here : dropFolded? name (c :: text) with
    | some rest =>
      obtain ⟨written, whole, folded⟩ := dropFolded?_eq_some_iff.1 here
      rw [cutFolded?, here]
      constructor
      · rintro ⟨⟩
        refine ⟨written, whole, folded, fun front inner split occupied => ?_⟩
        exact absurd (List.append_eq_nil_iff.1 split.symm).2 occupied
      · rintro ⟨other, joined, same, first⟩
        obtain rfl : before = [] := by
          by_contra occupied
          refine first [] before rfl occupied ?_
          rw [← joined, whole, lower_append, folded]
          exact List.prefix_append _ _
        have found : dropFolded? name (c :: text) = some after :=
          dropFolded?_eq_some_iff.2 ⟨other, joined, same⟩
        cases here.symm.trans found
        rfl
    | none =>
      have elsewhere := dropFolded?_eq_none_iff.1 here
      rw [cutFolded?_cons elsewhere, Option.map_eq_some_iff]
      constructor
      · rintro ⟨⟨passed, rest⟩, cut, joined⟩
        obtain ⟨rfl, rfl⟩ := Prod.mk.inj joined
        obtain ⟨written, rfl, folded, first⟩ := ih.1 cut
        refine ⟨written, rfl, folded, fun front inner split occupied => ?_⟩
        cases front with
        | nil =>
          obtain rfl : c :: passed = inner := split
          exact elsewhere
        | cons _ front =>
          obtain ⟨rfl, rfl⟩ := List.cons.inj split
          exact first front inner rfl occupied
      · rintro ⟨written, whole, folded, first⟩
        cases before with
        | nil =>
          refine absurd ⟨lower after, ?_⟩ elsewhere
          rw [← folded, ← lower_append]
          exact congrArg lower whole.symm
        | cons _ passed =>
          obtain ⟨rfl, rfl⟩ := List.cons.inj whole
          refine ⟨(passed, after), ih.2 ⟨written, rfl, folded, ?_⟩, rfl⟩
          rintro front inner rfl
          exact first (_ :: front) inner rfl

theorem cutFolded?_append_of_blank (nonempty : written ≠ [])
    (solid : ∀ c ∈ written, isBlank c = false) (blank : ∀ c ∈ front, isBlank c = true)
    (rest : Text) :
    cutFolded? (lower written) (front ++ (written ++ rest)) = some (front, rest) := by
  obtain ⟨first, others, shape⟩ := List.exists_cons_of_ne_nil nonempty
  induction front with
  | nil =>
    have found : dropFolded? (lower written) (written ++ rest) = some rest :=
      dropFolded?_eq_some_iff.2 ⟨written, rfl, rfl⟩
    rw [shape, List.cons_append] at found ⊢
    rw [List.nil_append, cutFolded?, found]
  | cons c front ih =>
    rw [List.forall_mem_cons] at blank
    have elsewhere : ¬ lower written <+: lower (c :: (front ++ (written ++ rest))) := by
      intro begins
      rw [shape] at begins solid
      have same : first.toLower = c.toLower := (List.cons_prefix_cons.1 begins).1
      have solidFirst := solid first (.head _)
      rw [← isBlank_toLower, same, isBlank_toLower, blank.1] at solidFirst
      cases solidFirst
    rw [List.cons_append, cutFolded?_cons elsewhere, ih blank.2]
    rfl

/-! ## Copies in small letters -/

theorem dropFolded?_lower (name text : Text) :
    dropFolded? name (lower text) = (dropFolded? name text).map lower := by
  fun_induction dropFolded? name text with
  | case1 => rfl
  | case2 name c text ih =>
    rw [← ih, lower, List.map_cons, dropFolded?, toLower_toLower, if_pos rfl]
    rfl
  | case3 expected name c text other =>
    rw [lower, List.map_cons, dropFolded?, toLower_toLower, if_neg other]
    rfl
  | case4 => rfl

private theorem isPrefixOf?_lower (name text : Text) :
    name.isPrefixOf? (lower text) = (dropFolded? name text).map lower := by
  fun_induction dropFolded? name text with
  | case1 text => cases text <;> rfl
  | case2 name c text ih =>
    rw [← ih]
    simp [lower, List.isPrefixOf?]
  | case3 expected name c text other =>
    simp [lower, List.isPrefixOf?, Ne.symm other]
  | case4 => rfl

/-- To cut the copy in small letters is to cut the text without regard to case. -/
theorem cutRun?_lower (name text : Text) :
    cutRun? name (lower text) =
      (cutFolded? name text).map fun (before, after) => (lower before, lower after) := by
  induction text with
  | nil =>
    rw [cutFolded?]
    split <;> simp_all [lower, cutRun?]
  | cons c text ih =>
    have begins := isPrefixOf?_lower name (c :: text)
    rw [lower, List.map_cons] at begins ⊢
    rw [cutRun?, begins, cutFolded?]
    cases dropFolded? name (c :: text) with
    | some rest => rfl
    | none =>
      rw [← lower, Option.map_none, ih, Option.map_map, Option.map_map]
      rfl

theorem cutFolded?_eq_none_iff : cutFolded? name text = none ↔ ¬ name <:+: lower text := by
  rw [← cutRun?_eq_none_iff, cutRun?_lower, Option.map_eq_none_iff]

/-- A character that is no small letter stands in the copy only where it stands in the text. -/
theorem toLower_eq_iff {c mark : Char} (unlettered : mark.toNat < 97 ∨ 122 < mark.toNat)
    (small : mark.toLower = mark) : c.toLower = mark ↔ c = mark := by
  constructor
  · rintro rfl
    rw [toNat_toLower] at unlettered
    rw [← Char.toNat_inj, toNat_toLower]
    split at unlettered <;> split <;> omega
  · rintro rfl
    exact small

theorem cutFirst?_lower {mark : Char} (only : ∀ c : Char, c.toLower = mark ↔ c = mark)
    (text : Text) :
    cutFirst? mark (lower text) =
      (cutFirst? mark text).map fun (before, after) => (lower before, lower after) := by
  induction text with
  | nil => rfl
  | cons c text ih =>
    rw [lower, List.map_cons, cutFirst?, cutFirst?]
    by_cases same : c = mark
    · rw [if_pos same, if_pos ((only c).2 same)]
      rfl
    · rw [if_neg same, if_neg (same ∘ (only c).1), ← lower, ih, Option.map_map, Option.map_map]
      rfl

end WebClient.Text
