import WebClient.Text

/-!
# Cutting text at a separator

A cut gives the text before a separator and the text after it. The separator is
one character, at its first or last occurrence, or a whole text at its first
occurrence.
-/

set_option autoImplicit false

namespace WebClient.Text

variable {α : Type} [BEq α]

def cutFirst? (mark : Char) : Text → Option (Text × Text)
  | [] => none
  | c :: rest =>
    if c = mark then some ([], rest)
    else (cutFirst? mark rest).map fun (before, after) => (c :: before, after)

def cutLast? (mark : Char) : Text → Option (Text × Text)
  | [] => none
  | c :: rest =>
    match cutLast? mark rest with
    | some (before, after) => some (c :: before, after)
    | none => if c = mark then some ([], rest) else none

/-- Cut at the first occurrence of a whole run, which is dropped. Used on bytes
as well as on text. -/
def cutRun? (run : List α) : List α → Option (List α × List α)
  | [] => if run.isEmpty then some ([], []) else none
  | c :: rest =>
    match run.isPrefixOf? (c :: rest) with
    | some after => some ([], after)
    | none => (cutRun? run rest).map fun (before, after) => (c :: before, after)

def occurs (run whole : List α) : Bool :=
  (cutRun? run whole).isSome

def before (mark : Char) (text : Text) : Text :=
  text.takeWhile (· ≠ mark)

theorem takeWhile_append_cons {β : Type} [DecidableEq β] {mark : β} {front : List β}
    (absent : mark ∉ front) (rest : List β) :
    (front ++ mark :: rest).takeWhile (· ≠ mark) = front := by
  rw [List.takeWhile_append_of_pos]
  · simp
  · intro element member
    exact decide_eq_true fun same => absent (same ▸ member)

theorem before_append_cons {mark : Char} {front : Text} (absent : mark ∉ front) (rest : Text) :
    before mark (front ++ mark :: rest) = front :=
  takeWhile_append_cons absent rest

theorem before_append_mark (mark : Char) (text rest : Text) :
    before mark (text ++ mark :: rest) = before mark text := by
  induction text with
  | nil => simp [before]
  | cons c text ih =>
    by_cases same : c = mark
    · simp [before, same]
    · simpa [before, same] using ih

theorem before_eq_self {mark : Char} {text : Text} (absent : mark ∉ text) :
    before mark text = text := by
  rw [before, ← List.append_nil text, List.takeWhile_append_of_pos]
  · simp
  · intro c member
    exact decide_eq_true fun same => absent (same ▸ member)

theorem not_mem_before (mark : Char) (text : Text) : mark ∉ before mark text := by
  intro member
  simpa using List.all_eq_true.1 List.all_takeWhile mark member

theorem cutFirst?_eq_some {mark : Char} {text before after : Text}
    (cut : cutFirst? mark text = some (before, after)) :
    text = before ++ mark :: after ∧ mark ∉ before := by
  induction text generalizing before after with
  | nil => simp [cutFirst?] at cut
  | cons c rest ih =>
    by_cases same : c = mark
    · simp [cutFirst?, same] at cut
      simp [cut, same]
    · simp only [cutFirst?, if_neg same, Option.map_eq_some_iff] at cut
      obtain ⟨⟨front, back⟩, inner, joined⟩ := cut
      obtain ⟨rfl, rfl⟩ := Prod.mk.inj joined
      obtain ⟨whole, absent⟩ := ih inner
      exact ⟨by simp [whole], by simp [absent, Ne.symm same]⟩

theorem cutFirst?_append_cons {mark : Char} {before : Text} (absent : mark ∉ before)
    (after : Text) : cutFirst? mark (before ++ mark :: after) = some (before, after) := by
  induction before with
  | nil => simp [cutFirst?]
  | cons c before ih =>
    simp only [List.mem_cons, not_or] at absent
    simp [cutFirst?, Ne.symm absent.1, ih absent.2]

theorem cutFirst?_eq_none_iff {mark : Char} {text : Text} :
    cutFirst? mark text = none ↔ mark ∉ text := by
  induction text with
  | nil => simp [cutFirst?]
  | cons c rest ih =>
    by_cases same : c = mark
    · simp [cutFirst?, same]
    · simp [cutFirst?, same, Ne.symm same, ih]

theorem cutLast?_eq_none_iff {mark : Char} {text : Text} :
    cutLast? mark text = none ↔ mark ∉ text := by
  induction text with
  | nil => simp [cutLast?]
  | cons c rest ih =>
    cases inner : cutLast? mark rest with
    | none =>
      by_cases same : c = mark
      · simp [cutLast?, inner, same]
      · simp [cutLast?, inner, same, Ne.symm same, ih.1 inner]
    | some cut =>
      have present : mark ∈ rest := by
        by_cases found : mark ∈ rest
        · exact found
        · simp [ih.2 found] at inner
      simp [cutLast?, inner, present]

theorem cutLast?_eq_some {mark : Char} {text before after : Text}
    (cut : cutLast? mark text = some (before, after)) :
    text = before ++ mark :: after ∧ mark ∉ after := by
  induction text generalizing before after with
  | nil => simp [cutLast?] at cut
  | cons c rest ih =>
    cases inner : cutLast? mark rest with
    | none =>
      by_cases same : c = mark
      · simp [cutLast?, inner, same] at cut
        obtain ⟨rfl, rfl⟩ := cut
        exact ⟨by simp [same], cutLast?_eq_none_iff.1 inner⟩
      · simp [cutLast?, inner, same] at cut
    | some pair =>
      obtain ⟨front, back⟩ := pair
      simp only [cutLast?, inner, Option.some.injEq, Prod.mk.injEq] at cut
      obtain ⟨rfl, rfl⟩ := cut
      obtain ⟨whole, absent⟩ := ih inner
      exact ⟨by simp [whole], absent⟩

theorem cutLast?_append_cons {mark : Char} {after : Text} (absent : mark ∉ after) (before : Text) :
    cutLast? mark (before ++ mark :: after) = some (before, after) := by
  induction before with
  | nil => simp [cutLast?, cutLast?_eq_none_iff.2 absent]
  | cons c before ih => simp [cutLast?, ih]

end WebClient.Text
