import Mathlib.Data.List.Infix
import Mathlib.Data.List.DropRight
import WebClient.Text.Blank
import WebClient.Text.Fold

/-!
# Blanks at the ends of a text

What a text is without the blanks at its ends, and what is left of them when something is
put behind it.
-/

set_option autoImplicit false

namespace WebClient.Text

theorem isBlank_of_printable {c : Char} (low : 33 ≤ c.toNat) (high : c.toNat ≤ 126) :
    isBlank c = false := by
  simp [isBlank]
  omega

theorem isBlank_toLower (c : Char) : isBlank c.toLower = isBlank c := by
  by_cases upper : 65 ≤ c.toNat ∧ c.toNat ≤ 90
  · have code : c.toLower.toNat = c.toNat + 32 := by rw [toNat_toLower, if_pos upper]
    rw [isBlank_of_printable (by omega) (by omega), isBlank_of_printable (by omega) (by omega)]
  · have same : c.toLower = c := by rw [← Char.toNat_inj, toNat_toLower, if_neg upper]
    rw [same]

def IsEnded (text : Text) : Prop :=
  ∀ c ∈ text.getLast?, isBlank c = false

theorem isEnded_append_cons (front : Text) {c : Char} {rest : Text} :
    IsEnded (front ++ c :: rest) ↔ IsEnded (c :: rest) := by
  rw [IsEnded, IsEnded, List.getLast?_append_cons]

theorem IsEnded.of_append (front : Text) {rest : Text} (ended : IsEnded (front ++ rest)) :
    IsEnded rest := by
  cases rest with
  | nil => exact fun c last => by cases last
  | cons c rest => exact (isEnded_append_cons front).1 ended

theorem isEnded_cons {c : Char} {rest : Text} (last : rest = [] → isBlank c = false)
    (ended : IsEnded rest) : IsEnded (c :: rest) := by
  cases rest with
  | nil =>
    intro other same
    cases same
    exact last rfl
  | cons next rest => exact (isEnded_append_cons [c]).2 ended

theorem solid_of_all {text : Text} (solid : text.all (fun c => !isBlank c) = true) :
    ∀ c ∈ text, isBlank c = false := by
  simpa using solid

theorem isEnded_of_solid {text : Text} (solid : ∀ c ∈ text, isBlank c = false) : IsEnded text :=
  fun c last => solid c (List.mem_of_getLast? last)

def trailing (text : Text) : Text :=
  (text.reverse.takeWhile isBlank).reverse

theorem isBlank_of_mem_trailing {text : Text} {c : Char} (member : c ∈ trailing text) :
    isBlank c = true :=
  List.all_eq_true.1 List.all_takeWhile c (List.mem_reverse.1 member)

theorem ne_of_isBlank {c mark : Char} (blank : isBlank c = true) (solid : isBlank mark = false) :
    c ≠ mark := by
  rintro rfl
  simp [blank] at solid

theorem not_mem_trailing {text : Text} {mark : Char} (solid : isBlank mark = false) :
    mark ∉ trailing text :=
  fun member => ne_of_isBlank (isBlank_of_mem_trailing member) solid rfl

theorem trimEnd_append_trailing (text : Text) : trimEnd text ++ trailing text = text := by
  rw [trimEnd, trailing, ← List.reverse_append, List.takeWhile_append_dropWhile,
    List.reverse_reverse]

theorem trailing_eq_nil_iff {text : Text} : trailing text = [] ↔ IsEnded text := by
  rw [trailing, IsEnded, List.getLast?_eq_head?_reverse, List.reverse_eq_nil_iff]
  cases text.reverse with
  | nil => simp
  | cons last front =>
    by_cases blank : isBlank last = true <;> simp [blank]

theorem isEnded_of_isEnded_trailing {text : Text} (ended : IsEnded (trailing text)) :
    IsEnded text := by
  rw [← trailing_eq_nil_iff]
  by_contra occupied
  exact ne_of_isBlank (isBlank_of_mem_trailing (List.getLast_mem occupied))
    (ended _ (List.getLast?_eq_some_getLast occupied)) rfl

theorem isEnded_trimEnd (text : Text) : IsEnded (trimEnd text) := by
  intro c last
  rw [trimEnd, List.getLast?_reverse] at last
  have stops := List.head?_dropWhile_not isBlank text.reverse
  rw [Option.mem_def.1 last] at stops
  simpa using stops

theorem trimEnd_eq_self_iff {text : Text} : trimEnd text = text ↔ IsEnded text := by
  rw [← trailing_eq_nil_iff]
  conv_lhs => rhs; rw [← trimEnd_append_trailing text]
  exact List.self_eq_append_right

theorem trailing_append_cons (front : Text) {c : Char} (solid : isBlank c = false) (rest : Text) :
    trailing (front ++ c :: rest) = trailing rest := by
  have stops : (c :: front.reverse).takeWhile isBlank = [] :=
    List.takeWhile_cons_of_neg (by simp [solid])
  rw [trailing, trailing, List.reverse_append, List.reverse_cons, List.append_assoc,
    List.singleton_append, List.takeWhile_append, stops, List.append_nil]
  split
  · rename_i all
    rw [(List.takeWhile_prefix isBlank).eq_of_length all]
  · rfl

theorem trimEnd_append_cons (front : Text) {c : Char} (solid : isBlank c = false) (rest : Text) :
    trimEnd (front ++ c :: rest) = front ++ c :: trimEnd rest := by
  have whole := trimEnd_append_trailing (front ++ c :: rest)
  rw [trailing_append_cons front solid] at whole
  refine List.append_cancel_right (whole.trans ?_)
  rw [List.append_assoc, List.cons_append, trimEnd_append_trailing]

theorem trimStart_cons {first : Char} (solid : isBlank first = false) (rest : Text) :
    trimStart (first :: rest) = first :: rest := by
  rw [trimStart, List.dropWhile_cons_of_neg (by simp [solid])]

private theorem trimStart_append {front : Text} (occupied : trimStart front ≠ []) (rest : Text) :
    trimStart (front ++ rest) = trimStart front ++ rest := by
  unfold trimStart at occupied ⊢
  rw [List.dropWhile_append, if_neg (by simpa using occupied)]

theorem mem_trim_iff {mark : Char} (solid : isBlank mark = false) {text : Text} :
    mark ∈ trim text ↔ mark ∈ text := by
  have before : mark ∉ text.takeWhile isBlank := fun member =>
    ne_of_isBlank (List.all_eq_true.1 List.all_takeWhile mark member) solid rfl
  have after : mark ∉ trailing (trimStart text) := not_mem_trailing solid
  conv_rhs => rw [← List.takeWhile_append_dropWhile (p := isBlank) (l := text), ← trimStart,
    ← trimEnd_append_trailing (trimStart text), ← trim]
  simp [before, after]

/-- What is added to a text keeps the blanks at its end. -/
theorem trim_append_cons {text : Text} (occupied : trim text ≠ []) {first : Char} {rest : Text}
    (ended : IsEnded (first :: rest)) :
    trim (text ++ first :: rest) = trim text ++ (trailing text ++ first :: rest) := by
  have begun : trimStart text ≠ [] := fun empty => occupied (by rw [trim, empty]; rfl)
  have same : trailing (trimStart text) = trailing text := by
    obtain ⟨c, inner, shape⟩ := List.exists_cons_of_ne_nil begun
    have solid : isBlank c = false := by
      have stops := List.head?_dropWhile_not isBlank text
      rw [← trimStart, shape] at stops
      simpa using stops
    obtain ⟨front, split⟩ : trimStart text <:+ text := List.dropWhile_suffix _
    rw [shape] at split ⊢
    rw [← split, trailing_append_cons front solid]
    exact trailing_append_cons [] solid inner
  rw [trim, trimStart_append begun, trimEnd_eq_self_iff.2 ((isEnded_append_cons _).2 ended), trim,
    ← same, ← List.append_assoc, trimEnd_append_trailing]

section

variable {mark : Char} (solid : isBlank mark = false)

include solid

theorem trimStart_append_solid (text rest : Text) :
    trimStart (text ++ mark :: rest) = trimStart text ++ mark :: rest := by
  induction text with
  | nil => exact trimStart_cons solid rest
  | cons c text ih =>
    by_cases blank : isBlank c = true
    · simpa [trimStart, blank] using ih
    · simp [trimStart, blank]

theorem trim_append_solid {text : Text} (ended : text.IsEnded) (rest : Text) :
    trim (text ++ mark :: rest) = trim text ++ mark :: trimEnd rest := by
  have kept : trimEnd (trimStart text) = trimStart text := by
    obtain ⟨blanks, split⟩ : trimStart text <:+ text := List.dropWhile_suffix _
    rw [← split] at ended
    exact trimEnd_eq_self_iff.2 (ended.of_append blanks)
  rw [trim, trimStart_append_solid solid, trimEnd_append_cons _ solid, trim, kept]

end

theorem isEnded_of_trim_eq_self {text : Text} (trimmed : trim text = text) : text.IsEnded := by
  rw [← trimmed]
  exact isEnded_trimEnd _

theorem trim_trimStart (text : Text) : trim (trimStart text) = trim text := by
  rw [trim, trim, trimStart, trimStart, List.dropWhile_idempotent]

theorem trim_append_of_blank {text blanks : Text} (blank : ∀ c ∈ blanks, isBlank c = true) :
    trim (text ++ blanks) = trim text := by
  induction blanks generalizing text with
  | nil => rw [List.append_nil]
  | cons c blanks ih =>
    rw [List.forall_mem_cons] at blank
    rw [List.append_cons, ih blank.2, trim_concat blank.1]

theorem trim_of_blank_append {blanks : Text} (blank : ∀ c ∈ blanks, isBlank c = true)
    (text : Text) : trim (blanks ++ text) = trim text := by
  induction blanks with
  | nil => rw [List.nil_append]
  | cons c blanks ih =>
    rw [List.forall_mem_cons] at blank
    rw [List.cons_append, trim_cons blank.1, ih blank.2]

theorem trim_eq_self {first : Char} {rest : Text} (solid : isBlank first = false)
    (ended : IsEnded (first :: rest)) : trim (first :: rest) = first :: rest := by
  rw [trim, trimStart_cons solid, trimEnd_eq_self_iff.2 ended]

theorem trim_trimEnd (text : Text) : trim (trimEnd text) = trim text := by
  conv_rhs => rw [← trimEnd_append_trailing text]
  exact (trim_append_of_blank fun c => isBlank_of_mem_trailing).symm

theorem exists_eq_append_trim (text : Text) :
    ∃ front back, text = front ++ trim text ++ back ∧ (∀ c ∈ front, isBlank c = true) ∧
      ∀ c ∈ back, isBlank c = true := by
  refine ⟨text.takeWhile isBlank, trailing (trimStart text), ?_,
    fun c member => List.all_eq_true.1 List.all_takeWhile c member,
    fun c member => isBlank_of_mem_trailing member⟩
  rw [trim, List.append_assoc, trimEnd_append_trailing, trimStart, List.takeWhile_append_dropWhile]

theorem trimStart_lower (text : Text) : trimStart (lower text) = lower (trimStart text) := by
  have same : isBlank ∘ Char.toLower = isBlank := funext isBlank_toLower
  rw [trimStart, trimStart, lower, lower, List.dropWhile_map, same]

theorem trim_lower (text : Text) : trim (lower text) = lower (trim text) := by
  have same : isBlank ∘ Char.toLower = isBlank := funext isBlank_toLower
  rw [trim, trim, trimEnd, trimEnd, trimStart_lower, lower, lower, ← List.map_reverse,
    List.dropWhile_map, same, List.map_reverse]

end WebClient.Text
