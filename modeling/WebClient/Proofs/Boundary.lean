import WebClient.Multipart
import WebClient.Proofs.Runs
import WebClient.Proofs.Utf8

/-!
# Boundaries

What is known of a boundary that was drawn: how it looks, that it is in none of the
values, and that every boundary tried before it is in one.
-/

set_option autoImplicit false

namespace WebClient.Multipart

private theorem mem_alphabet_of_drawn? {number : UInt32} {c : Char}
    (drawn : drawn? number = some c) : c ∈ alphabet :=
  List.mem_of_getElem? drawn

theorem drawToken?_eq_some {count : Nat} {draws rest : Draws} {token : Text}
    (drawn : drawToken? count draws = some (token, rest)) :
    token.length = count ∧ ∀ c ∈ token, c ∈ alphabet := by
  fun_induction drawToken? count draws generalizing token rest with
  | case1 draws =>
    cases drawn
    exact ⟨rfl, fun _ member => absurd member List.not_mem_nil⟩
  | case2 => cases drawn
  | case3 count number draws c found ih =>
    obtain ⟨⟨later, left⟩, inner, joined⟩ := Option.map_eq_some_iff.1 drawn
    obtain ⟨rfl, rfl⟩ := Prod.mk.inj joined
    obtain ⟨length, listed⟩ := ih inner
    exact ⟨congrArg Nat.succ length,
      List.forall_mem_cons.2 ⟨mem_alphabet_of_drawn? found, listed⟩⟩
  | case4 count number draws found ih => exact ih drawn

theorem utf8_lineEnd : lineEnd.utf8 = [13, 10] :=
  rfl

def IsBoundary (boundary : Text) : Prop :=
  ∃ token, boundary = marker ++ token ∧ token.length = tokenLength ∧ ∀ c ∈ token, c ∈ alphabet

theorem boundary?_eq_some {parts : Parts} {draws rest : Draws} {boundary : Text}
    (drawn : boundary? parts draws = some (boundary, rest)) :
    IsBoundary boundary ∧ collides parts boundary = false := by
  fun_induction boundary? parts draws with
  | case1 => cases drawn
  | case2 draws token left found taken ih => exact ih drawn
  | case3 draws token left found free =>
    cases drawn
    obtain ⟨length, listed⟩ := drawToken?_eq_some found
    exact ⟨⟨token, rfl, length, listed⟩, by simpa using free⟩

/-- No value has the boundary in it. -/
def IsFree (parts : Parts) (boundary : Text) : Prop :=
  ∀ part ∈ parts, ¬ boundary.utf8 <:+: part.2.bytes

theorem collides_eq_false_iff {parts : Parts} {boundary : Text} :
    collides parts boundary = false ↔ IsFree parts boundary := by
  simp only [collides, List.any_eq_false, Text.occurs_iff, IsFree]

theorem not_infix_of_collides {parts : Parts} {boundary : Text}
    (free : collides parts boundary = false) :
    ∀ part ∈ parts, ¬ boundary.utf8 <:+: part.2.bytes :=
  collides_eq_false_iff.1 free

private theorem isAlphanum_of_mem_alphabet : ∀ c ∈ alphabet, c.isAlphanum = true :=
  List.all_eq_true.1 rfl

private theorem isAlphanum_of_mem_marker : ∀ c ∈ marker, c = '-' ∨ c.isAlphanum = true := by
  unfold marker
  simp

namespace IsBoundary

variable {boundary : Text}

theorem not_mem_utf8 (isBoundary : IsBoundary boundary) (mark : Char)
    (ascii : mark.toNat < 128) (outside : mark ≠ '-' ∧ mark.isAlphanum = false) :
    UInt8.ofNat mark.toNat ∉ boundary.utf8 := by
  obtain ⟨token, rfl, -, listed⟩ := isBoundary
  rw [Text.mem_utf8_iff ascii, List.mem_append, not_or]
  have other : ¬ mark.isAlphanum = true := Bool.eq_false_iff.1 outside.2
  constructor
  · intro member
    rcases isAlphanum_of_mem_marker mark member with hyphen | alphanum
    · exact outside.1 hyphen
    · exact other alphanum
  · intro member
    exact other (isAlphanum_of_mem_alphabet mark (listed mark member))

/-- A capital letter of the marker is enough to tell a text from the boundary. -/
theorem not_infix_utf8 (isBoundary : IsBoundary boundary) {text : Text} (absent : 'S' ∉ text) :
    ¬ boundary.utf8 <:+: text.utf8 := by
  obtain ⟨token, rfl, -, -⟩ := isBoundary
  have ascii : 'S'.toNat < 128 := by decide
  have capital : 'S' ∈ marker := by
    unfold marker
    simp
  intro inside
  have member := (Text.mem_utf8_iff ascii).2 (List.mem_append_left token capital)
  exact absent ((Text.mem_utf8_iff ascii).1 (inside.subset member))

theorem not_infix_nil (isBoundary : IsBoundary boundary) : ¬ boundary.utf8 <:+: [] :=
  isBoundary.not_infix_utf8 List.not_mem_nil

theorem not_infix_append_lineEnd (isBoundary : IsBoundary boundary) {left right : Bytes}
    (leftFree : ¬ boundary.utf8 <:+: left) (rightFree : ¬ boundary.utf8 <:+: right) :
    ¬ boundary.utf8 <:+: left ++ lineEnd.utf8 ++ right := by
  have carriage : 13 ∉ boundary.utf8 :=
    isBoundary.not_mem_utf8 '\r' (by decide) (by decide)
  have feed : 10 ∉ boundary.utf8 :=
    isBoundary.not_mem_utf8 '\n' (by decide) (by decide)
  have between := Text.not_infix_append_cons feed isBoundary.not_infix_nil rightFree
  have whole := Text.not_infix_append_cons carriage leftFree between
  simpa [utf8_lineEnd] using whole

end IsBoundary

/-! ## The order of the draws -/

/-- The boundary that is tried at a place, if there are random numbers enough for it. -/
def candidate? (draws : Draws) (place : Nat) : Option Text :=
  let token := ((draws.filterMap drawn?).drop (tokenLength * place)).take tokenLength
  if token.length = tokenLength then some (marker ++ token) else none

theorem filterMap_drawn? {count : Nat} {draws rest : Draws} {token : Text}
    (drawn : drawToken? count draws = some (token, rest)) :
    draws.filterMap drawn? = token ++ rest.filterMap drawn? := by
  fun_induction drawToken? count draws generalizing token rest with
  | case1 draws =>
    cases drawn
    rfl
  | case2 => cases drawn
  | case3 count number draws c found ih =>
    obtain ⟨⟨later, left⟩, inner, joined⟩ := Option.map_eq_some_iff.1 drawn
    obtain ⟨rfl, rfl⟩ := Prod.mk.inj joined
    rw [List.filterMap_cons_some found, ih inner, List.cons_append]
  | case4 count number draws found ih => rw [List.filterMap_cons_none found, ih drawn]

section

variable {parts : Parts} {draws rest : Draws} {token : Text}

private theorem candidate?_zero (drawn : drawToken? tokenLength draws = some (token, rest)) :
    candidate? draws 0 = some (marker ++ token) := by
  have length := (drawToken?_eq_some drawn).1
  unfold candidate?
  rw [Nat.mul_zero, List.drop_zero, filterMap_drawn? drawn, ← length, List.take_left]
  exact if_pos rfl

private theorem candidate?_succ (drawn : drawToken? tokenLength draws = some (token, rest))
    (place : Nat) : candidate? draws (place + 1) = candidate? rest place := by
  have length := (drawToken?_eq_some drawn).1
  have skip : tokenLength * (place + 1) = token.length + tokenLength * place := by
    rw [length, Nat.mul_succ, Nat.add_comm]
  unfold candidate?
  rw [filterMap_drawn? drawn, skip, List.drop_length_add_append]

/-- The first boundary, in the order of the draws, that is in none of the values. -/
def IsFirstFree (parts : Parts) (draws : Draws) (boundary : Text) : Prop :=
  ∃ place, candidate? draws place = some boundary ∧ IsFree parts boundary ∧
    ∀ earlier < place, ∃ tried, candidate? draws earlier = some tried ∧ ¬ IsFree parts tried

theorem isFirstFree_of_boundary? {boundary : Text}
    (found : boundary? parts draws = some (boundary, rest)) : IsFirstFree parts draws boundary := by
  fun_induction boundary? parts draws with
  | case1 => cases found
  | case2 draws token left drawn taken ih =>
    obtain ⟨place, here, free, before⟩ := ih found
    refine ⟨place + 1, (candidate?_succ drawn place).trans here, free, ?_⟩
    rintro (_ | earlier) below
    · refine ⟨_, candidate?_zero drawn, fun free => ?_⟩
      rw [collides_eq_false_iff.2 free] at taken
      cases taken
    · rw [candidate?_succ drawn]
      exact before earlier (Nat.lt_of_succ_lt_succ below)
  | case3 draws token left drawn unused =>
    cases found
    refine ⟨0, candidate?_zero drawn, collides_eq_false_iff.1 (by simpa using unused), ?_⟩
    exact fun earlier below => absurd below (Nat.not_lt_zero earlier)

end

end WebClient.Multipart
