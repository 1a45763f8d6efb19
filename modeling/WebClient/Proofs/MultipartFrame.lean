import WebClient.Proofs.MultipartDecode

/-!
# Delimiters of a multipart form

The delimiter stands in an encoded form only where a part begins and after the last part,
whatever bytes the values are.
-/

set_option autoImplicit false

namespace WebClient.Multipart

/-- Where the delimiters are in a body of so many parts: one in front of each part and one
behind the last, each at the beginning of a line. -/
structure IsFramed (boundary : Text) (count : Nat) (body : Bytes) : Prop where
  length : (Text.offsets (delimiter boundary) body).length = count + 1
  lineStart : ∀ start ∈ Text.offsets (delimiter boundary) body,
    start = 0 ∨ (body.take start).getLast? = some 10
  opening : ∀ start ∈ (Text.offsets (delimiter boundary) body).dropLast,
    delimiter boundary ++ lineEnd.utf8 <+: body.drop start
  closing : ∀ start ∈ (Text.offsets (delimiter boundary) body).getLast?,
    body.drop start = delimiter boundary ++ tail

section

variable {boundary : Text} {types : Types} {name : Text} {value rest : Bytes} {count : Nat}

/-- The hyphens of a delimiter are all at its beginning. -/
theorem exists_delimiter_eq (isBoundary : IsBoundary boundary) :
    ∃ letters, delimiter boundary = List.replicate 6 45 ++ letters ∧ letters ≠ [] ∧
      45 ∉ letters := by
  obtain ⟨token, rfl, -, listed⟩ := isBoundary
  have ascii : '-'.toNat < 128 := by decide
  have begun : Text.utf8 ("--".toList ++ marker) =
      List.replicate 6 45 ++ Text.utf8 "SondaFormBoundary".toList := by
    decide
  refine ⟨Text.utf8 "SondaFormBoundary".toList ++ token.utf8, ?_, ?_, ?_⟩
  · rw [delimiter, ← List.append_assoc, Text.utf8_append _ token, begun, List.append_assoc]
  · exact List.append_ne_nil_of_left_ne_nil (by decide) _
  · rw [List.mem_append, not_or]
    refine ⟨by decide, fun member => ?_⟩
    have letter : '-' ∈ alphabet := listed '-' ((Text.mem_utf8_iff ascii).1 member)
    exact absurd letter (by decide)

theorem offsets_delimiter_append (isBoundary : IsBoundary boundary) (rest : Bytes) :
    Text.offsets (delimiter boundary) (delimiter boundary ++ rest) =
      0 :: (Text.offsets (delimiter boundary) rest).map ((delimiter boundary).length + ·) := by
  obtain ⟨letters, split, nonempty, absent⟩ := exists_delimiter_eq isBoundary
  exact Text.offsets_append_self absent nonempty (by decide) split rest

/-- In a part the delimiter is only at the beginning. -/
theorem offsets_part_append (isBoundary : IsBoundary boundary)
    (absent : IsAbsent boundary types name) (free : ¬ boundary.utf8 <:+: value) (rest : Bytes) :
    Text.offsets (delimiter boundary) (delimiter boundary ++ chunk types name value ++ rest) =
      0 :: (Text.offsets (delimiter boundary) rest).map
        ((delimiter boundary ++ chunk types name value).length + ·) := by
  have within := not_infix_delimiter (not_infix_chunk isBoundary absent free)
  obtain ⟨front, ended⟩ := exists_chunk_eq_concat types name value
  rw [ended] at within ⊢
  have frontFree : ¬ delimiter boundary <:+: front := fun inside =>
    within (inside.trans (List.prefix_append _ _).isInfix)
  rw [List.append_assoc, offsets_delimiter_append isBoundary, ← List.append_cons,
    Text.offsets_append_cons (feed_not_mem_delimiter isBoundary) frontFree, List.map_map]
  refine congrArg (0 :: ·) (List.map_congr_left fun start _ => ?_)
  rw [Function.comp_apply, ← Nat.add_assoc, List.length_append, List.length_append,
    List.length_singleton]

private theorem isFramed_last (isBoundary : IsBoundary boundary) :
    IsFramed boundary 0 (delimiter boundary ++ tail) := by
  have free : ¬ delimiter boundary <:+: tail :=
    not_infix_delimiter (isBoundary.not_infix_utf8 (by simp [lineEnd]))
  have only := offsets_delimiter_append isBoundary tail
  rw [Text.offsets_eq_nil free, List.map_nil] at only
  constructor <;> rw [only]
  · rfl
  · exact List.forall_mem_singleton.2 (.inl rfl)
  · exact fun start member => absurd member List.not_mem_nil
  · rintro start ⟨⟩
    rfl

theorem IsFramed.part (framed : IsFramed boundary count rest) (isBoundary : IsBoundary boundary)
    (absent : IsAbsent boundary types name) (free : ¬ boundary.utf8 <:+: value) :
    IsFramed boundary (count + 1) (delimiter boundary ++ chunk types name value ++ rest) := by
  have shape := offsets_part_append isBoundary absent free rest
  have ended : (delimiter boundary ++ chunk types name value).getLast? = some 10 := by
    obtain ⟨front, ended⟩ := exists_chunk_eq_concat types name value
    rw [ended, ← List.append_assoc, List.getLast?_concat]
  have later : (Text.offsets (delimiter boundary) rest) ≠ [] := by
    rw [← List.length_pos_iff, framed.length]
    exact Nat.succ_pos count
  constructor <;> rw [shape]
  · rw [List.length_cons, List.length_map, framed.length]
  · intro start member
    rcases List.mem_cons.1 member with rfl | member
    · exact .inl rfl
    · obtain ⟨inner, listed, rfl⟩ := List.mem_map.1 member
      rw [List.take_length_add_append, List.getLast?_append, ended]
      rcases framed.lineStart inner listed with rfl | feed
      · exact .inr rfl
      · exact .inr (by rw [feed]; rfl)
  · intro start member
    rw [List.dropLast_cons_of_ne_nil (by simpa using later), ← List.map_dropLast] at member
    rcases List.mem_cons.1 member with rfl | member
    · rw [List.drop_zero, chunk]
      simp only [List.append_assoc, List.prefix_append_right_inj, List.prefix_append]
    · obtain ⟨inner, listed, rfl⟩ := List.mem_map.1 member
      rw [List.drop_length_add_append]
      exact framed.opening inner listed
  · intro start member
    have last := List.getLast?_eq_some_getLast later
    rw [List.getLast?_cons, List.getLast?_map, last] at member
    cases member
    rw [Option.map_some, Option.getD_some, List.drop_length_add_append]
    exact framed.closing _ last

private theorem body_nil (boundary : Text) (types : Types) :
    body boundary types [] = delimiter boundary ++ tail := by
  simp only [body, List.flatMap_nil, List.nil_append, delimiter, tail, Text.utf8_append,
    List.append_assoc]

private theorem body_cons (boundary : Text) (types : Types) (part : Text × Value) (parts : Parts) :
    body boundary types (part :: parts) =
      delimiter boundary ++ chunk types part.1 part.2.bytes ++ body boundary types parts := by
  simp only [body, List.flatMap_cons, partBytes_eq, List.append_assoc]

private theorem isFramed_body (isBoundary : IsBoundary boundary) {parts : Parts}
    (absent : ∀ part ∈ parts, IsAbsent boundary types part.1) (free : IsFree parts boundary) :
    IsFramed boundary parts.length (body boundary types parts) := by
  induction parts with
  | nil =>
    rw [body_nil]
    exact isFramed_last isBoundary
  | cons part parts ih =>
    rw [List.forall_mem_cons] at absent
    obtain ⟨here, onward⟩ := List.forall_mem_cons.1 free
    rw [body_cons]
    exact (ih absent.2 onward).part isBoundary absent.1 here

end

/-- The boundary of a form is the first one drawn that is in none of the values. Where the texts
in the heads of the parts do not have it either, the delimiters are those that were written, in
front of each part and behind the last. -/
theorem encode?_isFramed {parts : Parts} {types : Types} {draws rest : Draws} {encoded : Encoded}
    (encoding : encode? parts types draws = some (encoded, rest)) :
    IsBoundary encoded.boundary ∧ IsFirstFree parts draws encoded.boundary ∧
      ((∀ part ∈ parts, IsAbsent encoded.boundary types part.1) →
        IsFramed encoded.boundary parts.length encoded.body) := by
  obtain ⟨⟨boundary, left⟩, drawn, joined⟩ := Option.map_eq_some_iff.1 encoding
  obtain ⟨rfl, rfl⟩ := Prod.mk.inj joined
  obtain ⟨isBoundary, unused⟩ := boundary?_eq_some drawn
  exact ⟨isBoundary, isFirstFree_of_boundary? drawn, fun absent =>
    isFramed_body isBoundary absent (collides_eq_false_iff.1 unused)⟩

/-- The first boundary is in the value, on a line of its own and behind hyphens. -/
theorem encode?_isFramed_of_taken :
    ∃ encoded rest,
      encode? [("a".toList, .text "------SondaFormBoundaryAAAAAAAAAAAAAAAA\n".toList)] []
        (List.replicate 16 0 ++ List.replicate 16 0x4000000) = some (encoded, rest) ∧
      encoded.boundary = "----SondaFormBoundaryBBBBBBBBBBBBBBBB".toList ∧
      IsFramed encoded.boundary 1 encoded.body := by
  let parts : Parts := [("a".toList, .text "------SondaFormBoundaryAAAAAAAAAAAAAAAA\n".toList)]
  let boundary : Text := "----SondaFormBoundaryBBBBBBBBBBBBBBBB".toList
  have again : boundary? parts (List.replicate 16 0 ++ List.replicate 16 0x4000000) =
      boundary? parts (List.replicate 16 0x4000000) := by
    rw [boundary?]
    exact if_pos (by decide +kernel)
  have found : boundary? parts (List.replicate 16 0x4000000) = some (boundary, []) := by
    rw [boundary?]
    rfl
  have encoding : encode? parts [] (List.replicate 16 0 ++ List.replicate 16 0x4000000) =
      some (⟨boundary, body boundary [] parts⟩, []) := by
    rw [encode?, again, found]
    rfl
  obtain ⟨isBoundary, -, framed⟩ := encode?_isFramed encoding
  refine ⟨_, _, encoding, rfl, framed fun part listed => ?_⟩
  rw [List.mem_singleton.1 listed]
  refine ⟨isBoundary.not_infix_utf8 (by decide), fun file found => ?_, fun type found => ?_⟩
  · cases found
  · cases found

end WebClient.Multipart
