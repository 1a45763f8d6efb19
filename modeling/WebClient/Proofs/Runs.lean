import Mathlib.Data.List.Infix
import WebClient.Text.Cut

/-!
# Runs within a list

A cut at a run is one at its first occurrence, and a split one at each. Where a run
cannot occur is told by marks, elements that the run does not have: it lies on one side
of each of them. The offsets of a run are all of its occurrences, those that overlap too.
-/

set_option autoImplicit false

namespace WebClient.Text

variable {α : Type} {run front left right rest whole before after : List α} {mark : α}

/-! ## Where a run may lie -/

theorem prefix_append_cons (absent : mark ∉ run) (begins : run <+: left ++ mark :: right) :
    run <+: left := by
  induction left generalizing run with
  | nil =>
    cases run with
    | nil => exact List.nil_prefix
    | cons first run =>
      obtain ⟨rfl, -⟩ := List.cons_prefix_cons.1 begins
      simp at absent
  | cons element left ih =>
    cases run with
    | nil => exact List.nil_prefix
    | cons first run =>
      obtain ⟨rfl, more⟩ := List.cons_prefix_cons.1 begins
      exact List.cons_prefix_cons.2 ⟨rfl, ih (fun member => absent (.tail _ member)) more⟩

theorem infix_append_cons (absent : mark ∉ run) (inside : run <:+: left ++ mark :: right) :
    run <:+: left ∨ run <:+: right := by
  induction left with
  | nil =>
    rcases List.infix_cons_iff.1 inside with begins | within
    · have begins : run <+: [] ++ mark :: right := begins
      exact .inl (prefix_append_cons absent begins).isInfix
    · exact .inr within
  | cons element left ih =>
    rcases List.infix_cons_iff.1 inside with begins | within
    · have begins : run <+: (element :: left) ++ mark :: right := begins
      exact .inl (prefix_append_cons absent begins).isInfix
    · exact (ih within).imp_left List.infix_cons

theorem not_infix_append_cons (absent : mark ∉ run) (leftFree : ¬ run <:+: left)
    (rightFree : ¬ run <:+: right) : ¬ run <:+: left ++ mark :: right := by
  intro inside
  rcases infix_append_cons absent inside with within | within
  · exact leftFree within
  · exact rightFree within

/-- Two lists that have a mark are the same up to it. -/
theorem append_cons_inj {other last : List α} (absent : mark ∉ front) (unmarked : mark ∉ other)
    (same : front ++ mark :: rest = other ++ mark :: last) : front = other ∧ rest = last := by
  induction front generalizing other with
  | nil =>
    cases other with
    | nil => exact ⟨rfl, (List.cons.inj same).2⟩
    | cons first other =>
      obtain ⟨rfl, -⟩ := List.cons.inj same
      simp at unmarked
  | cons element front ih =>
    cases other with
    | nil =>
      obtain ⟨rfl, -⟩ := List.cons.inj same
      simp at absent
    | cons first other =>
      obtain ⟨rfl, more⟩ := List.cons.inj same
      obtain ⟨rfl, rfl⟩ := ih (fun member => absent (.tail _ member))
        (fun member => unmarked (.tail _ member)) more
      exact ⟨rfl, rfl⟩

/-- A run that is whole only with the mark behind it ends at the first mark, or comes later. -/
theorem suffix_or_infix_of_infix (single : mark ∉ front) (absent : mark ∉ run)
    (inside : run ++ [mark] <:+: front ++ mark :: rest) :
    run <:+ front ∨ run ++ [mark] <:+: rest := by
  obtain ⟨before, after, whole⟩ := inside
  by_cases marked : mark ∈ before
  · obtain ⟨first, second, rfl, unmarked⟩ := List.eq_append_cons_of_mem marked
    have same : front ++ mark :: rest = first ++ mark :: (second ++ (run ++ [mark]) ++ after) := by
      rw [← whole]
      simp
    obtain ⟨-, rfl⟩ := append_cons_inj single unmarked same
    exact .inr ⟨second, after, rfl⟩
  · have unmarked : mark ∉ before ++ run := by
      rw [List.mem_append, not_or]
      exact ⟨marked, absent⟩
    have same : front ++ mark :: rest = (before ++ run) ++ mark :: after := by
      rw [← whole]
      simp
    exact .inl ⟨before, (append_cons_inj single unmarked same).1.symm⟩

/-! ## Cutting -/

variable [BEq α] [LawfulBEq α]

theorem cutRun?_eq_some (cut : cutRun? run whole = some (before, after)) :
    whole = before ++ run ++ after := by
  induction whole generalizing before after with
  | nil =>
    simp only [cutRun?] at cut
    split at cut
    · rename_i empty
      cases cut
      simp [List.isEmpty_iff.1 empty]
    · cases cut
  | cons first whole ih =>
    simp only [cutRun?] at cut
    split at cut
    · rename_i rest begins
      cases cut
      exact (List.isPrefixOf?_eq_some_iff_append_eq.1 begins).symm
    · simp only [Option.map_eq_some_iff] at cut
      obtain ⟨⟨inner, last⟩, found, joined⟩ := cut
      obtain ⟨rfl, rfl⟩ := Prod.mk.inj joined
      rw [ih found]
      rfl

/-- A cut at a run that begins nowhere earlier. -/
theorem cutRun?_append (nonempty : run ≠ []) (before after : List α)
    (first : ∀ front back, before = front ++ back → back ≠ [] → ¬ run <+: back ++ run ++ after) :
    cutRun? run (before ++ run ++ after) = some (before, after) := by
  induction before with
  | nil =>
    obtain ⟨element, run, rfl⟩ := List.exists_cons_of_ne_nil nonempty
    have begins : (element :: run).isPrefixOf? (element :: run ++ after) = some after :=
      List.isPrefixOf?_eq_some_iff_append_eq.2 rfl
    simp only [List.nil_append, List.cons_append, cutRun?] at begins ⊢
    rw [begins]
  | cons element before ih =>
    have elsewhere : run.isPrefixOf? (element :: (before ++ run ++ after)) = none := by
      rw [Option.eq_none_iff_forall_not_mem]
      intro rest begins
      have prefixed := List.isPrefixOf?_eq_some_iff_append_eq.1 begins
      exact first [] (element :: before) rfl (by simp) ⟨rest, by simpa using prefixed⟩
    have later := ih fun front back split nonempty =>
      first (element :: front) back (by rw [split, List.cons_append]) nonempty
    simp only [List.cons_append, cutRun?, elsewhere, later]
    rfl

theorem cutRun?_eq_none_iff : cutRun? run whole = none ↔ ¬ run <:+: whole := by
  induction whole with
  | nil =>
    cases run <;> simp [cutRun?]
  | cons first whole ih =>
    rw [List.infix_cons_iff, not_or, ← ih]
    cases begins : run.isPrefixOf? (first :: whole) with
    | some rest =>
      have prefixed : run <+: first :: whole :=
        ⟨rest, List.isPrefixOf?_eq_some_iff_append_eq.1 begins⟩
      simp [cutRun?, begins, prefixed]
    | none =>
      have elsewhere : ¬ run <+: first :: whole := by
        rintro ⟨rest, joined⟩
        rw [List.isPrefixOf?_eq_some_iff_append_eq.2 joined] at begins
        cases begins
      simp [cutRun?, begins, elsewhere]

theorem occurs_iff : occurs run whole = true ↔ run <:+: whole := by
  rw [occurs, ← Option.ne_none_iff_isSome, ne_eq, cutRun?_eq_none_iff, Classical.not_not]

/-- A cut at a run that is not in what comes before it, where a mark keeps it from
reaching into the run itself. -/
theorem cutRun?_append_concat (nonempty : run ≠ []) (absent : mark ∉ run)
    (free : ¬ run <:+: front ++ [mark]) (after : List α) :
    cutRun? run (front ++ [mark] ++ run ++ after) = some (front ++ [mark], after) := by
  refine cutRun?_append nonempty _ _ fun earlier back split occupied begins => ?_
  rcases List.eq_nil_or_concat back with rfl | ⟨inner, last, rfl⟩
  · exact occupied rfl
  · rw [List.concat_eq_append, ← List.append_assoc] at split
    obtain ⟨rfl, same⟩ := List.append_inj' split rfl
    cases same
    have within : run <+: inner ++ mark :: (run ++ after) := by simpa using begins
    refine free ((prefix_append_cons absent within).isInfix.trans ?_)
    exact ⟨earlier, [mark], rfl⟩

/-- A run that is whole only with its last element is first where that is first. -/
theorem cutRun?_concat_append (free : mark ∉ front) (absent : mark ∉ run) (after : List α) :
    cutRun? (run ++ [mark]) (front ++ (run ++ [mark]) ++ after) = some (front, after) := by
  refine cutRun?_append (by simp) _ _ fun earlier back split occupied begins => ?_
  obtain ⟨rest, joined⟩ := begins
  have unmarked : mark ∉ back ++ run := by
    rw [split] at free
    simp only [List.mem_append, not_or] at free ⊢
    exact ⟨free.2, absent⟩
  have same : run ++ mark :: rest = (back ++ run) ++ mark :: after := by simpa using joined
  exact occupied (List.self_eq_append_left.1 (append_cons_inj absent unmarked same).1)

/-- A cut after elements of which none begins the run. -/
theorem cutRun?_cons_append (absent : mark ∉ front) (rest : List α) :
    cutRun? (mark :: run) (front ++ rest) =
      (cutRun? (mark :: run) rest).map fun (before, after) => (front ++ before, after) := by
  induction front with
  | nil => simp
  | cons element front ih =>
    simp only [List.mem_cons, not_or] at absent
    simp [cutRun?, List.isPrefixOf?, absent.1, ih absent.2, Function.comp_def]

theorem cutRun?_append_of_absent (absent : mark ∉ front) (after : List α) :
    cutRun? (mark :: run) (front ++ (mark :: run) ++ after) = some (front, after) := by
  have atOnce := cutRun?_append (List.cons_ne_nil mark run) [] after (by simp)
  rw [List.nil_append] at atOnce
  rw [List.append_assoc, cutRun?_cons_append absent, atOnce]
  simp

/-! ## Splitting -/

/-- What lies between the occurrences of a run, from the left. -/
def splitRun {β : Type} [BEq β] [LawfulBEq β] (run whole : List β) : List (List β) :=
  if _empty : run = [] then [whole]
  else match _cut : cutRun? run whole with
    | none => [whole]
    | some (before, after) => before :: splitRun run after
termination_by whole.length
decreasing_by
  have joined := cutRun?_eq_some _cut
  have occupied := List.length_pos_iff.2 _empty
  simp only [joined, List.length_append]
  omega

theorem splitRun_of_none (cut : cutRun? run whole = none) : splitRun run whole = [whole] := by
  rw [splitRun]
  split
  · rfl
  · split <;> simp_all

theorem splitRun_of_some (nonempty : run ≠ []) (cut : cutRun? run whole = some (before, after)) :
    splitRun run whole = before :: splitRun run after := by
  rw [splitRun]
  split
  · contradiction
  · split <;> simp_all

section

variable {β : Type} [BEq β] [LawfulBEq β] {f : α → β} (injective : Function.Injective f)

include injective

private theorem isPrefixOf?_map (run whole : List α) :
    (run.map f).isPrefixOf? (whole.map f) = (run.isPrefixOf? whole).map (List.map f) := by
  induction run generalizing whole with
  | nil => rfl
  | cons first run ih =>
    cases whole with
    | nil => rfl
    | cons second whole =>
      by_cases same : first = second
      · simp [List.isPrefixOf?, same, ih]
      · simp [List.isPrefixOf?, same, injective.ne same]

/-- Renaming the elements one by one changes nothing about where a run is. -/
theorem cutRun?_map (run whole : List α) :
    cutRun? (run.map f) (whole.map f) =
      (cutRun? run whole).map (Prod.map (List.map f) (List.map f)) := by
  induction whole with
  | nil => cases run <;> rfl
  | cons first whole ih =>
    have begins := isPrefixOf?_map injective run (first :: whole)
    rw [List.map_cons] at begins ⊢
    rw [cutRun?, cutRun?, begins, ih]
    cases run.isPrefixOf? (first :: whole) with
    | some after => rfl
    | none => cases cutRun? run whole <;> rfl

theorem splitRun_map (run whole : List α) :
    splitRun (run.map f) (whole.map f) = (splitRun run whole).map (List.map f) := by
  induction whole using splitRun.induct run with
  | case1 whole empty =>
    have unnamed : run.map f = [] := List.map_eq_nil_iff.2 empty
    rw [splitRun, dif_pos unnamed, splitRun, dif_pos empty]
    rfl
  | case2 whole nonempty cut =>
    have uncut := cutRun?_map injective run whole
    rw [cut] at uncut
    rw [splitRun_of_none cut, splitRun_of_none uncut]
    rfl
  | case3 whole nonempty before after cut ih =>
    have renamed := cutRun?_map injective run whole
    rw [cut] at renamed
    have occupied : run.map f ≠ [] := mt List.map_eq_nil_iff.1 nonempty
    rw [splitRun_of_some nonempty cut, splitRun_of_some occupied renamed, ih]
    rfl

end

/-- Pieces joined by a run are found again where each cut is at the end of a piece. -/
theorem splitRun_joined (nonempty : run ≠ []) {pieces : List (List α)}
    (exact : ∀ piece ∈ front :: pieces, ∀ rest,
      cutRun? run (piece ++ run ++ rest) = some (piece, rest))
    (free : ¬ run <:+: whole) :
    splitRun run (front ++ (pieces.flatMap (run ++ ·)) ++ run ++ whole) =
      front :: pieces ++ [whole] := by
  induction pieces generalizing front with
  | nil =>
    have cut := exact front (.head _) whole
    rw [List.flatMap_nil, List.append_nil, splitRun_of_some nonempty cut,
      splitRun_of_none (cutRun?_eq_none_iff.2 free)]
    rfl
  | cons piece pieces ih =>
    have joined : front ++ (piece :: pieces).flatMap (run ++ ·) ++ run ++ whole =
        front ++ run ++ (piece ++ pieces.flatMap (run ++ ·) ++ run ++ whole) := by
      simp only [List.flatMap_cons, List.append_assoc]
    have cut := exact front (.head _) (piece ++ pieces.flatMap (run ++ ·) ++ run ++ whole)
    rw [joined, splitRun_of_some nonempty cut,
      ih fun other member => exact other (.tail _ member)]
    rfl

/-- Pieces that lack the first element of a separator are found again behind it. -/
theorem splitRun_intercalate {pieces : List (List α)} (nonempty : pieces ≠ [])
    (free : ∀ piece ∈ pieces, mark ∉ piece) :
    splitRun (mark :: run) (List.intercalate (mark :: run) pieces) = pieces := by
  induction pieces with
  | nil => contradiction
  | cons piece pieces ih =>
    rw [List.forall_mem_cons] at free
    obtain ⟨here, onward⟩ := free
    cases pieces with
    | nil =>
      have absent : ¬ mark :: run <:+: piece := fun inside => here (inside.subset (.head _))
      rw [List.intercalate_singleton, splitRun_of_none (cutRun?_eq_none_iff.2 absent)]
    | cons second pieces =>
      rw [List.intercalate_cons_cons, splitRun_of_some (List.cons_ne_nil mark run)
        (cutRun?_append_of_absent here _), ih (List.cons_ne_nil _ _) onward]

/-! ## Offsets -/

/-- Where the run occurs. -/
def offsets (run whole : List α) : List Nat :=
  (List.range (whole.length + 1)).filter fun start => run.isPrefixOf (whole.drop start)

theorem offsets_eq_nil (free : ¬ run <:+: whole) : offsets run whole = [] :=
  List.filter_eq_nil_iff.2 fun _ _ begins => free <|
    (List.isPrefixOf_iff_prefix.1 begins).isInfix.trans (List.drop_suffix _ _).isInfix

omit [LawfulBEq α] in
theorem offsets_append (run front rest : List α) : offsets run (front ++ rest) =
    ((List.range front.length).filter fun start => run.isPrefixOf ((front ++ rest).drop start)) ++
      (offsets run rest).map (front.length + ·) := by
  have shifted : ((fun start => run.isPrefixOf ((front ++ rest).drop start)) ∘
      (front.length + ·)) = fun start => run.isPrefixOf (rest.drop start) :=
    funext fun start => by rw [Function.comp_apply, List.drop_length_add_append]
  rw [offsets, List.length_append, Nat.add_assoc, List.range_add, List.filter_append,
    List.filter_map, shifted, offsets]

/-- A run that is not in the elements before a mark does not begin there. -/
theorem offsets_append_cons (absent : mark ∉ run) (free : ¬ run <:+: front) (rest : List α) :
    offsets run (front ++ mark :: rest) = (offsets run rest).map (front.length + 1 + ·) := by
  have none : ((List.range (front ++ [mark]).length).filter fun start =>
      run.isPrefixOf ((front ++ [mark] ++ rest).drop start)) = [] := by
    refine List.filter_eq_nil_iff.2 fun start below begins => ?_
    rw [List.mem_range, List.length_append, List.length_singleton, Nat.lt_succ_iff] at below
    rw [List.isPrefixOf_iff_prefix, List.append_assoc,
      List.drop_append_of_le_length below] at begins
    exact free ((prefix_append_cons absent begins).isInfix.trans (List.drop_suffix _ _).isInfix)
  rw [List.append_cons, offsets_append, none, List.nil_append, List.length_append,
    List.length_singleton]

section

variable {solid : List α} (absent : mark ∉ solid) (nonempty : solid ≠ [])

include absent nonempty

private theorem takeWhile_marks (count : Nat) (rest : List α) :
    (List.replicate count mark ++ (solid ++ rest)).takeWhile (· == mark) =
      List.replicate count mark := by
  obtain ⟨first, solid, rfl⟩ := List.exists_cons_of_ne_nil nonempty
  have other : ¬ (first == mark) = true := fun same => absent (eq_of_beq same ▸ .head _)
  rw [List.takeWhile_append_of_pos, List.cons_append,
    List.takeWhile_cons_of_neg (p := (· == mark)) other, List.append_nil]
  exact fun element member => beq_iff_eq.2 (List.eq_of_mem_replicate member)

/-- A run that begins with marks, and has no others, does not begin again before its end. -/
theorem not_prefix_drop {count start : Nat} (marked : count ≠ 0) (begun : start ≠ 0)
    (split : run = List.replicate count mark ++ solid) (below : start < run.length)
    (rest : List α) : ¬ run <+: (run ++ rest).drop start := by
  rintro ⟨back, whole⟩
  rw [split, List.append_assoc, List.append_assoc] at whole
  rw [split, List.length_append, List.length_replicate] at below
  -- A start among the marks leaves too few of them, and one behind them leaves none.
  by_cases within : start ≤ count
  · have shape : (List.replicate count mark ++ (solid ++ rest)).drop start =
        List.replicate (count - start) mark ++ (solid ++ rest) := by
      rw [List.drop_append_of_le_length (by rwa [List.length_replicate]), List.drop_replicate]
    have marks := congrArg (List.takeWhile (· == mark)) (whole.trans shape)
    rw [takeWhile_marks absent nonempty, takeWhile_marks absent nonempty] at marks
    have lengths := congrArg List.length marks
    rw [List.length_replicate, List.length_replicate] at lengths
    omega
  · obtain ⟨first, others, shape⟩ := List.exists_cons_of_length_pos
      (l := solid.drop (start - count)) (by rw [List.length_drop]; omega)
    obtain ⟨count, rfl⟩ := Nat.exists_eq_succ_of_ne_zero marked
    have outside : (List.replicate (count + 1) mark).length ≤ start := by
      rw [List.length_replicate]
      omega
    rw [List.drop_append, List.drop_eq_nil_of_le outside, List.length_replicate, List.nil_append,
      List.drop_append_of_le_length (by omega), shape, List.replicate_succ] at whole
    have kept : first ∈ solid.drop (start - (count + 1)) := shape ▸ .head others
    rw [← (List.cons.inj whole).1] at kept
    exact absent (List.mem_of_mem_drop kept)

theorem offsets_append_self {count : Nat} (marked : count ≠ 0)
    (split : run = List.replicate count mark ++ solid) (rest : List α) :
    offsets run (run ++ rest) = 0 :: (offsets run rest).map (run.length + ·) := by
  have occupied : run.length = run.length - 1 + 1 := by
    rw [split, List.length_append, List.length_replicate]
    omega
  have first : ((List.range run.length).filter fun start =>
      run.isPrefixOf ((run ++ rest).drop start)) = [0] := by
    rw [occupied, List.range_succ_eq_map, List.filter_cons_of_pos]
    · refine congrArg (0 :: ·) (List.filter_eq_nil_iff.2 fun start listed begins => ?_)
      obtain ⟨before, below, rfl⟩ := List.mem_map.1 listed
      rw [List.mem_range] at below
      exact not_prefix_drop absent nonempty marked (Nat.succ_ne_zero before) split (by omega) rest
        (List.isPrefixOf_iff_prefix.1 begins)
    · exact List.isPrefixOf_iff_prefix.2 (List.prefix_append run rest)
  rw [offsets_append, first, List.singleton_append]

end

end WebClient.Text
