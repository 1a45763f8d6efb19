import WebClient.Proofs.Runs
import WebClient.Proofs.Trimming
import WebClient.Target

/-!
# Cleaning a URL

A URL is trimmed and unescaped before anything else is made of it. What this leaves alone,
and how a text is cleaned whose front is clean already.
-/

set_option autoImplicit false

namespace WebClient

namespace Target

/-! ## Unescaping -/

def escape : Text := "&amp;".toList

theorem unescape_cons {c : Char} (plain : c ≠ '&') (rest : Text) :
    unescape (c :: rest) = c :: unescape rest := by
  rw [unescape]
  rintro more rfl
  contradiction

/-- An escape does not reach across a character that is only at its beginning, or not in it. -/
theorem unescape_append_cons {mark : Char} (absent : mark ∉ "amp;".toList) (front rest : Text) :
    unescape (front ++ mark :: rest) = unescape front ++ unescape (mark :: rest) := by
  fun_induction unescape front with
  | case1 front ih => exact congrArg ('&' :: ·) ih
  | case2 c front other ih =>
    rw [List.cons_append, unescape, ih, List.cons_append]
    rintro more rfl same
    have begins : "amp;".toList <+: front ++ mark :: rest := ⟨more, by simp [same]⟩
    obtain ⟨last, rfl⟩ := Text.prefix_append_cons absent begins
    exact other last rfl rfl
  | case3 => rfl

theorem unescape_of_not_infix {text : Text} (free : ¬ escape <:+: text) : unescape text = text := by
  fun_induction unescape text with
  | case1 rest ih => exact absurd ⟨[], rest, rfl⟩ free
  | case2 c rest other ih => rw [ih fun inside => free (List.infix_cons inside)]
  | case3 => rfl

theorem unescape_of_not_mem {text : Text} (free : ';' ∉ text) : unescape text = text :=
  unescape_of_not_infix fun inside => free (inside.subset (by simp [escape]))

theorem length_unescape_le (text : Text) : (unescape text).length ≤ text.length := by
  fun_induction unescape text with
  | case1 rest ih =>
    simp only [List.length_cons]
    omega
  | case2 c rest other ih => exact Nat.succ_le_succ ih
  | case3 => exact Nat.le_refl _

/-- An escape is shortened. -/
theorem not_infix_of_length_unescape {text : Text} (long : text.length ≤ (unescape text).length) :
    ¬ escape <:+: text := by
  rintro ⟨front, rest, rfl⟩
  have across : unescape (front ++ escape ++ rest) = unescape front ++ '&' :: unescape rest := by
    rw [List.append_assoc]
    exact unescape_append_cons (by decide) front _
  have before := length_unescape_le front
  have after := length_unescape_le rest
  rw [across] at long
  simp [escape] at long
  omega

theorem unescape_eq_self_iff {text : Text} : unescape text = text ↔ ¬ escape <:+: text :=
  ⟨fun same => not_infix_of_length_unescape (congrArg List.length same).ge, unescape_of_not_infix⟩

theorem mem_unescape_iff {mark : Char} (absent : mark ∉ "amp;".toList) {text : Text} :
    mark ∈ unescape text ↔ mark ∈ text := by
  have elsewhere : mark ≠ 'a' ∧ mark ≠ 'm' ∧ mark ≠ 'p' ∧ mark ≠ ';' := by simpa using absent
  fun_induction unescape text with
  | case1 rest ih => simp [elsewhere, ih]
  | case2 c rest other ih =>
    rw [List.mem_cons, List.mem_cons]
    exact or_congr_right ih
  | case3 => rfl

theorem subset_unescape (text : Text) : unescape text ⊆ text := by
  fun_induction unescape text with
  | case1 rest ih =>
    intro c member
    rcases List.mem_cons.1 member with rfl | later
    · exact .head _
    · exact List.mem_append_right escape (ih later)
  | case2 c rest other ih => exact List.cons_subset_cons c ih
  | case3 => exact fun _ member => member

theorem unescape_ne_nil {text : Text} (nonempty : text ≠ []) : unescape text ≠ [] := by
  fun_cases unescape text with
  | case1 rest => exact List.cons_ne_nil _ _
  | case2 c rest other => exact List.cons_ne_nil _ _
  | case3 => contradiction

theorem isEnded_unescape {text : Text} (ended : text.IsEnded) : (unescape text).IsEnded := by
  fun_induction unescape text with
  | case1 rest ih =>
    have later : Text.IsEnded rest := Text.IsEnded.of_append escape ended
    exact Text.isEnded_cons (fun _ => by decide) (ih later)
  | case2 c rest other ih =>
    refine Text.isEnded_cons (fun empty => ?_) (ih (Text.IsEnded.of_append [c] ended))
    by_cases nonempty : rest = []
    · subst nonempty
      exact ended c rfl
    · exact absurd empty (unescape_ne_nil nonempty)
  | case3 => exact ended

end Target

end WebClient
