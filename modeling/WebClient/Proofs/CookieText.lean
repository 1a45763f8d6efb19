import WebClient.Cookie

/-!
# Reading cookies

What a `Set-Cookie` value has to look like to describe a cookie, and what is certain
of the name and the value that are read.
-/

set_option autoImplicit false

namespace WebClient.Cookie

theorem splitAttributes_fst (raw : Text) : (splitAttributes raw).1 = Text.before ';' raw := by
  unfold splitAttributes
  cases cut : Text.cutFirst? ';' raw with
  | none => exact (Text.before_eq_self (Text.cutFirst?_eq_none_iff.1 cut)).symm
  | some parts =>
    obtain ⟨whole, absent⟩ := Text.cutFirst?_eq_some cut
    rw [whole, Text.before_append_cons absent]
    rfl

def pathText? (raw : Text) : Option Text :=
  attribute? "path=".toList (splitAttributes (Text.trim raw)).2

def domainText? (raw : Text) : Option Text :=
  attribute? "domain=".toList (splitAttributes (Text.trim raw)).2

theorem parse?_eq_some_iff {raw : Text} {cookie : Cookie} :
    parse? raw = some cookie ↔
      ∃ name value,
        Text.cutFirst? '=' (Text.before ';' (Text.trim raw)) = some (name, value) ∧
        Text.trim name ≠ [] ∧
        cookie = {
          name := Text.trim name
          value := Text.trim value
          expires := (expiryText? raw).bind Expiry.parse?
          path := pathText? raw
          domain := domainText? raw
          isSecure := marksSecure (splitAttributes (Text.trim raw)).2 } := by
  simp only [parse?, pathText?, domainText?, ← splitAttributes_fst, Option.bind_eq_bind,
    Option.bind_eq_some_iff, Prod.exists]
  refine exists₂_congr fun name value => and_congr_right fun _ => ?_
  by_cases empty : Text.trim name = []
  · simp only [empty, List.isEmpty_nil, if_true, reduceCtorEq, ne_eq, not_true, false_and]
  · rw [if_neg (by simpa using empty), Option.some.injEq]
    exact ⟨fun made => ⟨empty, made.symm⟩, fun made => made.2.symm⟩

/-- A value names a cookie: something other than blanks stands before its first equals
sign, and no semicolon does. -/
def IsNamed (raw : Text) : Prop :=
  ∃ name rest, Text.trim raw = name ++ '=' :: rest ∧ '=' ∉ name ∧ ';' ∉ name ∧
    Text.trim name ≠ []

theorem isSome_parse?_iff {raw : Text} : (parse? raw).isSome = true ↔ IsNamed raw := by
  rw [Option.isSome_iff_exists]
  constructor
  · rintro ⟨cookie, parsed⟩
    obtain ⟨name, value, cut, nonempty, -⟩ := parse?_eq_some_iff.1 parsed
    obtain ⟨front, single⟩ := Text.cutFirst?_eq_some cut
    have uncut := Text.not_mem_before ';' (Text.trim raw)
    rw [front, List.mem_append, not_or] at uncut
    refine ⟨name, value ++ (Text.trim raw).dropWhile (· ≠ ';'), ?_, single, uncut.1, nonempty⟩
    rw [← List.cons_append, ← List.append_assoc, ← front, Text.before,
      List.takeWhile_append_dropWhile]
  · rintro ⟨name, rest, written, single, uncut, nonempty⟩
    have front : Text.before ';' (Text.trim raw) = name ++ '=' :: Text.before ';' rest := by
      rw [written, Text.before, List.takeWhile_append_of_pos]
      · rfl
      · intro c member
        exact decide_eq_true fun same => uncut (same ▸ member)
    have cut := Text.cutFirst?_append_cons single (Text.before ';' rest)
    rw [← front] at cut
    exact ⟨_, parse?_eq_some_iff.2 ⟨name, _, cut, nonempty, rfl⟩⟩

/-- The name and the value of a cookie lack the marks that would end them when it is sent. -/
structure IsSeparable (cookie : Cookie) : Prop where
  single : '=' ∉ cookie.name
  name : ';' ∉ cookie.name
  value : ';' ∉ cookie.value

theorem isSeparable_of_parse? {raw : Text} {cookie : Cookie}
    (parsed : parse? raw = some cookie) : cookie.IsSeparable := by
  obtain ⟨name, value, cut, -, rfl⟩ := parse?_eq_some_iff.1 parsed
  obtain ⟨front, single⟩ := Text.cutFirst?_eq_some cut
  have uncut := Text.not_mem_before ';' (Text.trim raw)
  rw [front, List.mem_append, List.mem_cons, not_or, not_or] at uncut
  obtain ⟨before, -, behind⟩ := uncut
  exact ⟨fun inside => single ((Text.infix_trim name).subset inside),
    fun inside => before ((Text.infix_trim name).subset inside),
    fun inside => behind ((Text.infix_trim value).subset inside)⟩

end WebClient.Cookie
