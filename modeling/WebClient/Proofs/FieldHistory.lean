import Mathlib.Data.List.Induction
import WebClient.Proofs.FieldList

/-!
# Histories of header fields

The fields of a message are what the edits made to them have left. Each name has the values that
the edits of this name alone would give it, and stands where it was put when it last came; a
value continued on the way makes no difference but to itself.
-/

set_option autoImplicit false

namespace WebClient

inductive Amends {α : Type} (change : α → α → Prop) : List α → List α → Prop
  | same (list : List α) : Amends change list list
  | one (front back : List α) {old new : α} (changed : change old new) :
      Amends change (front ++ old :: back) (front ++ new :: back)

namespace Amends

variable {α : Type} {change : α → α → Prop} {left right : List α}

theorem head {old new : α} (changed : change old new) (rest : List α) :
    Amends change (old :: rest) (new :: rest) :=
  one [] rest changed

theorem cons (first : α) (amends : Amends change left right) :
    Amends change (first :: left) (first :: right) := by
  cases amends with
  | same => exact same _
  | one front back changed => exact one (first :: front) back changed

theorem concat (amends : Amends change left right) (last : α) :
    Amends change (left ++ [last]) (right ++ [last]) := by
  cases amends with
  | same => exact same _
  | one front back changed =>
    rw [List.append_assoc, List.append_assoc]
    exact one front (back ++ [last]) changed

private theorem map_eq {β : Type} {key : α → β}
    (keeps : ∀ old new, change old new → key new = key old)
    (amends : Amends change left right) : right.map key = left.map key := by
  cases amends with
  | same => rfl
  | one front back changed => simp [keeps _ _ changed]

/-- What is done to the last of both lists leaves the difference, if it leaves that of the
elements. -/
theorem mapLast {alteration : α → α}
    (keeps : ∀ old new, change old new → change (alteration old) (alteration new))
    (amends : Amends change left right) :
    Amends change (Fields.mapLast alteration left) (Fields.mapLast alteration right) := by
  cases amends with
  | same => exact same _
  | one front back changed =>
    rcases List.eq_nil_or_concat back with rfl | ⟨back, last, rfl⟩
    · rw [Fields.mapLast_concat, Fields.mapLast_concat]
      exact one front [] (keeps _ _ changed)
    · have split : ∀ middle, front ++ middle :: back.concat last =
          (front ++ middle :: back) ++ [last] := by
        intro middle
        simp
      rw [split, split, Fields.mapLast_concat, Fields.mapLast_concat]
      exact (one front back changed).concat _

private theorem of_mapLast {alteration : α → α} (changes : ∀ old, change old (alteration old))
    (list : List α) : Amends change list (Fields.mapLast alteration list) := by
  rcases List.eq_nil_or_concat list with rfl | ⟨front, last, rfl⟩
  · exact same []
  · rw [List.concat_eq_append, Fields.mapLast_concat]
    exact one front [] (changes last)

end Amends

def Field.Amended (field other : Field) : Prop :=
  other.name = field.name ∧ Amends (fun _ _ => True) field.values other.values

theorem Field.Amended.isNamed_eq {field other : Field} (amended : field.Amended other)
    (name : Text) : other.isNamed name = field.isNamed name := by
  rw [isNamed, isNamed, amended.1]

namespace Fields

/-! ## Edits -/

inductive Edit
  | append (name value : Text)
  | insert (name value : Text)
  | erase (name : Text)
  | extend (more : Text)
  deriving DecidableEq

namespace Edit

def brought : Edit → Option Text
  | append name _ | insert name _ => some name
  | erase _ | extend _ => none

def brings (name : Text) (edit : Edit) : Bool :=
  edit.brought.any fun other => Text.sameFolded other name

def erases (name : Text) : Edit → Bool
  | erase other => Text.sameFolded other name
  | append _ _ | insert _ _ | extend _ => false

def revise (values : List Text) : Edit → List Text
  | append _ value => values ++ [value]
  | insert _ value => [value]
  | erase _ => []
  | extend _ => values

theorem erases_of_brought {edit : Edit} {name : Text} (brought : edit.brought = some name)
    (other : Text) : edit.erases other = false := by
  cases edit with
  | append | insert | extend => rfl
  | erase => cases brought

private theorem erases_congr (edit : Edit) {name other : Text}
    (same : Text.lower other = Text.lower name) : edit.erases other = edit.erases name := by
  cases edit with
  | append | insert | extend => rfl
  | erase gone => rw [erases, erases, Text.sameFolded, Text.sameFolded, same]

end Edit

def apply (fields : Fields) : Edit → Fields
  | .append name value => fields.append name value
  | .insert name value => fields.insert name value
  | .erase name => fields.erase name
  | .extend more => fields.extendLast more

def after (edits : List Edit) : Fields :=
  edits.foldl apply []

def replay (name : Text) (edits : List Edit) : List Text :=
  (edits.filter fun edit => edit.brings name || edit.erases name).foldl Edit.revise []

/-- The edit at that place put the name there, and it has not been erased since: no earlier edit
that brought the name has lasted. -/
def Since (edits : List Edit) (name : Text) (place : Nat) : Prop :=
  ∃ before edit later, edits = before ++ edit :: later ∧ before.length = place ∧
    edit.brought = some name ∧ (∀ other ∈ later, other.erases name = false) ∧
    ∀ front other back, before = front ++ other :: back → other.brings name = true →
      ∃ gone ∈ back, gone.erases name = true

variable {fields others : Fields} {name : Text} {edits : List Edit} {edit : Edit}

theorem after_concat (edits : List Edit) (edit : Edit) :
    after (edits ++ [edit]) = (after edits).apply edit := by
  simp [after]

theorem after_induction (property : Fields → Prop) (empty : property [])
    (step : ∀ {fields}, property fields → ∀ edit, property (fields.apply edit))
    (edits : List Edit) : property (after edits) := by
  induction edits using List.reverseRecOn with
  | nil => exact empty
  | append_singleton edits edit ih =>
    rw [after_concat]
    exact step ih edit

/-! ## Names -/

private theorem names_extendLast (fields : Fields) (more : Text) :
    (fields.extendLast more).names = fields.names := by
  rw [extendLast]
  cases extended : fields.extendLast? more with
  | none => rfl
  | some continued => exact names_extendLast? extended

def Distinct (fields : Fields) : Prop :=
  (fields.names.map Text.lower).Nodup

theorem distinct_cons_iff {field : Field} {rest : Fields} :
    Distinct (field :: rest) ↔
      (∀ other ∈ names rest, Text.sameFolded other field.name = false) ∧ Distinct rest := by
  simp [Distinct, names, Text.sameFolded]

theorem erase_cons_of_named {field : Field} (named : field.isNamed name = true) (rest : Fields) :
    erase (field :: rest) name = rest :=
  List.eraseP_cons_of_pos named

theorem erase_cons_of_not_named {field : Field} (apart : field.isNamed name = false)
    (rest : Fields) : erase (field :: rest) name = field :: erase rest name :=
  List.eraseP_cons_of_neg (by simp [apart])

private theorem names_erase (distinct : fields.Distinct) (name : Text) :
    (fields.erase name).names = fields.names.filter fun other => !Text.sameFolded name other := by
  induction fields with
  | nil => rfl
  | cons field rest ih =>
    obtain ⟨fresh, others⟩ := distinct_cons_iff.1 distinct
    have own : Text.sameFolded name field.name = field.isNamed name := Text.sameFolded_comm _ _
    cases named : field.isNamed name with
    | true =>
      -- Only the first field of the name is taken out, but there is no other.
      have apart : ∀ other ∈ names rest, (!Text.sameFolded name other) = true := by
        intro other member
        have folded := fresh other member
        rw [Text.sameFolded, Field.isNamed_iff.1 named] at folded
        rw [Text.sameFolded_comm, Text.sameFolded, folded]
        rfl
      rw [erase_cons_of_named named, ← List.filter_eq_self.2 apart, names, names, List.map_cons,
        List.filter_cons_of_neg (by simp [own, named])]
    | false =>
      rw [erase_cons_of_not_named named, names, names, List.map_cons, List.map_cons,
        List.filter_cons_of_pos (by simp [own, named])]
      exact congrArg (field.name :: ·) (ih others)

/-- What an edit does to the names: one that a value is brought to comes last if it is not there,
and one that is erased goes. -/
inductive NamesStep (fields : Fields) (edit : Edit) (names : List Text) : Prop
  | adds (name : Text) (brought : edit.brought = some name)
      (absent : fields.contains name = false) (added : names = fields.names ++ [name])
  | keeps (present : ∀ name, edit.brought = some name → fields.contains name = true)
      (kept : names = fields.names.filter fun name => !edit.erases name)

private theorem namesStep_alter (brought : edit.brought = some name)
    (change : List Text → List Text)
    (fresh : List Text) : NamesStep fields edit (alter name change fresh fields).names := by
  rw [names_alter]
  cases present : fields.contains name with
  | false => exact .adds name brought present (by simp)
  | true =>
    refine .keeps ?_ ?_
    · intro other same
      rw [brought] at same
      cases same
      exact present
    · rw [if_pos rfl, List.filter_eq_self.2]
      intro other _
      rw [Edit.erases_of_brought brought]
      rfl

theorem names_apply (distinct : fields.Distinct) (edit : Edit) :
    NamesStep fields edit (fields.apply edit).names := by
  cases edit with
  | append name value => exact namesStep_alter rfl _ _
  | insert name value => exact namesStep_alter rfl _ _
  | erase name => exact .keeps (by simp [Edit.brought]) (names_erase distinct name)
  | extend more =>
    refine .keeps (by simp [Edit.brought]) ?_
    exact (names_extendLast fields more).trans (List.filter_eq_self.2 fun _ _ => rfl).symm

private theorem distinct_apply (distinct : fields.Distinct) (edit : Edit) :
    (fields.apply edit).Distinct := by
  cases names_apply distinct edit with
  | adds name brought absent added =>
    rw [Distinct, added, List.map_append, List.nodup_append]
    refine ⟨distinct, by simp, ?_⟩
    rintro folded listed other member rfl
    obtain ⟨earlier, present, rfl⟩ := List.mem_map.1 listed
    have same : Text.lower earlier = Text.lower name := by simpa using member
    rw [contains_iff.2 ⟨earlier, present, same⟩] at absent
    cases absent
  | keeps present kept =>
    rw [Distinct, kept]
    exact distinct.sublist (List.filter_sublist.map Text.lower)

theorem distinct_after (edits : List Edit) : (after edits).Distinct :=
  after_induction Distinct List.nodup_nil distinct_apply edits

/-! ## Values -/

def Filled (fields : Fields) : Prop :=
  ∀ field ∈ fields, field.values ≠ []

private theorem filled_alter {change : List Text → List Text} {fresh : List Text}
    (changed : ∀ values, change values ≠ []) (begun : fresh ≠ []) (filled : fields.Filled)
    (name : Text) : Filled (alter name change fresh fields) := by
  induction fields with
  | nil => simpa [Filled, alter] using begun
  | cons field rest ih =>
    rw [Filled, List.forall_mem_cons] at filled
    cases named : field.isNamed name with
    | true =>
      rw [alter_cons_of_named named]
      exact List.forall_mem_cons.2 ⟨changed _, filled.2⟩
    | false =>
      rw [alter_cons_of_not_named named]
      exact List.forall_mem_cons.2 ⟨filled.1, ih filled.2⟩

private theorem filled_extendLast (filled : fields.Filled) (more : Text) :
    (fields.extendLast more).Filled := by
  rcases List.eq_nil_or_concat fields with rfl | ⟨front, last, rfl⟩
  · exact filled
  · rw [List.concat_eq_append] at filled ⊢
    rw [extendLast_of_some (extendLast?_concat front last more)]
    rw [Filled, List.forall_mem_append, List.forall_mem_singleton] at filled ⊢
    refine ⟨filled.1, ?_⟩
    obtain ⟨values, value, split⟩ := List.eq_nil_or_concat last.values |>.resolve_left filled.2
    simp [split, mapLast_concat]

private theorem filled_apply (filled : fields.Filled) (edit : Edit) :
    (fields.apply edit).Filled := by
  cases edit with
  | append name value => exact filled_alter (by simp) (by simp) filled name
  | insert name value => exact filled_alter (by simp) (by simp) filled name
  | erase name => exact fun field member => filled field (List.mem_of_mem_eraseP member)
  | extend more => exact filled_extendLast filled more

private theorem filled_after (edits : List Edit) : (after edits).Filled :=
  after_induction Filled (by simp [Filled]) filled_apply edits

private theorem contains_eq_of_filled (filled : fields.Filled) (name : Text) :
    fields.contains name = !(fields.getAll name).isEmpty := by
  cases found : fields.find? name with
  | none => simp [contains, getAll, found]
  | some field =>
    have nonempty := filled field (List.mem_of_find?_eq_some found)
    simp [contains, getAll, found, nonempty]

private theorem getAll_eq_nil_of_fresh
    (fresh : ∀ other ∈ fields.names, Text.sameFolded other name = false) :
    fields.getAll name = [] := by
  have absent : fields.find? name = none := by
    rw [find?, List.find?_eq_none]
    intro field member
    rw [Field.isNamed, fresh _ (List.mem_map_of_mem member)]
    decide
  rw [getAll, absent]
  rfl

private theorem getAll_erase (distinct : fields.Distinct) (name other : Text) :
    (fields.erase name).getAll other =
      if Text.sameFolded name other then [] else fields.getAll other := by
  induction fields with
  | nil => simp [erase, getAll, find?]
  | cons field rest ih =>
    obtain ⟨fresh, others⟩ := distinct_cons_iff.1 distinct
    cases named : field.isNamed name with
    | true =>
      have folded := Field.isNamed_iff.1 named
      rw [erase_cons_of_named named, getAll_cons]
      cases same : Text.sameFolded name other with
      | true =>
        have alike : Text.lower name = Text.lower other := by simpa [Text.sameFolded] using same
        refine getAll_eq_nil_of_fresh fun earlier member => ?_
        rw [← fresh earlier member, Text.sameFolded, Text.sameFolded, folded, alike]
      | false =>
        have apart : field.isNamed other = false := by
          rw [Field.isNamed, Text.sameFolded, folded]
          exact same
        simp [apart]
    | false =>
      rw [erase_cons_of_not_named named, getAll_cons, getAll_cons, ih others]
      cases same : field.isNamed other with
      | true =>
        have apart : Text.sameFolded name other = false := by
          rw [← Bool.not_eq_true, Field.isNamed_iff] at named
          rw [Field.isNamed_iff] at same
          rw [Text.sameFolded, beq_eq_false_iff_ne]
          exact fun folded => named (same.trans folded.symm)
        simp [apart]
      | false => simp

/-- An edit other than of the last value revises the values of its own name. -/
theorem getAll_apply (distinct : fields.Distinct) (plain : ∀ more, edit ≠ .extend more)
    (name : Text) :
    (fields.apply edit).getAll name =
      if edit.brings name || edit.erases name then edit.revise (fields.getAll name)
      else fields.getAll name := by
  cases edit with
  | append other value =>
    simpa [apply, Edit.brings, Edit.brought, Edit.erases, Edit.revise, Text.sameFolded] using
      getAll_append fields other value name
  | insert other value =>
    simpa [apply, insert, Edit.brings, Edit.brought, Edit.erases, Edit.revise, Text.sameFolded]
      using getAll_alter fields other (fun _ => [value]) name
  | erase other =>
    simpa [apply, Edit.brings, Edit.brought, Edit.erases, Edit.revise] using
      getAll_erase distinct other name
  | extend more => exact absurd rfl (plain more)

private theorem replay_concat (name : Text) (edits : List Edit) (edit : Edit) :
    replay name (edits ++ [edit]) =
      if edit.brings name || edit.erases name then edit.revise (replay name edits)
      else replay name edits := by
  cases own : edit.brings name || edit.erases name <;> simp [replay, own]

private theorem getAll_after (plain : ∀ more, .extend more ∉ edits) (name : Text) :
    (after edits).getAll name = replay name edits := by
  induction edits using List.reverseRecOn with
  | nil => rfl
  | append_singleton edits edit ih =>
    have earlier : ∀ more, Edit.extend more ∉ edits :=
      fun more member => plain more (List.mem_append_left _ member)
    have last : ∀ more, edit ≠ Edit.extend more := by
      rintro more rfl
      exact plain more (by simp)
    rw [after_concat, getAll_apply (distinct_after edits) last, ih earlier, replay_concat]

/-! ## Order -/

namespace Since

private theorem lt_length {place : Nat} (since : Since edits name place) :
    place < edits.length := by
  obtain ⟨before, edit, later, rfl, rfl, -⟩ := since
  simp

theorem concat {place : Nat} (since : Since edits name place)
    (kept : edit.erases name = false) : Since (edits ++ [edit]) name place := by
  obtain ⟨before, first, later, rfl, length, brought, lasting, lost⟩ := since
  refine ⟨before, first, later ++ [edit], by simp, length, brought, ?_, lost⟩
  intro other member
  rcases List.mem_append.1 member with earlier | last
  · exact lasting other earlier
  · rw [List.mem_singleton.1 last]
    exact kept

end Since

private theorem contains_apply_of_brings (distinct : fields.Distinct)
    (brings : edit.brings name = true) : (fields.apply edit).contains name = true := by
  obtain ⟨other, brought, same⟩ := (Option.any_eq_true _ _).1 brings
  have folded : Text.lower other = Text.lower name := by simpa [Text.sameFolded] using same
  rw [contains_iff]
  cases names_apply distinct edit with
  | adds added added_brought absent names =>
    rw [brought] at added_brought
    cases added_brought
    exact ⟨other, by simp [names], folded⟩
  | keeps present kept =>
    obtain ⟨earlier, listed, alike⟩ := contains_iff.1 (present other brought)
    exact ⟨earlier, by simp [kept, listed, Edit.erases_of_brought brought], alike.trans folded⟩

private theorem contains_apply_of_keeps (distinct : fields.Distinct)
    (keeps : edit.erases name = false)
    (present : fields.contains name = true) : (fields.apply edit).contains name = true := by
  obtain ⟨other, listed, same⟩ := contains_iff.1 present
  refine contains_iff.2 ⟨other, ?_, same⟩
  cases names_apply distinct edit with
  | adds added brought absent names => simp [names, listed]
  | keeps present kept => simp [kept, listed, edit.erases_congr same, keeps]

/-- A name that has come is there until it is erased. -/
theorem contains_after_of_brings {before later : List Edit} (brings : edit.brings name = true)
    (keeps : ∀ other ∈ later, other.erases name = false) :
    (after (before ++ edit :: later)).contains name = true := by
  induction later using List.reverseRecOn with
  | nil =>
    rw [after_concat]
    exact contains_apply_of_brings (distinct_after before) brings
  | append_singleton later last ih =>
    have split : before ++ edit :: (later ++ [last]) = (before ++ edit :: later) ++ [last] := by
      simp
    rw [split, after_concat]
    exact contains_apply_of_keeps (distinct_after _) (keeps last (by simp))
      (ih fun other member => keeps other (List.mem_append_left _ member))

private theorem since_concat (brought : edit.brought = some name)
    (absent : (after edits).contains name = false) :
    Since (edits ++ [edit]) name edits.length := by
  refine ⟨edits, edit, [], rfl, rfl, brought, by simp, ?_⟩
  rintro front other back rfl brings
  -- What an earlier edit brought would still be there, had it not been erased.
  by_contra lasting
  have keeps : ∀ gone ∈ back, gone.erases name = false := by
    intro gone member
    rw [← Bool.not_eq_true]
    exact fun erases => lasting ⟨gone, member, erases⟩
  rw [contains_after_of_brings brings keeps] at absent
  cases absent

/-- Each name stands where it came since it was last erased, and these places ascend. -/
theorem names_after (edits : List Edit) :
    ∃ dated : List (Text × Nat), dated.map Prod.fst = (after edits).names ∧
      (∀ entry ∈ dated, Since edits entry.1 entry.2) ∧
      dated.Pairwise fun first second => first.2 < second.2 := by
  induction edits using List.reverseRecOn with
  | nil => exact ⟨[], rfl, by simp, List.Pairwise.nil⟩
  | append_singleton edits edit ih =>
    obtain ⟨dated, listed, since, ascending⟩ := ih
    rw [after_concat]
    cases names_apply (distinct_after edits) edit with
    | adds name brought absent added =>
      -- The edit is behind all that came before, and so is its name.
      refine ⟨dated ++ [(name, edits.length)], by simp [added, listed], ?_, ?_⟩
      · rw [List.forall_mem_append, List.forall_mem_singleton]
        refine ⟨fun entry member => ?_, since_concat brought absent⟩
        exact (since entry member).concat (Edit.erases_of_brought brought _)
      · rw [List.pairwise_append]
        refine ⟨ascending, List.pairwise_singleton _ _, fun entry member last only => ?_⟩
        rw [List.mem_singleton.1 only]
        exact (since entry member).lt_length
    | keeps present kept =>
      refine ⟨dated.filter fun entry => !edit.erases entry.1, ?_, ?_, ascending.filter _⟩
      · rw [kept, ← listed, List.filter_map]
        rfl
      · intro entry member
        obtain ⟨earlier, keeps⟩ := List.mem_filter.1 member
        exact (since entry earlier).concat (by simpa using keeps)

/-! ## Continued values -/

/-- What is done at the first field of a name leaves the difference, wherever this is, if it does
so at that field itself. -/
theorem amends_of_first (act : Fields → Fields)
    (skips : ∀ field rest, field.isNamed name = false → act (field :: rest) = field :: act rest)
    (meets : ∀ old new rest, old.isNamed name = true → new.isNamed name = true →
      old.Amended new → Amends Field.Amended (act (old :: rest)) (act (new :: rest)))
    (passes : ∀ field left right, field.isNamed name = true →
      Amends Field.Amended left right →
      Amends Field.Amended (act (field :: left)) (act (field :: right)))
    (amends : Amends Field.Amended fields others) :
    Amends Field.Amended (act fields) (act others) := by
  cases amends with
  | same => exact .same _
  | @one front back old new amended =>
    induction front with
    | nil =>
      have named := amended.isNamed_eq name
      rw [List.nil_append, List.nil_append]
      cases own : old.isNamed name with
      | true => exact meets old new back own (named.trans own) amended
      | false =>
        rw [skips old back own, skips new back (named.trans own)]
        exact .head amended _
    | cons field front ih =>
      rw [List.cons_append, List.cons_append]
      cases own : field.isNamed name with
      | true => exact passes field _ _ own (.one front back amended)
      | false =>
        rw [skips field _ own, skips field _ own]
        exact ih.cons field

private theorem amends_alter {change : List Text → List Text}
    (keeps : ∀ values others, Amends (fun _ _ => True) values others →
      Amends (fun _ _ => True) (change values) (change others))
    (amends : Amends Field.Amended fields others) (name : Text) (fresh : List Text) :
    Amends Field.Amended (alter name change fresh fields) (alter name change fresh others) := by
  refine amends_of_first (alter name change fresh)
    (fun field rest apart => alter_cons_of_not_named apart _ _ rest) ?_ ?_ amends
  · intro old new rest named renamed amended
    rw [alter_cons_of_named named, alter_cons_of_named renamed]
    exact .head ⟨amended.1, keeps _ _ amended.2⟩ rest
  · intro field left right named amends
    rw [alter_cons_of_named named, alter_cons_of_named named]
    exact amends.cons _

private theorem amends_erase (amends : Amends Field.Amended fields others) (name : Text) :
    Amends Field.Amended (fields.erase name) (others.erase name) := by
  refine amends_of_first (erase · name)
    (fun field rest apart => erase_cons_of_not_named apart rest) ?_ ?_ amends
  · intro old new rest named renamed _
    rw [erase_cons_of_named named, erase_cons_of_named renamed]
    exact .same rest
  · intro field left right named amends
    rw [erase_cons_of_named named, erase_cons_of_named named]
    exact amends

theorem extendLast_eq_mapLast (fields : Fields) (more : Text) :
    fields.extendLast more = mapLast
      (fun field => { field with values := mapLast (continued · more) field.values }) fields := by
  cases fields <;> rfl

private theorem amends_extendLast (fields : Fields) (more : Text) :
    Amends Field.Amended fields (fields.extendLast more) := by
  rw [extendLast_eq_mapLast]
  exact Amends.of_mapLast (fun field => ⟨rfl, Amends.of_mapLast (fun _ => trivial) _⟩) fields

private theorem amends_apply (amends : Amends Field.Amended fields others) (edit : Edit) :
    Amends Field.Amended (fields.apply edit) (others.apply edit) := by
  cases edit with
  | append name value => exact amends_alter (fun _ _ values => values.concat value) amends name _
  | insert name value => exact amends_alter (fun _ _ _ => .same _) amends name _
  | erase name => exact amends_erase amends name
  | extend more =>
    rw [apply, apply, extendLast_eq_mapLast, extendLast_eq_mapLast]
    exact amends.mapLast fun _ _ amended =>
      ⟨amended.1, amended.2.mapLast fun _ _ _ => trivial⟩

/-- What continues a value changes no name and one value at most, whatever comes after. -/
theorem amends_after (before : List Edit) (more : Text) (later : List Edit) :
    Amends Field.Amended (after (before ++ later)) (after (before ++ .extend more :: later)) := by
  induction later using List.reverseRecOn with
  | nil =>
    rw [List.append_nil, after_concat]
    exact amends_extendLast (after before) more
  | append_singleton later edit ih =>
    have split : ∀ front : List Edit, front ++ (later ++ [edit]) = (front ++ later) ++ [edit] := by
      intro front
      simp
    have continued : before ++ .extend more :: (later ++ [edit]) =
        (before ++ .extend more :: later) ++ [edit] := by simp
    rw [split, continued, after_concat, after_concat]
    exact amends_apply ih edit

/-! ## What a history comes to -/

/-- The fields are as the edits of each name alone would have them, each name where it came
since it was last erased; a continued value is the only difference that continuing it makes. -/
theorem after_refines (edits : List Edit) :
    ((after edits).names.map Text.lower).Nodup ∧
    (∀ field ∈ after edits, field.values ≠ []) ∧
    ((∀ more, .extend more ∉ edits) → ∀ name, (after edits).getAll name = replay name edits) ∧
    (∀ name, (after edits).get? name = ((after edits).getAll name).head? ∧
      (after edits).contains name = !((after edits).getAll name).isEmpty) ∧
    (∃ dated : List (Text × Nat), dated.map Prod.fst = (after edits).names ∧
      (∀ entry ∈ dated, Since edits entry.1 entry.2) ∧
      dated.Pairwise fun first second => first.2 < second.2) ∧
    ∀ before more later, edits = before ++ .extend more :: later →
      (after edits).names = (after (before ++ later)).names ∧
      Amends Field.Amended (after (before ++ later)) (after edits) := by
  refine ⟨distinct_after edits, filled_after edits, getAll_after,
    fun name => ⟨rfl, contains_eq_of_filled (filled_after edits) name⟩, names_after edits, ?_⟩
  rintro before more later rfl
  have amends := amends_after before more later
  exact ⟨amends.map_eq fun _ _ amended => amended.1, amends⟩

/-- A name that is erased and comes again, in other letters, stands behind the rest. -/
theorem after_refines_of_readded :
    let edits := [Edit.append ['B'] ['1'], .append ['A'] ['2'], .erase ['b'], .insert ['b'] ['3'],
      .append ['B'] ['4']]
    let folded := [Edit.append ['B'] ['1'], .append ['A'] ['2'], .erase ['b'], .insert ['b'] ['3'],
      .extend ['5'], .append ['B'] ['4']]
    (∀ more, .extend more ∉ edits) ∧ (after edits).getAll ['B'] = [['3'], ['4']] ∧
      folded = edits.take 4 ++ .extend ['5'] :: edits.drop 4 ∧
      (after folded).names = [['A'], ['b']] ∧
      (after folded).getAll ['b'] = [['3', ' ', '5'], ['4']] := by
  intro edits folded
  have plain : ∀ more, Edit.extend more ∉ edits := by simp [edits]
  have values := (after_refines edits).2.2.1 plain ['B']
  have split : folded = edits.take 4 ++ .extend ['5'] :: edits.drop 4 := rfl
  have kept := ((after_refines folded).2.2.2.2.2 (edits.take 4) ['5'] (edits.drop 4) split).1
  exact ⟨plain, values.trans (by decide), split, kept.trans (by decide), by decide⟩

end Fields

end WebClient
