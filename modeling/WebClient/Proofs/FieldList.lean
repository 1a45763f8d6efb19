import WebClient.Fields

/-!
# Laws of header fields

Adding a value, and continuing the last one, told by the names in the order in which
they came first and by the values of each.
-/

set_option autoImplicit false

namespace WebClient

theorem Field.isNamed_iff {field : Field} {name : Text} :
    field.isNamed name = true ↔ Text.lower field.name = Text.lower name := by
  simp [isNamed, Text.sameFolded]

namespace Fields

def names (fields : Fields) : List Text :=
  fields.map Field.name

theorem mapLast_concat {α : Type} (change : α → α) (front : List α) (last : α) :
    mapLast change (front ++ [last]) = front ++ [change last] := by
  induction front with
  | nil => rfl
  | cons first front ih =>
    cases front with
    | nil => rfl
    | cons second rest => simpa [mapLast] using ih

theorem extendLast?_concat (front : Fields) (last : Field) (more : Text) :
    extendLast? (front ++ [last]) more =
      some (front ++ [{ last with values := mapLast (continued · more) last.values }]) := by
  simp [extendLast?, mapLast_concat]

/-! ## Adding a value -/

theorem alter_cons_of_named {field : Field} {name : Text} (named : field.isNamed name = true)
    (change : List Text → List Text) (fresh : List Text) (rest : Fields) :
    alter name change fresh (field :: rest) =
      { field with values := change field.values } :: rest := by
  simp [alter, named]

theorem alter_cons_of_not_named {field : Field} {name : Text}
    (other : field.isNamed name = false) (change : List Text → List Text) (fresh : List Text)
    (rest : Fields) :
    alter name change fresh (field :: rest) = field :: alter name change fresh rest := by
  simp [alter, other]

private theorem append_cons_of_named {field : Field} {name : Text}
    (named : field.isNamed name = true) (rest : Fields) (value : Text) :
    Fields.append (field :: rest) name value =
      { field with values := field.values ++ [value] } :: rest :=
  alter_cons_of_named named _ _ rest

theorem append_cons_of_not_named {field : Field} {name : Text}
    (other : field.isNamed name = false) (rest : Fields) (value : Text) :
    Fields.append (field :: rest) name value = field :: Fields.append rest name value :=
  alter_cons_of_not_named other _ _ rest

theorem append_of_absent {fields : Fields} {name : Text}
    (absent : ∀ field ∈ fields, field.isNamed name = false) (value : Text) :
    fields.append name value = fields ++ [⟨name, [value]⟩] := by
  induction fields with
  | nil => rfl
  | cons field rest ih =>
    simp only [List.forall_mem_cons] at absent
    rw [append_cons_of_not_named absent.1, ih absent.2, List.cons_append]

theorem append_of_present {before : Fields} {field : Field} {name : Text}
    (absent : ∀ earlier ∈ before, earlier.isNamed name = false)
    (named : field.isNamed name = true) (after : Fields) (value : Text) :
    Fields.append (before ++ field :: after) name value =
      before ++ { field with values := field.values ++ [value] } :: after := by
  induction before with
  | nil => exact append_cons_of_named named after value
  | cons earlier before ih =>
    simp only [List.forall_mem_cons] at absent
    rw [List.cons_append, append_cons_of_not_named absent.1, ih absent.2, List.cons_append]

/-- A name has no field yet, or a first one. -/
theorem absent_or_present (fields : Fields) (name : Text) :
    (∀ field ∈ fields, field.isNamed name = false) ∨
      ∃ before field after, fields = before ++ field :: after ∧
        (∀ earlier ∈ before, earlier.isNamed name = false) ∧ field.isNamed name = true := by
  induction fields with
  | nil => exact .inl (by simp)
  | cons field rest ih =>
    cases named : field.isNamed name with
    | true => exact .inr ⟨[], field, rest, rfl, by simp, named⟩
    | false =>
      rcases ih with absent | ⟨before, found, after, rfl, absent, present⟩
      · exact .inl (List.forall_mem_cons.2 ⟨named, absent⟩)
      · exact .inr ⟨field :: before, found, after, rfl,
          List.forall_mem_cons.2 ⟨named, absent⟩, present⟩

theorem append_ne_nil (fields : Fields) (name value : Text) : fields.append name value ≠ [] := by
  rcases absent_or_present fields name with absent | ⟨before, field, after, rfl, absent, named⟩
  · simp [append_of_absent absent]
  · simp [append_of_present absent named]

theorem contains_iff {fields : Fields} {name : Text} :
    fields.contains name = true ↔
      ∃ earlier ∈ fields.names, Text.lower earlier = Text.lower name := by
  simp only [contains, find?, List.find?_isSome, Field.isNamed_iff, names]
  constructor
  · rintro ⟨field, member, same⟩
    exact ⟨field.name, List.mem_map_of_mem member, same⟩
  · rintro ⟨earlier, listed, same⟩
    obtain ⟨field, member, rfl⟩ := List.mem_map.1 listed
    exact ⟨field, member, same⟩

theorem names_alter (fields : Fields) (name : Text) (change : List Text → List Text)
    (fresh : List Text) :
    (alter name change fresh fields).names =
      if fields.contains name then fields.names else fields.names ++ [name] := by
  induction fields with
  | nil => rfl
  | cons field rest ih =>
    cases named : field.isNamed name with
    | true => simp [alter, names, contains, find?, named]
    | false =>
      have same : contains (field :: rest) name = contains rest name := by
        simp [contains, find?, named]
      simp only [names, alter_cons_of_not_named named, same, List.map_cons] at ih ⊢
      rw [ih]
      split <;> rfl

theorem names_append (fields : Fields) (name value : Text) :
    (fields.append name value).names =
      if fields.contains name then fields.names else fields.names ++ [name] :=
  names_alter fields name _ _

theorem getAll_cons (field : Field) (rest : Fields) (name : Text) :
    getAll (field :: rest) name =
      if field.isNamed name then field.values else getAll rest name := by
  cases named : field.isNamed name <;> simp [getAll, find?, named]

/-- A name without a field counts as one without values. -/
theorem getAll_alter (fields : Fields) (name : Text) (change : List Text → List Text)
    (other : Text) :
    (alter name change (change []) fields).getAll other =
      if Text.lower name = Text.lower other then change (fields.getAll other)
      else fields.getAll other := by
  induction fields with
  | nil =>
    by_cases same : Text.lower name = Text.lower other <;>
      simp [alter, getAll, find?, Field.isNamed, Text.sameFolded, same]
  | cons field rest ih =>
    cases named : field.isNamed name with
    | true =>
      have folded := Field.isNamed_iff.1 named
      rw [alter_cons_of_named named, getAll_cons, getAll_cons]
      simp only [Field.isNamed_iff, folded]
      split <;> rfl
    | false =>
      rw [alter_cons_of_not_named named, getAll_cons, getAll_cons, ih]
      rw [← Bool.not_eq_true, Field.isNamed_iff] at named
      by_cases same : field.isNamed other = true
      · have apart : ¬ Text.lower name = Text.lower other :=
          fun folded => named ((Field.isNamed_iff.1 same).trans folded.symm)
        simp [same, apart]
      · simp [same]

theorem getAll_append (fields : Fields) (name value other : Text) :
    (fields.append name value).getAll other =
      if Text.lower name = Text.lower other then fields.getAll other ++ [value]
      else fields.getAll other :=
  getAll_alter fields name (· ++ [value]) other

/-! ## Continuing the last value -/

theorem extendLast?_eq_some {fields continued : Fields} {more : Text}
    (extended : fields.extendLast? more = some continued) :
    ∃ front last, fields = front ++ [last] ∧ continued =
      front ++ [{ last with values := mapLast (Fields.continued · more) last.values }] := by
  rcases List.eq_nil_or_concat fields with rfl | ⟨front, last, rfl⟩
  · cases extended
  · rw [List.concat_eq_append, extendLast?_concat] at extended
    cases extended
    exact ⟨front, last, List.concat_eq_append, rfl⟩

theorem extendLast?_of_ne_nil {fields : Fields} (nonempty : fields ≠ []) (more : Text) :
    ∃ continued, fields.extendLast? more = some continued ∧ continued ≠ [] := by
  rcases List.eq_nil_or_concat fields with rfl | ⟨front, last, rfl⟩
  · exact absurd rfl nonempty
  · rw [List.concat_eq_append, extendLast?_concat]
    exact ⟨_, rfl, by simp⟩

theorem names_extendLast? {fields continued : Fields} {more : Text}
    (extended : fields.extendLast? more = some continued) : continued.names = fields.names := by
  obtain ⟨front, last, rfl, rfl⟩ := extendLast?_eq_some extended
  simp [names]

def extendLast (fields : Fields) (piece : Text) : Fields :=
  (fields.extendLast? piece).getD fields

theorem extendLast_of_some {fields continued : Fields} {piece : Text}
    (extended : fields.extendLast? piece = some continued) :
    fields.extendLast piece = continued := by
  rw [extendLast, extended, Option.getD_some]

/-- No other name has come since that one did. -/
def IsNewest (fields : Fields) (name : Text) : Prop :=
  ∀ earlier ∈ fields.names.dropLast, Text.lower earlier ≠ Text.lower name

theorem isNewest_concat_iff {front : Fields} {last : Field} {name : Text} :
    IsNewest (front ++ [last]) name ↔ ∀ field ∈ front, field.isNamed name = false := by
  simp [IsNewest, names, ← Field.isNamed_iff]

/-- What continues a value just added goes to it if its name is the newest. -/
theorem extendLast?_append_of_isNewest {fields : Fields} {name : Text}
    (newest : fields.IsNewest name) (value more : Text) :
    (fields.append name value).extendLast? more =
      some (fields.append name (Fields.continued value more)) := by
  rcases absent_or_present fields name with absent | ⟨before, field, after, rfl, absent, named⟩
  · rw [append_of_absent absent, append_of_absent absent, extendLast?_concat]
    rfl
  · rcases List.eq_nil_or_concat after with rfl | ⟨front, last, rfl⟩
    · rw [append_of_present absent named, append_of_present absent named, extendLast?_concat,
        mapLast_concat]
    · have split : before ++ field :: front.concat last = (before ++ field :: front) ++ [last] := by
        simp
      rw [split, isNewest_concat_iff] at newest
      have other := newest field (by simp)
      rw [named] at other
      cases other

/-- What continues the last value leaves a name alone that is not the newest. -/
theorem getAll_extendLast? {fields continued : Fields} {name more : Text}
    (settled : ¬ fields.IsNewest name) (extended : fields.extendLast? more = some continued) :
    continued.getAll name = fields.getAll name := by
  obtain ⟨front, last, rfl, rfl⟩ := extendLast?_eq_some extended
  rw [isNewest_concat_iff] at settled
  rcases absent_or_present front name with absent | ⟨before, field, after, rfl, -, named⟩
  · exact absurd absent settled
  · simp [getAll, find?, List.find?_append, named]

theorem not_isNewest_append {fields : Fields} {name : Text} (settled : ¬ fields.IsNewest name)
    (other value : Text) : ¬ (fields.append other value).IsNewest name := by
  intro newest
  refine settled fun earlier member => newest earlier ?_
  rw [names_append]
  split
  · exact member
  · rw [List.dropLast_concat]
    exact List.dropLast_subset _ member

end Fields

end WebClient
