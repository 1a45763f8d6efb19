import WebClient.Proofs.OffsetSearch
import WebClient.Proofs.UrlParts

/-!
# Reading the attributes of a tag

An attribute is found by its name alone, at the beginning of a word. So it is read as it was
written if no value in front of it has a word in it that spells the name and an `=` behind that.
Where one has, what stands there is read.
-/

set_option autoImplicit false

namespace WebClient.Markup

/-! ## Tags as they are written -/

def isNameChar (c : Char) : Bool :=
  c.isAlpha || c == '-'

structure Attribute where
  name : Text
  value : Text
  occupied : name ≠ []
  lettered : name.all isNameChar = true
  unquoted : '"' ∉ value
  unbroken : '>' ∉ value

def Attribute.text (item : Attribute) : Text :=
  ' ' :: (item.name ++ '=' :: '"' :: (item.value ++ ['"']))

structure AttributedTag where
  name : Text
  items : List Attribute
  solid : name.all (fun c => !Text.isBlank c) = true

def AttributedTag.text (tag : AttributedTag) : Text :=
  '<' :: (tag.name ++ (tag.items.flatMap Attribute.text ++ ['>']))

/-- A name to look for, in small letters. -/
structure IsKey (key : Text) : Prop where
  occupied : key ≠ []
  lettered : key.all isNameChar = true
  small : Text.lower key = key

def listed? (key : Text) (items : List Attribute) : Option Text :=
  (items.find? fun item => Text.lower item.name == key).map Attribute.value

/-- A value that has a name in it, behind a blank, and then an `=`. -/
def Mentions (key value : Text) : Prop :=
  ∃ front blank written behind rest, value = front ++ blank :: (written ++ behind) ∧
    Text.isBlank blank = true ∧ Text.lower written = key ∧ Text.trimStart behind = '=' :: rest

/-! ## What stands behind a name -/

def assigned? (text : Text) : Option Text :=
  match Text.trimStart text with
  | '=' :: rest => some rest
  | _ => none

def assignedFrom? (name : Text) (atBoundary : Bool) : Text → Option Text
  | [] => none
  | c :: rest =>
    (if atBoundary then (Text.dropFolded? name (c :: rest)).bind assigned? else none).or
      (assignedFrom? name (Text.isBlank c) rest)

/-- What is read where a value mentions a name before an attribute of that name is listed. -/
def misread? (key : Text) : List Attribute → Option Text
  | [] => none
  | item :: items =>
    if Text.lower item.name = key then none
    else
      match assignedFrom? key false item.value with
      | some rest =>
        some (attributeValue (rest ++ '"' :: (items.flatMap Attribute.text ++ ['>'])))
      | none => misread? key items

section

variable {key name text rest : Text} {c mark : Char} {atBoundary : Bool}

private theorem valueAfter?_eq_map (text : Text) :
    valueAfter? text = (assigned? text).map attributeValue := by
  rw [valueAfter?, assigned?]
  cases Text.trimStart text with
  | nil => rfl
  | cons first text =>
    by_cases equals : first = '='
    · subst equals
      rfl
    · simp [equals]

private theorem attributeFrom?_eq_map (name : Text) (atBoundary : Bool) (text : Text) :
    attributeFrom? name atBoundary text =
      (assignedFrom? name atBoundary text).map attributeValue := by
  induction text generalizing atBoundary with
  | nil => rfl
  | cons c text ih =>
    rw [attributeFrom?, assignedFrom?, ih]
    cases atBoundary with
    | false => rfl
    | true =>
      cases Text.dropFolded? name (c :: text) with
      | none => rfl
      | some behind =>
        simp only [if_true, Option.bind_some, valueAfter?_eq_map]
        cases assigned? behind <;> rfl

theorem solid_of_isNameChar (named : isNameChar c = true) : Text.isBlank c = false := by
  rw [isNameChar, Bool.or_eq_true, beq_iff_eq] at named
  rcases named with letter | rfl
  · exact Text.isBlank_of_isAlphanum (Bool.or_eq_true_iff.2 (.inl letter))
  · rfl

theorem not_mem_of_lettered (other : isNameChar mark = false)
    (lettered : key.all isNameChar = true) : mark ∉ key := by
  intro member
  rw [List.all_eq_true.1 lettered mark member] at other
  cases other

private theorem assigned?_append (solid : Text.isBlank mark = false) (other : mark ≠ '=')
    (text rest : Text) :
    assigned? (text ++ mark :: rest) = (assigned? text).map (· ++ mark :: rest) := by
  rw [assigned?, assigned?, Text.trimStart_append_solid solid]
  cases Text.trimStart text with
  | nil => simp [other]
  | cons first text =>
    by_cases equals : first = '='
    · subst equals
      rfl
    · simp [equals]

/-- What is behind a mark that the name does not have is looked at after what is in front of it. -/
theorem assignedFrom?_append (absent : mark ∉ name) (small : mark.toLower = mark)
    (solid : Text.isBlank mark = false) (other : mark ≠ '=') (text rest : Text) :
    assignedFrom? name atBoundary (text ++ mark :: rest) =
      ((assignedFrom? name atBoundary text).map (· ++ mark :: rest)).or
        (assignedFrom? name false rest) := by
  have within (text : Text) : (Text.dropFolded? name (text ++ mark :: rest)).bind assigned? =
      ((Text.dropFolded? name text).bind assigned?).map (· ++ mark :: rest) := by
    rw [Text.dropFolded?_append_mark small absent]
    cases Text.dropFolded? name text with
    | none => rfl
    | some behind => exact assigned?_append solid other behind rest
  induction text generalizing atBoundary with
  | nil =>
    have nothing : (Text.dropFolded? name []).bind assigned? = none := by cases name <;> rfl
    have here := within []
    rw [nothing, List.nil_append] at here
    rw [List.nil_append, assignedFrom?, assignedFrom?, here, solid]
    cases atBoundary <;> rfl
  | cons c text ih =>
    have here := within (c :: text)
    rw [List.cons_append] at here ⊢
    rw [assignedFrom?, assignedFrom?, ih, here]
    cases atBoundary with
    | false => rfl
    | true => cases (Text.dropFolded? name (c :: text)).bind assigned? <;> rfl

theorem assignedFrom?_cons_of_solid (solid : Text.isBlank c = false) :
    assignedFrom? name false (c :: rest) = assignedFrom? name false rest := by
  rw [assignedFrom?, solid]
  rfl

theorem assignedFrom?_of_solid (solid : ∀ c ∈ text, Text.isBlank c = false) :
    assignedFrom? name false (text ++ rest) = assignedFrom? name false rest := by
  induction text with
  | nil => rfl
  | cons c text ih =>
    rw [List.forall_mem_cons] at solid
    rw [List.cons_append, assignedFrom?_cons_of_solid solid.1, ih solid.2]

theorem assigned?_eq_some_iff : assigned? text = some rest ↔ Text.trimStart text = '=' :: rest := by
  rw [assigned?]
  cases Text.trimStart text with
  | nil => simp
  | cons first text =>
    by_cases equals : first = '='
    · subst equals
      simp
    · simp [equals]

/-- What follows an attribute's own name is what is assigned; another name is passed over. -/
theorem assignedFrom?_named (isKey : IsKey key) (item : Attribute) (rest : Text) :
    assignedFrom? key true (item.name ++ '=' :: rest) =
      if Text.lower item.name = key then some rest else assignedFrom? key false rest := by
  have solidName : ∀ c ∈ item.name, Text.isBlank c = false := fun c letter =>
    solid_of_isNameChar (List.all_eq_true.1 item.lettered c letter)
  have here : (Text.dropFolded? key (item.name ++ '=' :: rest)).bind assigned? =
      if Text.lower item.name = key then some rest else none := by
    rw [Text.dropFolded?_append_mark rfl (not_mem_of_lettered rfl isKey.lettered)]
    split
    · rename_i same
      rw [Text.dropFolded?_eq_some_iff.2 ⟨item.name, (List.append_nil _).symm, same⟩]
      rfl
    · rename_i other
      cases spelled : Text.dropFolded? key item.name with
      | none => rfl
      | some behind =>
        obtain ⟨written, whole, folded⟩ := Text.dropFolded?_eq_some_iff.1 spelled
        cases behind with
        | nil =>
          rw [List.append_nil] at whole
          exact absurd (whole ▸ folded) other
        | cons c behind =>
          have letter : c ∈ item.name := whole ▸ List.mem_append_right written (.head behind)
          have unequal : c ≠ '=' := fun same =>
            not_mem_of_lettered rfl item.lettered (same ▸ letter)
          rw [Option.map_some, Option.bind_some, assigned?, List.cons_append,
            Text.trimStart_cons (solidName c letter)]
          simp [unequal]
  obtain ⟨first, name, shape⟩ := List.exists_cons_of_ne_nil item.occupied
  rw [shape] at here solidName ⊢
  rw [List.forall_mem_cons] at solidName
  have passed : assignedFrom? key false (name ++ '=' :: rest) = assignedFrom? key false rest := by
    rw [assignedFrom?_of_solid solidName.2, assignedFrom?_cons_of_solid rfl]
  rw [List.cons_append] at here ⊢
  rw [assignedFrom?, if_pos rfl, here, solidName.1, passed]
  split <;> rfl

/-! ## Values that mention a name -/

theorem assignedFrom?_eq_none_iff (occupied : key ≠ []) :
    assignedFrom? key atBoundary text = none ↔
      ∀ front back, text = front ++ back → boundaryBehind atBoundary front = true →
        (Text.dropFolded? key back).bind assigned? = none := by
  induction text generalizing atBoundary with
  | nil =>
    refine iff_of_true rfl fun front back empty _ => ?_
    obtain ⟨first, key, rfl⟩ := List.exists_cons_of_ne_nil occupied
    rw [(List.append_eq_nil_iff.1 empty.symm).2]
    rfl
  | cons c text ih =>
    rw [assignedFrom?, Option.or_eq_none_iff, ih]
    constructor
    · rintro ⟨here, later⟩ front back split boundary
      cases front with
      | nil =>
        obtain rfl : atBoundary = true := boundary
        obtain rfl : c :: text = back := split
        exact here
      | cons _ front =>
        obtain ⟨rfl, rfl⟩ := List.cons.inj split
        rw [boundaryBehind_cons] at boundary
        exact later front back rfl boundary
    · refine fun all => ⟨?_, fun front back split boundary => ?_⟩
      · cases atBoundary with
        | false => rfl
        | true => exact all [] (c :: text) rfl rfl
      · refine all (c :: front) back (by rw [split, List.cons_append]) ?_
        rw [boundaryBehind_cons, boundary]

theorem mentions_iff (occupied : key ≠ []) {value : Text} :
    Mentions key value ↔ assignedFrom? key false value ≠ none := by
  rw [ne_eq, assignedFrom?_eq_none_iff occupied]
  constructor
  · rintro ⟨front, blank, written, behind, rest, rfl, isBlank, folded, assigned⟩ nothing
    have refused := nothing (front ++ [blank]) (written ++ behind) (by simp) (by
      simp [boundaryBehind, isBlank])
    rw [Text.dropFolded?_eq_some_iff.2 ⟨written, rfl, folded⟩, Option.bind_some,
      assigned?_eq_some_iff.2 assigned] at refused
    cases refused
  · intro found
    push Not at found
    obtain ⟨front, back, rfl, boundary, said⟩ := found
    obtain ⟨rest, whole⟩ := Option.ne_none_iff_exists'.1 said
    obtain ⟨behind, spelled, assigned⟩ := Option.bind_eq_some_iff.1 whole
    obtain ⟨written, rfl, folded⟩ := Text.dropFolded?_eq_some_iff.1 spelled
    rcases List.eq_nil_or_concat front with rfl | ⟨front, blank, rfl⟩
    · cases boundary
    · rw [List.concat_eq_append] at boundary ⊢
      rw [boundaryBehind_append] at boundary
      exact ⟨front, blank, written, behind, rest, by simp, boundary, folded,
        assigned?_eq_some_iff.1 assigned⟩

theorem misread?_eq_none_iff (occupied : key ≠ []) {items : List Attribute} :
    misread? key items = none ↔ ∀ early item late, items = early ++ item :: late →
      (∀ other ∈ early ++ [item], Text.lower other.name ≠ key) → ¬ Mentions key item.value := by
  induction items with
  | nil => exact iff_of_true rfl fun early item late empty => by simp at empty
  | cons first items ih =>
    rw [misread?]
    split
    · rename_i named
      refine iff_of_true rfl fun early item late split others => ?_
      have listed : first ∈ early ++ [item] := by
        cases early with
        | nil => exact List.mem_singleton.2 (List.cons.inj split).1
        | cons _ early => exact (List.cons.inj split).1 ▸ List.mem_cons_self
      exact absurd named (others first listed)
    · rename_i other
      cases said : assignedFrom? key false first.value with
      | some rest =>
        refine iff_of_false nofun fun all => ?_
        refine all [] first items rfl (List.forall_mem_singleton.2 other) ?_
        rw [mentions_iff occupied, said]
        nofun
      | none =>
        dsimp only
        rw [ih]
        constructor
        · intro all early item late split others
          cases early with
          | nil =>
            obtain ⟨rfl, -⟩ := List.cons.inj split
            rw [mentions_iff occupied, said]
            exact fun mentioned => mentioned rfl
          | cons _ early =>
            obtain ⟨rfl, rfl⟩ := List.cons.inj split
            exact all early item late rfl fun other member => others other (.tail _ member)
        · intro all early item late split others
          exact all (first :: early) item late (by rw [split, List.cons_append])
            (List.forall_mem_cons.2 ⟨other, others⟩)

/-! ## What is read -/

private theorem assignedFrom?_items (isKey : IsKey key) (items : List Attribute) :
    (assignedFrom? key false (items.flatMap Attribute.text ++ ['>'])).map attributeValue =
      (misread? key items).or (listed? key items) := by
  induction items with
  | nil => rfl
  | cons item items ih =>
    have text : (item :: items).flatMap Attribute.text ++ ['>'] = ' ' :: (item.name ++ '=' ::
        '"' :: (item.value ++ '"' :: (items.flatMap Attribute.text ++ ['>']))) := by
      simp [Attribute.text]
    have blank : Text.isBlank ' ' = true := rfl
    have quoted : '"' ∉ key := not_mem_of_lettered rfl isKey.lettered
    rw [text, assignedFrom?, blank, assignedFrom?_named isKey, misread?, listed?, List.find?_cons]
    by_cases named : Text.lower item.name = key
    · rw [if_pos named, if_pos named, beq_iff_eq.2 named]
      exact congrArg some (Text.before_append_cons item.unquoted _)
    · rw [if_neg named, if_neg named, beq_eq_false_iff_ne.2 named,
        assignedFrom?_cons_of_solid rfl, assignedFrom?_append quoted rfl rfl (by decide)]
      cases assignedFrom? key false item.value with
      | some rest => rfl
      | none => exact ih

/-- An attribute has the value that is listed first under its name, but for a value in front of
that which mentions the name: then what stands there is read. -/
theorem attribute?_text (isKey : IsKey key) (tag : AttributedTag) :
    attributeBySlices? key tag.text (Text.lower tag.text) = some (attribute? key tag.text) ∧
      attribute? key tag.text = (misread? key tag.items).or (listed? key tag.items) ∧
      (misread? key tag.items = none ↔ ∀ early item late, tag.items = early ++ item :: late →
        (∀ other ∈ early ++ [item], Text.lower other.name ≠ key) → ¬ Mentions key item.value) := by
  have solidKey : ∀ c ∈ key, Text.isBlank c = false := fun c member =>
    solid_of_isNameChar (List.all_eq_true.1 isKey.lettered c member)
  refine ⟨attributeBySlices?_eq isKey.occupied solidKey tag.text, ?_,
    misread?_eq_none_iff isKey.occupied⟩
  have opened : '<' ∉ key := not_mem_of_lettered rfl isKey.lettered
  have solid : ∀ c ∈ tag.name, Text.isBlank c = false := Text.solid_of_all tag.solid
  have begun : assignedFrom? key true tag.text =
      assignedFrom? key false (tag.name ++ (tag.items.flatMap Attribute.text ++ ['>'])) :=
    assignedFrom?_append opened rfl rfl (by decide) [] _
  rw [attribute?, attributeFrom?_eq_map, ← assignedFrom?_items isKey,
    ← assignedFrom?_of_solid solid]
  exact congrArg (Option.map attributeValue) begun

/-- Values that have the name in them, but no `=` behind it, do not matter. -/
theorem attribute?_text_of_unassigned :
    let tag : AttributedTag :=
      ⟨"iframe".toList, [
        ⟨"data-src".toList, "no".toList, by decide, by decide, by decide, by decide⟩,
        ⟨"title".toList, "a src b= src".toList, by decide, by decide, by decide, by decide⟩,
        ⟨"SRC".toList, "yes".toList, by decide, by decide, by decide, by decide⟩], by decide⟩
    IsKey "src".toList ∧ attribute? "src".toList tag.text = some "yes".toList := by
  intro tag
  have isKey : IsKey "src".toList := ⟨by decide, by decide, by decide⟩
  exact ⟨isKey, (attribute?_text isKey tag).2.1.trans (by decide)⟩

/-- A title that mentions the source is read instead of the source. -/
theorem not_attribute?_text_of_title :
    let tag : AttributedTag :=
      ⟨"iframe".toList, [
        ⟨"title".toList, "a src=no".toList, by decide, by decide, by decide, by decide⟩,
        ⟨"src".toList, "yes".toList, by decide, by decide, by decide, by decide⟩], by decide⟩
    IsKey "src".toList ∧ listed? "src".toList tag.items = some "yes".toList ∧
      attribute? "src".toList tag.text = some "no\"".toList :=
  ⟨⟨by decide, by decide, by decide⟩, by decide, by decide⟩

end

end WebClient.Markup
