import Mathlib.Data.List.Forall2
import WebClient.Proofs.CookieText
import WebClient.Proofs.FoldedSearch

/-!
# The attributes of a cookie

Attributes are looked for by their names anywhere behind the first semicolon. What stands
between two semicolons says at most one of them, and as long as no value and nothing else
spells one of the names, the cookie is the one that its attributes describe, in whatever
order and case they come.
-/

set_option autoImplicit false

namespace WebClient.Cookie

/-! ## Names of attributes -/

inductive Key
  | expires
  | path
  | domain
  deriving DecidableEq, Repr

namespace Key

variable {key other : Key}

def name : Key → Text
  | expires => "expires".toList
  | path => "path".toList
  | domain => "domain".toList

def label (key : Key) : Text :=
  key.name ++ ['=']

private theorem equals_not_mem_name (key : Key) : '=' ∉ key.name := by
  cases key <;> decide

theorem semicolon_not_mem_label (key : Key) : ';' ∉ key.label := by
  cases key <;> decide

theorem solid_label (key : Key) : ∀ c ∈ key.label, Text.isBlank c = false := by
  have solid : key.label.all (fun c => Text.isBlank c == false) = true := by
    cases key <;> decide
  exact fun c member => eq_of_beq (List.all_eq_true.1 solid c member)

theorem label_ne_nil (key : Key) : key.label ≠ [] :=
  List.append_ne_nil_of_right_ne_nil _ (List.cons_ne_nil _ _)

private theorem eq_of_getLast?_name (same : key.name.getLast? = other.name.getLast?) :
    key = other := by
  revert same
  cases key <;> cases other <;> decide

private theorem eq_of_name_suffix {front : Text} (ends : key.name <:+ front ++ other.name) :
    key = other := by
  obtain ⟨before, whole⟩ := ends
  have nonempty (key : Key) : key.name ≠ [] := by
    cases key <;> decide
  have last := congrArg List.getLast? whole
  rw [List.getLast?_append_of_ne_nil _ (nonempty key),
    List.getLast?_append_of_ne_nil _ (nonempty other)] at last
  exact eq_of_getLast?_name last

end Key

/-! ## Attributes and how they are written -/

inductive Attribute
  | valued (key : Key) (value : Text)
  | secure
  | unrelated
  deriving DecidableEq, Repr

def secureWord : Text := "secure".toList

structure IsPlain (text : Text) : Prop where
  unended : ';' ∉ text
  free : ∀ key : Key, ¬ key.label <:+: Text.lower text

theorem isPlain_iff {text : Text} :
    IsPlain text ↔ ';' ∉ text ∧
      [Key.expires, .path, .domain].all (fun key => !Text.occurs key.label (Text.lower text)) := by
  constructor
  · intro plain
    refine ⟨plain.unended, List.all_eq_true.2 fun key _ => ?_⟩
    simpa [← Text.occurs_iff] using plain.free key
  · rintro ⟨unended, free⟩
    refine ⟨unended, fun key inside => ?_⟩
    have listed : key ∈ [Key.expires, .path, .domain] := by cases key <;> decide
    have absent := List.all_eq_true.1 free key listed
    rw [Text.occurs_iff.2 inside] at absent
    cases absent

instance (text : Text) : Decidable (IsPlain text) :=
  decidable_of_iff' _ isPlain_iff

/-- How an attribute may be written: its name in any case, and blanks around the name and
around the value. -/
inductive Attribute.IsWritten : Attribute → Text → Prop
  | valued {key : Key} {label rest piece : Text} (split : Text.trim piece = label ++ rest)
      (folded : Text.lower label = key.label) (nonempty : Text.trim rest ≠ [])
      (plain : IsPlain (Text.trim rest)) : IsWritten (.valued key (Text.trim rest)) piece
  | secure {piece : Text} (folded : Text.lower (Text.trim piece) = secureWord) :
      IsWritten .secure piece
  | unrelated {piece : Text} (plain : IsPlain piece)
      (insecure : Text.lower (Text.trim piece) ≠ secureWord) : IsWritten .unrelated piece

def Attribute.value? (key : Key) : Attribute → Option Text
  | valued other value => if other = key then some value else none
  | secure | unrelated => none

def Attribute.key? : Attribute → Option Key
  | valued key _ => some key
  | secure | unrelated => none

def relevant (attributes : List Attribute) : List Attribute :=
  attributes.filter (· ≠ .unrelated)

/-! ## Looking for a name -/

section

variable {key : Key} {said : Attribute} {piece front rest : Text}

theorem attribute?_eq_none (free : ¬ key.label <:+: Text.lower front) :
    attribute? key.label front = none := by
  rw [attribute?, Text.cutFolded?_eq_none_iff.2 free]

private theorem attribute?_append_cons (free : ¬ key.label <:+: Text.lower front) (rest : Text) :
    attribute? key.label (front ++ ';' :: rest) = attribute? key.label rest := by
  rw [attribute?, Text.cutFolded?_append_cons rfl key.semicolon_not_mem_label free, attribute?]
  cases Text.cutFolded? key.label rest <;> rfl

private theorem attribute?_of_label {label : Text} (blank : ∀ c ∈ front, Text.isBlank c = true)
    (folded : Text.lower label = key.label) (rest : Text) :
    attribute? key.label (front ++ (label ++ rest)) =
      if (Text.trim (Text.before ';' rest)).isEmpty then none
      else some (Text.trim (Text.before ';' rest)) := by
  have nonempty : label ≠ [] := by
    rintro rfl
    exact key.label_ne_nil folded.symm
  have solid : ∀ c ∈ label, Text.isBlank c = false := by
    intro c member
    rw [← Text.isBlank_toLower]
    exact key.solid_label _ (folded ▸ List.mem_map_of_mem member)
  have cut := Text.cutFolded?_append_of_blank nonempty solid blank rest
  rw [folded] at cut
  rw [attribute?, cut]

/-- A label is found in another one, or in what is between the blanks. -/
theorem not_infix_of_trim {label : Text} {other : Key}
    (split : Text.trim piece = label ++ rest) (folded : Text.lower label = other.label)
    (free : ¬ key.label <:+: Text.lower (Text.trim rest)) (different : other ≠ key) :
    ¬ key.label <:+: Text.lower piece := by
  obtain ⟨front, back, whole, blankFront, blankBack⟩ := Text.exists_eq_append_trim piece
  obtain ⟨inner, outer, around, blankInner, blankOuter⟩ := Text.exists_eq_append_trim rest
  intro inside
  have shape : Text.lower piece =
      (Text.lower front ++ other.name) ++ '=' :: Text.lower (rest ++ back) := by
    rw [whole, split]
    simp only [Text.lower_append, folded, Key.label, List.append_assoc, List.singleton_append]
  have single : '=' ∉ Text.lower front ++ other.name := by
    rw [List.mem_append, not_or]
    refine ⟨fun member => ?_, other.equals_not_mem_name⟩
    exact absurd (Text.isBlank_of_mem_lower blankFront member) (by decide)
  rw [shape] at inside
  rcases Text.suffix_or_infix_of_infix single key.equals_not_mem_name inside with ends | within
  · exact different (Key.eq_of_name_suffix ends).symm
  · have valued : Text.lower (rest ++ back) =
        Text.lower inner ++ Text.lower (Text.trim rest) ++ Text.lower (outer ++ back) := by
      rw [← Text.lower_append, ← Text.lower_append, ← List.append_assoc, ← around]
    have blankBehind : ∀ c ∈ outer ++ back, Text.isBlank c = true :=
      List.forall_mem_append.2 ⟨blankOuter, blankBack⟩
    rw [valued] at within
    exact free (Text.infix_of_infix_blanks key.label_ne_nil key.solid_label
      (fun c => Text.isBlank_of_mem_lower blankInner)
      (fun c => Text.isBlank_of_mem_lower blankBehind) within)

/-! ## One attribute -/

namespace Attribute.IsWritten

theorem unended (written : said.IsWritten piece) : ';' ∉ piece := by
  rw [← Text.mem_trim_iff (by decide)]
  intro member
  cases written with
  | valued split folded nonempty plain =>
    rw [split, List.mem_append] at member
    rcases member with named | valued
    · have inside := List.mem_map_of_mem (f := Char.toLower) named
      rw [← Text.lower, folded] at inside
      exact Key.semicolon_not_mem_label _ inside
    · exact plain.unended ((Text.mem_trim_iff (by decide)).2 valued)
  | secure folded =>
    have inside := List.mem_map_of_mem (f := Char.toLower) member
    rw [← Text.lower, folded] at inside
    exact absurd inside (by decide)
  | unrelated plain insecure => exact plain.unended ((Text.infix_trim piece).subset member)

theorem free (written : said.IsWritten piece) (absent : said.value? key = none) :
    ¬ key.label <:+: Text.lower piece := by
  cases written with
  | @valued other label rest _ split folded nonempty plain =>
    have different : other ≠ key := by
      rintro rfl
      simp [value?] at absent
    exact not_infix_of_trim split folded (plain.free key) different
  | secure folded =>
    intro inside
    have equals : '=' ∈ Text.lower piece :=
      inside.subset (List.mem_append_right _ (.head _))
    rw [← Text.mem_trim_iff (by decide), Text.trim_lower, folded] at equals
    exact absurd equals (by decide)
  | unrelated plain insecure => exact plain.free key

theorem attribute?_eq_some (written : said.IsWritten piece) {value : Text}
    (present : said.value? key = some value) (nothing : Text.before ';' rest = []) :
    attribute? key.label (piece ++ rest) = some value := by
  have unended := written.unended
  cases written with
  | @valued other label after _ split folded nonempty plain =>
    have same : other = key ∧ Text.trim after = value := by simpa [value?] using present
    obtain ⟨rfl, rfl⟩ := same
    obtain ⟨front, back, whole, blankFront, blankBack⟩ := Text.exists_eq_append_trim piece
    have shape : piece ++ rest = front ++ (label ++ (after ++ back ++ rest)) := by
      rw [whole, split]
      simp
    have uncut : ∀ c ∈ after ++ back, decide (c ≠ ';') = true := by
      intro c member
      refine decide_eq_true ?_
      rintro rfl
      refine unended ?_
      rw [whole, split]
      simpa [or_assoc] using .inr (.inr (List.mem_append.1 member))
    have cut : Text.before ';' (after ++ back ++ rest) = after ++ back := by
      rw [Text.before, List.takeWhile_append_of_pos uncut, ← Text.before, nothing,
        List.append_nil]
    rw [shape, attribute?_of_label blankFront folded, cut, Text.trim_append_of_blank blankBack,
      if_neg (by simpa using nonempty)]
  | secure folded => cases present
  | unrelated plain insecure => cases present

private theorem attribute?_append_cons (written : said.IsWritten piece) (rest : Text) :
    attribute? key.label (piece ++ ';' :: rest) =
      (said.value? key).or (attribute? key.label rest) := by
  cases present : said.value? key with
  | none => exact Cookie.attribute?_append_cons (written.free present) rest
  | some value => exact written.attribute?_eq_some present (by simp [Text.before])

private theorem attribute?_eq (written : said.IsWritten piece) :
    attribute? key.label piece = said.value? key := by
  cases present : said.value? key with
  | none => exact attribute?_eq_none (written.free present)
  | some value =>
    have found : attribute? key.label (piece ++ []) = some value :=
      written.attribute?_eq_some present rfl
    rwa [List.append_nil] at found

theorem secure_iff (written : said.IsWritten piece) :
    Text.trim (Text.lower piece) = secureWord ↔ said = .secure := by
  rw [Text.trim_lower]
  cases written with
  | @valued key label rest _ split folded nonempty plain =>
    refine iff_of_false (fun same => ?_) nofun
    have equals : '=' ∈ Text.lower (Text.trim piece) := by
      rw [split, Text.lower_append, folded, List.mem_append]
      exact .inl (List.mem_append_right _ (.head _))
    rw [same] at equals
    exact absurd equals (by decide)
  | secure folded => exact iff_of_true folded rfl
  | unrelated plain insecure => exact iff_of_false insecure nofun

theorem trimEnd (written : said.IsWritten piece) : said.IsWritten (Text.trimEnd piece) := by
  have trimmed := Text.trim_trimEnd piece
  cases written with
  | valued split folded nonempty plain =>
    exact .valued (trimmed.trans split) folded nonempty plain
  | secure folded => exact .secure (by rw [trimmed, folded])
  | unrelated plain insecure =>
    have inside : Text.trimEnd piece <:+: piece :=
      ⟨[], Text.trailing piece, Text.trimEnd_append_trailing piece⟩
    refine .unrelated ⟨fun member => plain.unended (inside.subset member), ?_⟩ (by rwa [trimmed])
    exact fun key found => plain.free key (found.trans (Text.lower_infix_lower inside))

end Attribute.IsWritten

end

/-! ## All attributes -/

section

variable {attributes : List Attribute} {pieces : List Text}

private theorem attribute?_intercalate
    (written : List.Forall₂ Attribute.IsWritten attributes pieces) (key : Key) :
    attribute? key.label (List.intercalate [';'] pieces) =
      attributes.findSome? (Attribute.value? key) := by
  induction written with
  | nil =>
    have free : ¬ key.label <:+: Text.lower [] := fun inside =>
      key.label_ne_nil (List.infix_nil.1 inside)
    exact attribute?_eq_none free
  | @cons said piece attributes pieces here later ih =>
    cases later with
    | nil =>
      rw [List.intercalate_singleton, here.attribute?_eq, List.findSome?_singleton]
    | cons next more =>
      rw [List.intercalate_cons_cons, List.append_assoc, List.singleton_append,
        here.attribute?_append_cons, ih]
      conv_rhs => rw [List.findSome?_cons]
      cases said.value? key <;> rfl

private theorem marksSecure_intercalate
    (written : List.Forall₂ Attribute.IsWritten attributes pieces) :
    marksSecure (List.intercalate [';'] pieces) = true ↔ .secure ∈ attributes := by
  have marked : (∃ piece ∈ pieces, Text.trim (Text.lower piece) = secureWord) ↔
      .secure ∈ attributes := by
    induction written with
    | nil => simp
    | cons here later ih =>
      rw [List.exists_mem_cons_iff, List.mem_cons, ih, here.secure_iff, eq_comm]
  have unended : ∀ piece ∈ pieces, ';' ∉ piece := by
    clear marked
    induction written with
    | nil => exact nofun
    | cons here later ih => exact List.forall_mem_cons.2 ⟨here.unended, ih⟩
  rw [← marked, marksSecure, List.any_eq_true]
  cases pieces with
  | nil => decide
  | cons piece pieces =>
    rw [List.splitOn_intercalate ';' unended (List.cons_ne_nil _ _)]
    exact exists_congr fun piece => and_congr_right fun _ => beq_iff_eq

private theorem exists_intercalate_eq_trimEnd
    (written : List.Forall₂ Attribute.IsWritten attributes pieces) :
    ∃ trimmed, List.Forall₂ Attribute.IsWritten attributes trimmed ∧
      Text.trimEnd (List.intercalate [';'] pieces) = List.intercalate [';'] trimmed := by
  induction written with
  | nil => exact ⟨[], .nil, rfl⟩
  | @cons said piece attributes pieces here later ih =>
    cases later with
    | nil =>
      refine ⟨[Text.trimEnd piece], .cons here.trimEnd .nil, ?_⟩
      rw [List.intercalate_singleton, List.intercalate_singleton]
    | cons next more =>
      obtain ⟨trimmed, rewritten, same⟩ := ih
      cases rewritten with
      | cons first others =>
        refine ⟨piece :: _, .cons here (.cons first others), ?_⟩
        rw [List.intercalate_cons_cons, List.intercalate_cons_cons, ← same, List.append_assoc,
          List.append_assoc, List.singleton_append, List.singleton_append,
          Text.trimEnd_append_cons _ (by decide)]

theorem findSome?_value?_iff (distinct : (attributes.filterMap Attribute.key?).Nodup) {key : Key}
    {value : Text} :
    attributes.findSome? (Attribute.value? key) = some value ↔ .valued key value ∈ attributes := by
  induction attributes with
  | nil => simp
  | cons said attributes ih =>
    rw [List.findSome?_cons, List.mem_cons]
    cases said with
    | valued other first =>
      have keys : (other :: attributes.filterMap Attribute.key?).Nodup := distinct
      rw [List.nodup_cons] at keys
      by_cases same : other = key
      · subst same
        have gone : .valued other value ∉ attributes := fun later =>
          keys.1 (List.mem_filterMap.2 ⟨_, later, rfl⟩)
        simp [Attribute.value?, gone, eq_comm]
      · simp [Attribute.value?, same, ih keys.2, Ne.symm same]
    | secure => simp [Attribute.value?, ih distinct]
    | unrelated => simp [Attribute.value?, ih distinct]

/-! ## Whole cookies -/

/-- The cookie of a name, a value and some attributes. Of several values that an attribute is
given the first counts. -/
def described (name value : Text) (attributes : List Attribute) : Cookie where
  name := Text.trim name
  value := Text.trim value
  expires := (attributes.findSome? (Attribute.value? .expires)).bind Expiry.parse?
  path := attributes.findSome? (Attribute.value? .path)
  domain := attributes.findSome? (Attribute.value? .domain)
  isSecure := attributes.contains .secure

def joined (name value : Text) (pieces : List Text) : Text :=
  List.intercalate [';'] ((name ++ '=' :: value) :: pieces)

variable {name value : Text}

private theorem splitAttributes_trim {pair : Text} (unended : ';' ∉ pair) (rest : Text) :
    splitAttributes (Text.trim (pair ++ ';' :: rest)) =
      (Text.trimStart pair, Text.trimEnd rest) := by
  have front : ';' ∉ Text.trimStart pair := fun member =>
    unended ((List.dropWhile_suffix _).subset member)
  rw [splitAttributes, Text.trim, Text.trimStart_append_solid (by decide),
    Text.trimEnd_append_cons _ (by decide), Text.cutFirst?_append_cons front, Option.getD_some]

private theorem parse?_eq_described {raw before after : Text} {pieces : List Text}
    (written : List.Forall₂ Attribute.IsWritten attributes pieces)
    (nonempty : Text.trim before ≠ [])
    (split : splitAttributes (Text.trim raw) =
      (before ++ '=' :: after, List.intercalate [';'] pieces))
    (single : '=' ∉ before) : parse? raw = some (described before after attributes) := by
  have found (key : Key) := attribute?_intercalate written key
  have secure : marksSecure (List.intercalate [';'] pieces) = attributes.contains .secure := by
    rw [Bool.eq_iff_iff, marksSecure_intercalate written, List.contains_iff_mem]
  have expires := found .expires
  have path := found .path
  have domain := found .domain
  rw [parse?_eq_some_iff, ← splitAttributes_fst, expiryText?, pathText?, domainText?, split]
  refine ⟨before, after, Text.cutFirst?_append_cons single after, nonempty, ?_⟩
  rw [described, ← expires, ← path, ← domain, ← secure]
  rfl

private theorem parse?_joined (nonempty : Text.trim name ≠ []) (single : '=' ∉ name)
    (nameUnended : ';' ∉ name) (valueUnended : ';' ∉ value)
    (written : List.Forall₂ Attribute.IsWritten attributes pieces) :
    parse? (joined name value pieces) = some (described name value attributes) := by
  have solid : Text.isBlank '=' = false := by decide
  have begun : Text.trimStart (name ++ '=' :: value) = Text.trimStart name ++ '=' :: value :=
    Text.trimStart_append_solid solid name value
  have unended : ';' ∉ name ++ '=' :: value := by
    simp [nameUnended, valueUnended]
  have occupied : Text.trim (Text.trimStart name) ≠ [] := by rwa [Text.trim_trimStart]
  have front : '=' ∉ Text.trimStart name := fun member =>
    single ((List.dropWhile_suffix _).subset member)
  cases written with
  | nil =>
    have whole : Text.trim (joined name value []) =
        Text.trimStart name ++ '=' :: Text.trimEnd value := by
      rw [joined, List.intercalate_singleton, Text.trim, begun, Text.trimEnd_append_cons _ solid]
    have uncut : ';' ∉ Text.trim (joined name value []) := by
      rw [joined, List.intercalate_singleton]
      exact fun member => unended ((Text.infix_trim _).subset member)
    have split : splitAttributes (Text.trim (joined name value [])) =
        (Text.trimStart name ++ '=' :: Text.trimEnd value, List.intercalate [';'] []) := by
      rw [splitAttributes, Text.cutFirst?_eq_none_iff.2 uncut, whole]
      rfl
    rw [parse?_eq_described .nil occupied split front, described, described, Text.trim_trimStart,
      Text.trim_trimEnd]
  | @cons said piece attributes pieces here later =>
    obtain ⟨trimmed, rewritten, same⟩ := exists_intercalate_eq_trimEnd (.cons here later)
    have split : splitAttributes (Text.trim (joined name value (piece :: pieces))) =
        (Text.trimStart name ++ '=' :: value, List.intercalate [';'] trimmed) := by
      rw [joined, List.intercalate_cons_cons, List.append_assoc, List.singleton_append,
        splitAttributes_trim unended, begun, same]
    rw [parse?_eq_described rewritten occupied split front, described, described,
      Text.trim_trimStart]

private theorem filterMap_key?_relevant (attributes : List Attribute) :
    (relevant attributes).filterMap Attribute.key? = attributes.filterMap Attribute.key? := by
  rw [relevant, List.filterMap_filter]
  refine List.filterMap_congr fun said _ => ?_
  cases said <;> rfl

private theorem described_perm {others : List Attribute}
    (order : (relevant attributes).Perm (relevant others))
    (distinct : (attributes.filterMap Attribute.key?).Nodup) :
    described name value attributes = described name value others := by
  have also : (others.filterMap Attribute.key?).Nodup := by
    rw [← filterMap_key?_relevant] at distinct ⊢
    exact (order.filterMap _).nodup_iff.1 distinct
  have same (said : Attribute) (related : said ≠ .unrelated) :
      said ∈ attributes ↔ said ∈ others := by
    simpa [relevant, related] using order.mem_iff (a := said)
  have values (key : Key) : attributes.findSome? (Attribute.value? key) =
      others.findSome? (Attribute.value? key) := by
    refine Option.ext fun text => ?_
    rw [findSome?_value?_iff distinct, findSome?_value?_iff also, same (.valued key text) nofun]
  have secure : attributes.contains .secure = others.contains .secure := by
    rw [Bool.eq_iff_iff, List.contains_iff_mem, List.contains_iff_mem, same .secure nofun]
  rw [described, described, values, values, values, secure]

/-- A cookie has the name, the value and what its attributes say, none of them said twice. In
whatever order and case the attributes are written, and whatever blanks and unrelated ones are
between them, it is the same cookie. -/
theorem parse?_of_isWritten (nonempty : Text.trim name ≠ []) (single : '=' ∉ name)
    (nameUnended : ';' ∉ name) (valueUnended : ';' ∉ value)
    (written : List.Forall₂ Attribute.IsWritten attributes pieces)
    (distinct : (attributes.filterMap Attribute.key?).Nodup) :
    ∃ cookie, parse? (joined name value pieces) = some cookie ∧
      cookie.name = Text.trim name ∧ cookie.value = Text.trim value ∧
      (∀ text, cookie.path = some text ↔ .valued .path text ∈ attributes) ∧
      (∀ text, cookie.domain = some text ↔ .valued .domain text ∈ attributes) ∧
      (∀ time, cookie.expires = some time ↔
        ∃ text, .valued .expires text ∈ attributes ∧ Expiry.parse? text = some time) ∧
      (cookie.isSecure = true ↔ .secure ∈ attributes) ∧
      ∀ others otherPieces, (relevant attributes).Perm (relevant others) →
        List.Forall₂ Attribute.IsWritten others otherPieces →
        parse? (joined name value otherPieces) = some cookie := by
  refine ⟨described name value attributes,
    parse?_joined nonempty single nameUnended valueUnended written, rfl, rfl,
    fun text => findSome?_value?_iff distinct, fun text => findSome?_value?_iff distinct,
    fun time => ?_, List.contains_iff_mem, fun others otherPieces order rewritten => ?_⟩
  · rw [described, Option.bind_eq_some_iff]
    exact exists_congr fun text => and_congr_left fun _ => findSome?_value?_iff distinct
  · rw [described_perm order distinct]
    exact parse?_joined nonempty single nameUnended valueUnended rewritten

end

/-- Mixed case, blanks, and attributes between the others that say nothing. -/
theorem parse?_of_isWritten_of_mixed :
    ∃ cookie,
      parse? (" sid = Ab ; PATH= /App;HttpOnly;; secURE ;".toList ++
        "eXpires=Wed, 09-Jun-2021 10:18:14 GMT ".toList) = some cookie ∧
      cookie.name = "sid".toList ∧ cookie.value = "Ab".toList ∧
      cookie.path = some "/App".toList ∧ cookie.domain = none ∧
      cookie.expires = some ⟨⟨2021, 6, 9⟩, 10, 18, 14⟩ ∧ cookie.isSecure = true := by
  let date : Text := "Wed, 09-Jun-2021 10:18:14 GMT".toList
  let attributes : List Attribute :=
    [.valued .path "/App".toList, .unrelated, .unrelated, .secure, .valued .expires date]
  have path : Attribute.IsWritten (.valued .path "/App".toList) " PATH= /App".toList :=
    @Attribute.IsWritten.valued .path "PATH=".toList " /App".toList _ (by decide) (by decide)
      (by decide) (by decide)
  have expires : Attribute.IsWritten (.valued .expires date) ("eXpires=".toList ++ date ++ [' ']) :=
    @Attribute.IsWritten.valued .expires "eXpires=".toList date _ (by decide) (by decide)
      (by decide) (by decide)
  have written : List.Forall₂ Attribute.IsWritten attributes
      [" PATH= /App".toList, "HttpOnly".toList, [], " secURE ".toList,
        "eXpires=".toList ++ date ++ [' ']] :=
    .cons path (.cons (.unrelated (by decide) (by decide))
      (.cons (.unrelated (by decide) (by decide)) (.cons (.secure (by decide))
        (.cons expires .nil))))
  obtain ⟨cookie, parsed, name, value, paths, domains, times, secure, -⟩ :=
    @parse?_of_isWritten _ _ " sid ".toList " Ab ".toList (by decide) (by decide) (by decide)
      (by decide) written (by decide)
  refine ⟨cookie, ?_, name.trans (by decide), value.trans (by decide),
    (paths _).2 (by decide), ?_, (times _).2 ⟨date, by decide, by decide +kernel⟩,
    secure.2 (by decide)⟩
  · exact Eq.trans (congrArg parse? (by decide)) parsed
  · refine Option.eq_none_iff_forall_ne_some.2 fun text given => ?_
    have listed : .valued .domain text ∈ attributes := (domains text).1 given
    simp only [attributes, List.mem_cons, Attribute.valued.injEq, reduceCtorEq, false_and,
      false_or, List.not_mem_nil] at listed

end WebClient.Cookie
