import Mathlib.Data.List.Induction
import WebClient.Proofs.FieldList
import WebClient.Proofs.ReadHead

/-!
# Folded fields

A field may be written over several lines, of which all but the first begin with a
blank. Its pieces belong together; what is read puts them together as long as the
name of the field is the one that came last for the first time.
-/

set_option autoImplicit false

namespace WebClient

/-! ## Fields as they are written -/

/-- A line that continues the one before it, and the blank that it begins with. -/
structure FoldedLine where
  isTab : Bool
  text : Bytes

structure WrittenField where
  name : Bytes
  first : Bytes
  more : List FoldedLine

namespace FoldedLine

def line (folded : FoldedLine) : Bytes :=
  (if folded.isTab then 9 else 32) :: folded.text

def piece (folded : FoldedLine) : Text :=
  Text.trim (Text.latin1 folded.text)

end FoldedLine

namespace WrittenField

def lines (field : WrittenField) : List Bytes :=
  (field.name ++ 58 :: field.first) :: field.more.map FoldedLine.line

def key (field : WrittenField) : Text :=
  Text.lower (Text.trim (Text.latin1 field.name))

def begun (field : WrittenField) : Text :=
  Text.trim (Text.latin1 field.first)

def pieces (field : WrittenField) : List Text :=
  field.begun :: field.more.map FoldedLine.piece

def value (field : WrittenField) : Text :=
  List.intercalate [' '] field.pieces

/-- A field that is taken for one: no line of it is anything else, and no piece of its
value is empty. -/
structure IsWellFormed (field : WrittenField) : Prop where
  single : ∀ line ∈ field.lines, 10 ∉ line
  uncut : ':' ∉ Text.latin1 field.name
  noStatus : "HTTP".toList.isPrefixOf (Text.latin1 field.name) = false
  unfolded : Reader.Draft.isFolded (Text.latin1 field.name) = false
  noBlock : Reader.blockCode? (Text.latin1 field.name) = none
  pieces : ∀ piece ∈ field.pieces, piece ≠ []

/-- The field on one line. -/
structure Unfolds (field whole : WrittenField) : Prop where
  name : whole.name = field.name
  more : whole.more = []
  single : 10 ∉ whole.first
  begun : whole.begun = field.value

def addTo (field : WrittenField) (fields : Fields) : Fields :=
  (field.more.map FoldedLine.piece).foldl Fields.extendLast (fields.append field.key field.begun)

def addWhole (field : WrittenField) (fields : Fields) : Fields :=
  fields.append field.key field.value

def taken (start : Fields) (written : List WrittenField) : Fields :=
  written.foldl (fun fields field => field.addTo fields) start

def meant (start : Fields) (written : List WrittenField) : Fields :=
  written.foldl (fun fields field => field.addWhole fields) start

end WrittenField

namespace WrittenField

variable {field : WrittenField}

theorem IsWellFormed.first_ne_nil (wellFormed : field.IsWellFormed) : field.first ≠ [] := by
  intro empty
  exact wellFormed.pieces field.begun List.mem_cons_self (by rw [begun, empty]; rfl)

theorem IsWellFormed.lineText_first (wellFormed : field.IsWellFormed) :
    Reader.lineText (field.name ++ 58 :: field.first) =
      Text.latin1 field.name ++ ':' :: Reader.lineText field.first := by
  have split : field.name ++ 58 :: field.first = (field.name ++ [58]) ++ field.first := by simp
  rw [Reader.lineText, split, Reader.dropReturn_append _ wellFormed.first_ne_nil,
    Text.latin1_append, Text.latin1_append, List.append_assoc]
  rfl

theorem lineText_line (folded : FoldedLine) (filled : folded.piece ≠ []) :
    ∃ blank, (blank = ' ' ∨ blank = '\t') ∧
      Reader.lineText folded.line = blank :: Reader.lineText folded.text := by
  have nonempty : folded.text ≠ [] := by
    intro empty
    exact filled (by rw [FoldedLine.piece, empty]; rfl)
  have split : folded.line = [if folded.isTab then 9 else 32] ++ folded.text := rfl
  rw [Reader.lineText, split, Reader.dropReturn_append _ nonempty, Text.latin1_append]
  cases folded.isTab with
  | true => exact ⟨'\t', .inr rfl, rfl⟩
  | false => exact ⟨' ', .inl rfl, rfl⟩

/-- Every line of a field is a line of a head. -/
theorem IsWellFormed.isLine (wellFormed : field.IsWellFormed) :
    ∀ line ∈ field.lines, Reader.IsLine line := by
  intro line member
  refine ⟨wellFormed.single line member, ?_⟩
  rcases List.mem_cons.1 member with rfl | continued
  · simp [wellFormed.lineText_first]
  · obtain ⟨folded, listed, rfl⟩ := List.mem_map.1 continued
    have filled : folded.piece ≠ [] :=
      wellFormed.pieces _ (List.mem_cons_of_mem _ (List.mem_map_of_mem listed))
    obtain ⟨blank, -, read⟩ := lineText_line folded filled
    simp [read]

private theorem addLines_folded {more : List FoldedLine}
    (filled : ∀ folded ∈ more, folded.piece ≠ [])
    (draft : Reader.Draft) (closed : draft.open? = none) (begun : draft.fields ≠ []) :
    draft.addLines (more.map FoldedLine.line) =
      { draft with
        fields := (more.map FoldedLine.piece).foldl Fields.extendLast draft.fields } := by
  induction more generalizing draft with
  | nil => rfl
  | cons folded more ih =>
    simp only [List.forall_mem_cons] at filled
    obtain ⟨blank, isBlank, read⟩ := lineText_line folded filled.1
    obtain ⟨continued, extended, kept⟩ := Fields.extendLast?_of_ne_nil begun folded.piece
    have added : draft.add (Reader.lineText folded.line) = { draft with fields := continued } := by
      rw [read]
      refine Reader.Draft.add_of_folded closed isBlank ?_
      rw [Reader.trim_lineText]
      exact extended
    rw [List.map_cons, Reader.Draft.addLines_cons, added]
    rw [ih filled.2 { draft with fields := continued } closed kept]
    rw [List.map_cons, List.foldl_cons, Fields.extendLast_of_some extended]

/-- The lines of a field do to a draft what reading it does to the fields. -/
theorem IsWellFormed.addLines (wellFormed : field.IsWellFormed) (draft : Reader.Draft)
    (closed : draft.open? = none) :
    draft.addLines field.lines = { draft with fields := field.addTo draft.fields } := by
  have filled : ∀ folded ∈ field.more, folded.piece ≠ [] := fun folded listed =>
    wellFormed.pieces _ (List.mem_cons_of_mem _ (List.mem_map_of_mem listed))
  have begun : draft.add (Reader.lineText (field.name ++ 58 :: field.first)) =
      { draft with fields := draft.fields.append field.key field.begun } := by
    rw [wellFormed.lineText_first, Reader.Draft.add_of_field closed wellFormed.uncut
      wellFormed.noStatus wellFormed.unfolded wellFormed.noBlock, Reader.trim_lineText]
    rfl
  rw [lines, Reader.Draft.addLines_cons, begun]
  exact addLines_folded filled _ closed (Fields.append_ne_nil _ _ _)

private theorem addLines_flatMap {fields : List WrittenField}
    (wellFormed : ∀ field ∈ fields, field.IsWellFormed) (draft : Reader.Draft)
    (closed : draft.open? = none) :
    draft.addLines (fields.flatMap lines) =
      { draft with fields := taken draft.fields fields } := by
  induction fields generalizing draft with
  | nil => rfl
  | cons field rest ih =>
    simp only [List.forall_mem_cons] at wellFormed
    rw [List.flatMap_cons, Reader.Draft.addLines_append, wellFormed.1.addLines draft closed,
      ih wellFormed.2 { draft with fields := field.addTo draft.fields } closed]
    rfl

/-! ## Where the pieces go -/

theorem intercalate_cons (first : Text) (rest : List Text) :
    List.intercalate [' '] (first :: rest) = first ++ rest.flatMap fun piece => ' ' :: piece := by
  induction rest generalizing first with
  | nil => simp [List.intercalate]
  | cons second rest ih =>
    have step : List.intercalate [' '] (first :: second :: rest) =
        first ++ ' ' :: List.intercalate [' '] (second :: rest) := by
      simp [List.intercalate]
    rw [step, ih second, List.flatMap_cons, List.cons_append]

private theorem foldl_extendLast_of_isNewest {fields : Fields} {name : Text}
    (newest : fields.IsNewest name) {value : Text} (filled : value ≠ []) (pieces : List Text) :
    pieces.foldl Fields.extendLast (fields.append name value) =
      fields.append name (List.intercalate [' '] (value :: pieces)) := by
  induction pieces generalizing value with
  | nil => rw [intercalate_cons, List.flatMap_nil, List.append_nil]; rfl
  | cons piece pieces ih =>
    have joined : Fields.continued value piece = value ++ ' ' :: piece := by
      simp [Fields.continued, filled]
    have extended := Fields.extendLast?_append_of_isNewest newest value piece
    rw [List.foldl_cons, Fields.extendLast_of_some extended, joined, ih (by simp),
      intercalate_cons, intercalate_cons, List.flatMap_cons, List.append_assoc]

theorem IsWellFormed.addTo_of_isNewest (wellFormed : field.IsWellFormed) {fields : Fields}
    (newest : fields.IsNewest field.key) : field.addTo fields = field.addWhole fields :=
  foldl_extendLast_of_isNewest newest (wellFormed.pieces _ List.mem_cons_self) _

private theorem addTo_of_unfolded (unfolded : field.more = []) (fields : Fields) :
    field.addTo fields = field.addWhole fields := by
  simp [addTo, addWhole, value, pieces, unfolded]

/-- A value of a name has gone another way in one list than in the other, and is past
being continued. -/
structure Strays (name : Text) (fields others : Fields) : Prop where
  settled : ¬ fields.IsNewest name
  apart : ∃ (place : Nat) (left right : Text), (fields.getAll name)[place]? = some left ∧
    (others.getAll name)[place]? = some right ∧ left ≠ right

namespace Strays

variable {name : Text} {fields others : Fields}

theorem ne (strays : Strays name fields others) : fields ≠ others := by
  rintro rfl
  obtain ⟨place, left, right, found, same, differ⟩ := strays.apart
  rw [found] at same
  exact differ (Option.some.inj same)

private theorem getElem?_append_of_some {values : List Text} {place : Nat} {value : Text}
    (found : values[place]? = some value) (more : List Text) :
    (values ++ more)[place]? = some value := by
  obtain ⟨bound, rfl⟩ := List.getElem?_eq_some_iff.1 found
  simp [List.getElem?_append_left bound]

theorem append (strays : Strays name fields others) (other left right : Text) :
    Strays name (fields.append other left) (others.append other right) := by
  refine ⟨Fields.not_isNewest_append strays.settled other left, ?_⟩
  obtain ⟨place, first, second, found, beside, differ⟩ := strays.apart
  refine ⟨place, first, second, ?_, ?_, differ⟩
  · rw [Fields.getAll_append]
    split
    · exact getElem?_append_of_some found _
    · exact found
  · rw [Fields.getAll_append]
    split
    · exact getElem?_append_of_some beside _
    · exact beside

theorem extendLast? (strays : Strays name fields others) {continued : Fields} {more : Text}
    (extended : fields.extendLast? more = some continued) : Strays name continued others := by
  refine ⟨?_, ?_⟩
  · rw [Fields.IsNewest, Fields.names_extendLast? extended]
    exact strays.settled
  · rw [Fields.getAll_extendLast? strays.settled extended]
    exact strays.apart

theorem foldl_extendLast (strays : Strays name fields others) (pieces : List Text) :
    Strays name (pieces.foldl Fields.extendLast fields) others := by
  induction pieces generalizing fields with
  | nil => exact strays
  | cons piece pieces ih =>
    rw [List.foldl_cons]
    cases extended : fields.extendLast? piece with
    | none =>
      rw [Fields.extendLast, extended]
      exact ih strays
    | some continued =>
      rw [Fields.extendLast_of_some extended]
      exact ih (strays.extendLast? extended)

/-- Whatever is read next, the lists stay apart. -/
theorem foldl (strays : Strays name fields others) (more : List WrittenField) :
    Strays name (taken fields more) (meant others more) := by
  induction more generalizing fields others with
  | nil => exact strays
  | cons field more ih =>
    exact ih ((strays.append field.key field.begun field.value).foldl_extendLast _)

end Strays

private theorem begun_ne_value (folded : field.more ≠ []) : field.begun ≠ field.value := by
  rw [value, pieces, intercalate_cons]
  cases lines : field.more with
  | nil => exact absurd lines folded
  | cons next rest => simp

/-- A folded field whose name is not the newest is read as another value. -/
theorem strays (folded : field.more ≠ []) {fields : Fields}
    (settled : ¬ fields.IsNewest field.key) :
    Strays field.key (field.addTo fields) (field.addWhole fields) := by
  have begun : Strays field.key (fields.append field.key field.begun) (field.addWhole fields) := by
    refine ⟨Fields.not_isNewest_append settled _ _, ?_⟩
    refine ⟨(fields.getAll field.key).length, field.begun, field.value, ?_, ?_, ?_⟩
    · simp [Fields.getAll_append]
    · simp [addWhole, Fields.getAll_append]
    · exact begun_ne_value folded
  exact begun.foldl_extendLast _

theorem taken_eq_meant_iff {written : List WrittenField}
    (wellFormed : ∀ field ∈ written, field.IsWellFormed) (start : Fields) :
    taken start written = meant start written ↔
      ∀ before field after, written = before ++ field :: after → field.more ≠ [] →
        (meant start before).IsNewest field.key := by
  induction written generalizing start with
  | nil => simp [taken, meant]
  | cons first rest ih =>
    simp only [List.forall_mem_cons] at wellFormed
    obtain ⟨head, tail⟩ := wellFormed
    have onward : (∀ before field after, first :: rest = before ++ field :: after →
        field.more ≠ [] → (meant start before).IsNewest field.key) ↔
      (first.more ≠ [] → start.IsNewest first.key) ∧
        ∀ before field after, rest = before ++ field :: after → field.more ≠ [] →
          (meant (first.addWhole start) before).IsNewest field.key := by
      constructor
      · intro placed
        exact ⟨placed [] first rest rfl, fun before field after split =>
          placed (first :: before) field after (by rw [split, List.cons_append])⟩
      · rintro ⟨here, there⟩ before field after split folded
        cases before with
        | nil =>
          cases split
          exact here folded
        | cons other before =>
          cases split
          exact there before field after rfl folded
    have step : taken start (first :: rest) = taken (first.addTo start) rest := rfl
    have ideal : meant start (first :: rest) = meant (first.addWhole start) rest := rfl
    rw [onward, step, ideal]
    by_cases fits : first.more ≠ [] → start.IsNewest first.key
    · have same : first.addTo start = first.addWhole start := by
        by_cases folded : first.more = []
        · exact addTo_of_unfolded folded start
        · exact head.addTo_of_isNewest (fits folded)
      rw [same, ih tail]
      exact (and_iff_right fits).symm
    · constructor
      · intro same
        rw [Classical.not_imp] at fits
        exact absurd same ((strays fits.1 fits.2).foldl rest).ne
      · exact fun placed => absurd placed.1 fits

/-! ## Names in the order in which they come -/

private theorem eraseDups_concat (keys : List Text) (key : Text) :
    (keys ++ [key]).eraseDups =
      if key ∈ keys then keys.eraseDups else keys.eraseDups ++ [key] := by
  rw [List.eraseDups_append]
  by_cases known : key ∈ keys <;> simp [List.removeAll, known, List.eraseDups_cons]

theorem lower_key (field : WrittenField) : Text.lower field.key = field.key :=
  Text.lower_lower _

theorem lower_of_mem_map_key {written : List WrittenField} {name : Text}
    (member : name ∈ written.map key) : Text.lower name = name := by
  obtain ⟨field, -, rfl⟩ := List.mem_map.1 member
  exact lower_key field

private theorem names_meant (written : List WrittenField) :
    (meant [] written).names = (written.map key).eraseDups := by
  induction written using List.reverseRecOn with
  | nil => rfl
  | append_singleton written field ih =>
    have known : (meant [] written).contains field.key = true ↔ field.key ∈ written.map key := by
      rw [Fields.contains_iff, ih, lower_key]
      simp only [List.mem_eraseDups]
      constructor
      · rintro ⟨earlier, member, same⟩
        rwa [← same, lower_of_mem_map_key member]
      · exact fun member => ⟨field.key, member, lower_key field⟩
    have step : meant [] (written ++ [field]) = field.addWhole (meant [] written) := by
      simp [meant]
    rw [step, addWhole, Fields.names_append, List.map_append, List.map_singleton,
      eraseDups_concat, ih]
    simp only [known]

theorem isNewest_meant_iff (written : List WrittenField) (field : WrittenField) :
    (meant [] written).IsNewest field.key ↔
      field.key ∉ (written.map key).eraseDups.dropLast := by
  rw [Fields.IsNewest, names_meant, lower_key]
  have lowered : ∀ earlier ∈ (written.map key).eraseDups.dropLast,
      Text.lower earlier = earlier := fun earlier member =>
    lower_of_mem_map_key (List.mem_eraseDups.1 (List.dropLast_subset _ member))
  constructor
  · exact fun newest member => newest _ member (lowered _ member)
  · intro absent earlier member same
    rw [lowered earlier member] at same
    exact absent (same ▸ member)

/-! ## Heads -/

theorem IsWellFormed.value_ne_nil (wellFormed : field.IsWellFormed) : field.value ≠ [] := by
  have begun := wellFormed.pieces field.begun List.mem_cons_self
  rw [value, WrittenField.pieces, intercalate_cons]
  simp [begun]

theorem Unfolds.isWellFormed {whole : WrittenField} (unfolds : field.Unfolds whole)
    (wellFormed : field.IsWellFormed) : whole.IsWellFormed := by
  have line : 10 ∉ field.name ++ 58 :: field.first := wellFormed.single _ List.mem_cons_self
  simp only [List.mem_append, not_or] at line
  have name := unfolds.name
  constructor
  · intro text member
    rw [lines, unfolds.more, name, List.map_nil, List.mem_singleton] at member
    simp [member, line.1, unfolds.single]
  · exact name ▸ wellFormed.uncut
  · exact name ▸ wellFormed.noStatus
  · exact name ▸ wellFormed.unfolded
  · exact name ▸ wellFormed.noBlock
  · intro piece member
    rw [pieces, unfolds.more, unfolds.begun, List.map_nil, List.mem_singleton] at member
    exact member ▸ wellFormed.value_ne_nil

theorem Unfolds.addTo {whole : WrittenField} (unfolds : field.Unfolds whole) (fields : Fields) :
    whole.addTo fields = field.addWhole fields := by
  have key : whole.key = field.key := by rw [WrittenField.key, unfolds.name, WrittenField.key]
  simp [WrittenField.addTo, addWhole, unfolds.more, unfolds.begun, key]

private theorem taken_of_unfolds {written whole : List WrittenField}
    (unfolds : List.Forall₂ Unfolds written whole) (start : Fields) :
    taken start whole = meant start written := by
  induction unfolds generalizing start with
  | nil => rfl
  | cons first _ ih =>
    rw [taken, List.foldl_cons, first.addTo]
    exact ih _

private theorem isWellFormed_of_unfolds {written whole : List WrittenField}
    (unfolds : List.Forall₂ Unfolds written whole)
    (wellFormed : ∀ field ∈ written, field.IsWellFormed) :
    ∀ field ∈ whole, field.IsWellFormed := by
  induction unfolds with
  | nil => simp
  | cons first _ ih =>
    simp only [List.forall_mem_cons] at wellFormed ⊢
    exact ⟨first.isWellFormed wellFormed.1, ih wellFormed.2⟩

end WrittenField

namespace Reader

open WrittenField (key)

private theorem fields_readHead_of_brings {feed : Feed} (limit : Nat) (url : Text) {status : Bytes}
    (statusLine : IsLine status) (final : Status.code? (lineText status) ≠ some 100)
    {written : List WrittenField} (wellFormed : ∀ field ∈ written, field.IsWellFormed)
    {closing body : Bytes} (closes : Closes closing body)
    (brings : feed.Brings (wire (status :: written.flatMap WrittenField.lines) ++ closing)) :
    ∃ head, (readHead (.start feed limit url)).1 = .ok head ∧
      head.fields = WrittenField.taken [] written := by
  have lines : ∀ line ∈ written.flatMap WrittenField.lines, IsLine line := by
    intro line member
    obtain ⟨field, listed, inside⟩ := List.mem_flatMap.1 member
    exact (wellFormed field listed).isLine line inside
  have arrives : (Reader.start feed limit url).feed.Brings
      (wire (status :: written.flatMap WrittenField.lines) ++ closing) := brings.divided
  obtain ⟨rest, read, -⟩ := readHead_of_brings statusLine final lines closes arrives
  refine ⟨_, congrArg Prod.fst read, ?_⟩
  rw [WrittenField.addLines_flatMap wellFormed _ rfl]
  rfl

/-- A folded head is read like the same head on whole lines exactly if no other name
has come for the first time between a folded field and the first of its name. -/
theorem readHead_folded_iff {folded straight : Feed} (limit : Nat) (url : Text) {status : Bytes}
    (statusLine : IsLine status) (final : Status.code? (lineText status) ≠ some 100)
    {written whole : List WrittenField} (wellFormed : ∀ field ∈ written, field.IsWellFormed)
    (unfolds : List.Forall₂ WrittenField.Unfolds written whole)
    {closing body ending rest : Bytes} (closes : Closes closing body) (ends : Closes ending rest)
    (brings : folded.Brings (wire (status :: written.flatMap WrittenField.lines) ++ closing))
    (brought : straight.Brings (wire (status :: whole.flatMap WrittenField.lines) ++ ending)) :
    ∃ head other, (readHead (.start folded limit url)).1 = .ok head ∧
      (readHead (.start straight limit url)).1 = .ok other ∧
      (head.fields = other.fields ↔
        ∀ before field after, written = before ++ field :: after → field.more ≠ [] →
          field.key ∉ (before.map key).eraseDups.dropLast) := by
  obtain ⟨head, read, fields⟩ :=
    fields_readHead_of_brings limit url statusLine final wellFormed closes brings
  obtain ⟨other, seen, others⟩ := fields_readHead_of_brings limit url statusLine final
    (WrittenField.isWellFormed_of_unfolds unfolds wellFormed) ends brought
  refine ⟨head, other, read, seen, ?_⟩
  rw [fields, others, WrittenField.taken_of_unfolds unfolds,
    WrittenField.taken_eq_meant_iff wellFormed]
  simp only [WrittenField.isNewest_meant_iff]

/-- The same field twice, folded the second time, and after a line of another. -/
theorem readHead_folded_of_newest :
    ∃ head other,
      (readHead (.start [.piece (Text.utf8
        "HTTP/1.0 200 OK\r\nB: 2\r\nA: 1\n\tx\r\n\r\nbody".toList)] 0 [])).1 = .ok head ∧
      (readHead (.start [.piece (Text.utf8
        "HTTP/1.0 200 OK\r\nB: 2\r\nA:1 x\n\n".toList)] 0 [])).1 = .ok other ∧
      head.fields = other.fields := by
  let other : WrittenField := ⟨Text.utf8 "B".toList, Text.utf8 " 2\r".toList, []⟩
  let folded : WrittenField :=
    ⟨Text.utf8 "A".toList, Text.utf8 " 1".toList, [⟨true, Text.utf8 "x\r".toList⟩]⟩
  let joined : WrittenField := ⟨Text.utf8 "A".toList, Text.utf8 "1 x".toList, []⟩
  have statusLine : IsLine (Text.utf8 "HTTP/1.0 200 OK\r".toList) :=
    ⟨by decide +kernel, by decide +kernel⟩
  have wellFormed : ∀ field ∈ [other, folded], field.IsWellFormed := by
    simp only [List.forall_mem_cons]
    refine ⟨?_, ?_, nofun⟩ <;> constructor <;> decide +kernel
  have unfolds : List.Forall₂ WrittenField.Unfolds [other, folded] [other, joined] :=
    .cons ⟨rfl, rfl, by decide +kernel, by decide +kernel⟩
      (.cons ⟨rfl, rfl, by decide +kernel, by decide +kernel⟩ .nil)
  have brings : Feed.Brings
      [.piece (Text.utf8 "HTTP/1.0 200 OK\r\nB: 2\r\nA: 1\n\tx\r\n\r\nbody".toList)]
      (wire (Text.utf8 "HTTP/1.0 200 OK\r".toList ::
        [other, folded].flatMap WrittenField.lines) ++ 13 :: 10 :: Text.utf8 "body".toList) :=
    ⟨[Text.utf8 "HTTP/1.0 200 OK\r\nB: 2\r\nA: 1\n\tx\r\n\r\nbody".toList], rfl,
      by decide +kernel⟩
  have brought : Feed.Brings
      [.piece (Text.utf8 "HTTP/1.0 200 OK\r\nB: 2\r\nA:1 x\n\n".toList)]
      (wire (Text.utf8 "HTTP/1.0 200 OK\r".toList ::
        [other, joined].flatMap WrittenField.lines) ++ [10]) :=
    ⟨[Text.utf8 "HTTP/1.0 200 OK\r\nB: 2\r\nA:1 x\n\n".toList], rfl, by decide +kernel⟩
  obtain ⟨head, straight, read, seen, same⟩ := readHead_folded_iff 0 [] statusLine
    (by decide +kernel) wellFormed unfolds (.returned _) (.feed []) brings brought
  refine ⟨head, straight, read, seen, same.2 ?_⟩
  intro before field after split more
  rcases before with _ | ⟨_, _ | ⟨_, before⟩⟩
  · cases split
    exact absurd rfl more
  · cases split
    decide +kernel
  · simp at split

/-- What continues the second value of `A` is put after the one of `B`. -/
theorem readHead_folded_of_older :
    (readHead (.start [.piece (Text.utf8
        "HTTP/1.0 200 OK\r\nA: 1\r\nB: 2\r\nA: 3\r\n x\r\n\r\n".toList)] 0 [])).1.map Head.fields =
      .ok [⟨"a".toList, ["1".toList, "3".toList]⟩, ⟨"b".toList, ["2 x".toList]⟩] ∧
    (readHead (.start [.piece (Text.utf8
        "HTTP/1.0 200 OK\r\nA: 1\r\nB: 2\r\nA: 3 x\r\n\r\n".toList)] 0 [])).1.map Head.fields =
      .ok [⟨"a".toList, ["1".toList, "3 x".toList]⟩, ⟨"b".toList, ["2".toList]⟩] := by
  decide +kernel

end Reader

end WebClient
