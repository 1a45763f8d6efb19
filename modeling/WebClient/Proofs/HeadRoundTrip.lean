import WebClient.Proofs.FieldList
import WebClient.Proofs.Latin1
import WebClient.Proofs.Lines
import WebClient.Proofs.ReadHead

/-!
# Heads sent and read again

A head is sent as its status line, its fields and a blank line, and each of these
lines may end in either way. Reading it gives the status line and the fields back,
and leaves what was sent after the blank line.
-/

set_option autoImplicit false

namespace WebClient

namespace Text

private theorem length_trim_le (text : Text) : (trim text).length ≤ text.length :=
  (infix_trim text).length_le

private theorem isBlank_of_trim_cons {first : Char} {rest : Text}
    (trimmed : trim (first :: rest) = first :: rest) : isBlank first = false := by
  cases blank : isBlank first with
  | false => rfl
  | true =>
    have shorter := length_trim_le rest
    rw [trim_cons blank] at trimmed
    rw [trimmed, List.length_cons] at shorter
    omega

end Text

/-! ## Sent heads -/

structure SentField where
  name : Text
  value : Text
  ending : LineEnding

namespace SentField

def text (field : SentField) : Text :=
  field.name ++ ": ".toList ++ field.value

structure IsWellFormed (field : SentField) : Prop where
  narrow : field.text.IsNarrow
  unbroken : field.text.IsUnbroken
  nonempty : field.name ≠ []
  trimmedName : Text.trim field.name = field.name
  uncut : ':' ∉ field.name
  noStatus : ¬ "HTTP".toList <+: field.name
  noBlock : ∀ first second third rest, field.name = first :: second :: third :: '-' :: rest →
    ¬ (first.isDigit ∧ second.isDigit ∧ third.isDigit)
  trimmedValue : Text.trim field.value = field.value

def addTo (fields : Fields) (field : SentField) : Fields :=
  fields.append (Text.lower field.name) field.value

end SentField

structure SentHead where
  statusLine : Text
  ending : LineEnding
  fields : List SentField
  closing : LineEnding

namespace SentHead

def lines (head : SentHead) : List (Text × LineEnding) :=
  (head.statusLine, head.ending) :: head.fields.map fun field => (field.text, field.ending)

def bytes (head : SentHead) : Bytes :=
  (head.lines.flatMap fun line => Text.octets (line.1 ++ line.2.text)) ++
    Text.octets head.closing.text

structure IsWellFormed (head : SentHead) : Prop where
  narrow : head.statusLine.IsNarrow
  unbroken : head.statusLine.IsUnbroken
  nonempty : head.statusLine ≠ []
  final : Status.code? head.statusLine ≠ some 100
  fields : ∀ field ∈ head.fields, field.IsWellFormed

def head (sent : SentHead) : Head where
  statusLine := sent.statusLine
  code := (Status.code? sent.statusLine).getD 0
  fields := sent.fields.foldl SentField.addTo []
  continuation := []

end SentHead

/-! ## Lines of a sent head -/

def LineEnding.line (ending : LineEnding) (text : Text) : Bytes :=
  match ending with
  | .crlf => text.octets ++ [13]
  | .lf => text.octets

namespace Reader

private theorem octets_append_ending (text : Text) (ending : LineEnding) :
    Text.octets (text ++ ending.text) = ending.line text ++ [10] := by
  rw [Text.octets_append]
  cases ending with
  | crlf => simp [LineEnding.line, LineEnding.text, Text.octets]
  | lf => rfl

theorem lineText_line {text : Text} (narrow : text.IsNarrow) (unbroken : text.IsUnbroken)
    (ending : LineEnding) : lineText (ending.line text) = text := by
  cases ending with
  | crlf => simp [lineText, LineEnding.line, dropReturn, Text.latin1_octets narrow]
  | lf =>
    have noReturn : text.octets.getLast? ≠ some 13 := fun last =>
      Text.not_mem_octets narrow unbroken.1 (by decide) (List.mem_of_getLast? last)
    simp [lineText, LineEnding.line, dropReturn, noReturn, Text.latin1_octets narrow]

private theorem isLine_line {text : Text} (narrow : text.IsNarrow) (unbroken : text.IsUnbroken)
    (nonempty : text ≠ []) (ending : LineEnding) : IsLine (ending.line text) := by
  have noFeed : 10 ∉ text.octets := Text.not_mem_octets narrow unbroken.2 (by decide)
  constructor
  · cases ending with
    | crlf => simp [LineEnding.line, noFeed]
    | lf => exact noFeed
  · rwa [lineText_line narrow unbroken]

private theorem octets_blank (closing : LineEnding) (body : Bytes) :
    Closes (Text.octets closing.text ++ body) body := by
  cases closing with
  | crlf => exact .returned body
  | lf => exact .feed body

/-- A head on the wire is the lines that a reader meets, and what ends them. -/
theorem bytes_eq_wire (sent : SentHead) :
    sent.bytes =
      wire (sent.lines.map fun line => line.2.line line.1) ++ Text.octets sent.closing.text := by
  simp only [SentHead.bytes, wire, List.flatMap_map, octets_append_ending]

end Reader

/-! ## Reading them -/

namespace SentField

variable {field : SentField}

theorem IsWellFormed.isFolded (wellFormed : field.IsWellFormed) :
    Reader.Draft.isFolded field.name = false := by
  cases named : field.name with
  | nil => rfl
  | cons first rest =>
    have trimmed := wellFormed.trimmedName
    rw [named] at trimmed
    have solid := Text.isBlank_of_trim_cons trimmed
    unfold Reader.Draft.isFolded
    split
    · rename_i same
      cases same
      cases solid
    · rename_i same
      cases same
      cases solid
    · rfl

theorem IsWellFormed.blockCode? (wellFormed : field.IsWellFormed) :
    Reader.blockCode? field.name = none := by
  unfold Reader.blockCode?
  split
  · rename_i first second third rest same
    rw [if_neg]
    simpa only [Bool.and_eq_true, and_assoc] using wellFormed.noBlock first second third rest same
  · rfl

theorem IsWellFormed.add (wellFormed : field.IsWellFormed) (draft : Reader.Draft)
    (closed : draft.open? = none) :
    draft.add field.text = { draft with fields := addTo draft.fields field } := by
  have noStatus : "HTTP".toList.isPrefixOf field.name = false := by
    rw [← Bool.not_eq_true, List.isPrefixOf_iff_prefix]
    exact wellFormed.noStatus
  have text : field.text = field.name ++ ':' :: (' ' :: field.value) := by
    rw [SentField.text, List.append_assoc]
    rfl
  rw [text, Reader.Draft.add_of_field closed wellFormed.uncut noStatus wellFormed.isFolded
    wellFormed.blockCode?, Text.trim_cons (by decide), wellFormed.trimmedName,
    wellFormed.trimmedValue]
  rfl

theorem IsWellFormed.text_ne_nil (wellFormed : field.IsWellFormed) : field.text ≠ [] := by
  simp [text, wellFormed.nonempty]

private theorem addLines_sent {fields : List SentField}
    (wellFormed : ∀ field ∈ fields, field.IsWellFormed) (draft : Reader.Draft)
    (closed : draft.open? = none) :
    draft.addLines (fields.map fun field => field.ending.line field.text) =
      { draft with fields := fields.foldl addTo draft.fields } := by
  induction fields generalizing draft with
  | nil => rfl
  | cons field rest ih =>
    simp only [List.forall_mem_cons] at wellFormed
    obtain ⟨first, others⟩ := wellFormed
    rw [List.map_cons, Reader.Draft.addLines_cons, Reader.lineText_line first.narrow first.unbroken,
      first.add draft closed, ih others { draft with fields := addTo draft.fields field } closed]
    rfl

/-- All values of a name are there, in the order in which they came. -/
theorem getAll_foldl_addTo (sent : List SentField) (start : Fields) (name : Text) :
    (sent.foldl addTo start).getAll name =
      start.getAll name ++
        (sent.filter fun field => Text.sameFolded field.name name).map SentField.value := by
  induction sent generalizing start with
  | nil => simp
  | cons field rest ih =>
    rw [List.foldl_cons, ih, addTo, Fields.getAll_append, Text.lower_lower]
    by_cases same : Text.lower field.name = Text.lower name
    · simp [Text.sameFolded, same]
    · simp [Text.sameFolded, same]

end SentField

namespace Reader

/-- Reading a head that was sent gives its status line and its fields back, in order
and under small letters, and leaves just the bytes that were sent after it. -/
theorem readHead_sent {sent : SentHead} (wellFormed : sent.IsWellFormed) {feed : Feed}
    {body : Bytes} (brings : feed.Brings (sent.bytes ++ body)) (limit : Nat) (url : Text) :
    ∃ after, readHead (.start feed limit url) = (.ok sent.head, after) ∧
      (∀ name, sent.head.fields.getAll name =
        (sent.fields.filter fun field => Text.sameFolded field.name name).map SentField.value) ∧
      after.stage = .body ∧ after.received = 0 ∧ after.feed.Brings body := by
  have statusLine := isLine_line wellFormed.narrow wellFormed.unbroken wellFormed.nonempty
    sent.ending
  have statusText := lineText_line wellFormed.narrow wellFormed.unbroken sent.ending
  have fieldLines : ∀ line ∈ sent.fields.map fun field => field.ending.line field.text,
      IsLine line := by
    intro line member
    obtain ⟨field, listed, rfl⟩ := List.mem_map.1 member
    have own := wellFormed.fields field listed
    exact isLine_line own.narrow own.unbroken own.text_ne_nil field.ending
  have arrives : (Reader.start feed limit url).feed.Brings
      (wire (sent.ending.line sent.statusLine ::
        sent.fields.map fun field => field.ending.line field.text) ++
          (Text.octets sent.closing.text ++ body)) := by
    have whole := brings.divided
    rw [bytes_eq_wire, List.append_assoc, SentHead.lines, List.map_cons, List.map_map] at whole
    exact whole
  have final : Status.code? (lineText (sent.ending.line sent.statusLine)) ≠ some 100 := by
    rw [statusText]
    exact wellFormed.final
  obtain ⟨rest, read, left⟩ := readHead_of_brings statusLine final fieldLines
    (octets_blank sent.closing body) arrives
  rw [SentField.addLines_sent wellFormed.fields _ rfl, statusText] at read
  refine ⟨_, read, ?_, rfl, rfl, left⟩
  intro name
  exact SentField.getAll_foldl_addTo sent.fields [] name

/-- Two fields of one name, one of them empty, with both kinds of line ending. -/
theorem readHead_sent_of_repeated :
    let sent : SentHead := ⟨"HTTP/1.0 200 OK".toList, .lf,
      [⟨"Set-Cookie".toList, "a=1".toList, .crlf⟩, ⟨"X".toList, "y".toList, .lf⟩,
        ⟨"SET-COOKIE".toList, [], .crlf⟩], .lf⟩
    sent.IsWellFormed ∧
      ∃ after, readHead (.start [.piece (sent.bytes ++ Text.utf8 "\nbody".toList)] 0 []) =
          (.ok sent.head, after) ∧
        sent.head.fields.getAll "set-cookie".toList = ["a=1".toList, []] ∧
        after.stage = .body ∧ after.feed.Brings (Text.utf8 "\nbody".toList) := by
  intro sent
  have wellFormed : sent.IsWellFormed := by
    have dashed : SentField.IsWellFormed ⟨"Set-Cookie".toList, "a=1".toList, .crlf⟩ :=
      ⟨by decide, by decide, by decide, by decide, by decide, by decide,
        by rintro _ _ _ _ ⟨⟩; decide, by decide⟩
    have short : SentField.IsWellFormed ⟨"X".toList, "y".toList, .lf⟩ :=
      ⟨by decide, by decide, by decide, by decide, by decide, by decide, nofun, by decide⟩
    have empty : SentField.IsWellFormed ⟨"SET-COOKIE".toList, [], .crlf⟩ :=
      ⟨by decide, by decide, by decide, by decide, by decide, by decide,
        by rintro _ _ _ _ ⟨⟩; decide, by decide⟩
    refine ⟨by decide, by decide, by decide, by decide +kernel, ?_⟩
    simp only [sent, List.forall_mem_cons]
    exact ⟨dashed, short, empty, nofun⟩
  obtain ⟨after, read, values, stage, -, left⟩ :=
    readHead_sent wellFormed (.piece (sent.bytes ++ Text.utf8 "\nbody".toList)) 0 []
  refine ⟨wellFormed, after, read, (values _).trans ?_, stage, left⟩
  decide +kernel

end Reader

end WebClient
