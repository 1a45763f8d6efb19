import WebClient.Proofs.RequestHead
import WebClient.Proofs.Runs

/-!
# Reading the head of a request back

A head that is split at its line endings, and each field line at its first colon and
blank, gives the request line and the fields of the request in order. The only empty line
is the one that ends the head.
-/

set_option autoImplicit false

namespace WebClient

namespace Lines

private theorem flatMap_eq_intercalate (mark : Bytes) (lines : List Bytes) :
    lines.flatMap (fun line => line ++ mark) = List.intercalate mark (lines ++ [[]]) := by
  induction lines with
  | nil => simp
  | cons line rest ih =>
    obtain ⟨next, more, split⟩ := List.exists_cons_of_ne_nil (List.concat_ne_nil [] rest)
    rw [List.flatMap_cons, ih, List.cons_append, split, List.intercalate_cons_cons]

/-- Lines are found again between their endings. Behind the last ending there is nothing. -/
theorem splitRun_flatMap_ending (ending : LineEnding) {lines : List Bytes}
    (unbroken : ∀ line ∈ lines, IsUnbroken line) :
    Text.splitRun (Text.utf8 ending.text)
      (lines.flatMap fun line => line ++ Text.utf8 ending.text) = lines ++ [[]] := by
  have all := isUnbroken_of_mem_concat unbroken
  rw [flatMap_eq_intercalate]
  -- Either ending is found by its first byte, which no line has.
  cases ending with
  | crlf => exact Text.splitRun_intercalate (by simp) fun line member => (all line member).1
  | lf => exact Text.splitRun_intercalate (by simp) fun line member => (all line member).2

end Lines

namespace Request

/-! ## What a head is to say -/

/-- The fields that a request has at most once, in order, with those of their values that
are set. -/
def settings (request : Request) : List (Text × Option Text) :=
  [("Connection".toList, some (if request.keepAlive then "Keep-Alive".toList else "close".toList)),
    ("Referer".toList, request.referer),
    ("User-Agent".toList, request.userAgent),
    ("Host".toList, request.host),
    ("Accept".toList, request.accept),
    ("Content-type".toList, request.contentType),
    ("Content-encoding".toList, request.contentEncoding),
    ("Authorization".toList, request.authorization.map ("Basic ".toList ++ ·))]

def lengthField : Body → List (Text × Text)
  | .empty => []
  | .bytes data => [("Content-length".toList, Text.ofNat data.length)]
  | .source _ declared => [("Content-length".toList, Text.ofNat declared)]

/-- All fields that a head is to have: those that are set, the further ones, the length. -/
def announced (request : Request) : List (Text × Text) :=
  request.settings.flatMap (fun (name, value) => (value.map (name, ·)).toList)
    ++ request.extra ++ lengthField request.body

theorem fields_eq_announced {request : Request} (full : request.method ≠ .shortGet) :
    request.fields = request.announced := by
  have declared : optional "Content-length" (request.body.length?.map Text.ofNat) =
      lengthField request.body := by
    cases request.body <;> rfl
  unfold fields
  split
  · contradiction
  · rw [declared]
    simp only [announced, settings, List.flatMap_cons, List.flatMap_nil, List.append_assoc,
      List.append_nil, optional, Option.map_some, Option.toList_some]

/-- Strings without line endings, and further names without the mark that ends a name. -/
structure IsClean (request : Request) : Prop where
  target : request.target.IsUnbroken
  referer : ∀ text ∈ request.referer, text.IsUnbroken
  userAgent : ∀ text ∈ request.userAgent, text.IsUnbroken
  host : ∀ text ∈ request.host, text.IsUnbroken
  accept : ∀ text ∈ request.accept, text.IsUnbroken
  contentType : ∀ text ∈ request.contentType, text.IsUnbroken
  contentEncoding : ∀ text ∈ request.contentEncoding, text.IsUnbroken
  authorization : ∀ text ∈ request.authorization, text.IsUnbroken
  extra : ∀ field ∈ request.extra, field.1.IsUnbroken ∧ field.2.IsUnbroken
  unmarked : ∀ field ∈ request.extra, ':' ∉ field.1

def IsReadable (field : Text × Text) : Prop :=
  (field.1.IsUnbroken ∧ field.2.IsUnbroken) ∧ ':' ∉ field.1

variable {request : Request}

private theorem isReadable_lengthField (body : Body) :
    ∀ field ∈ lengthField body, IsReadable field := by
  have name : Text.IsUnbroken "Content-length".toList := by decide
  have unmarked : ':' ∉ "Content-length".toList := by decide
  cases body with
  | empty => exact fun field member => nomatch member
  | bytes data =>
    rintro field (⟨⟩ | ⟨_, ⟨⟩⟩)
    exact ⟨⟨name, Text.isUnbroken_ofNat _⟩, unmarked⟩
  | source feed declared =>
    rintro field (⟨⟩ | ⟨_, ⟨⟩⟩)
    exact ⟨⟨name, Text.isUnbroken_ofNat _⟩, unmarked⟩

theorem IsClean.isUnbroken_settings (clean : request.IsClean) :
    ∀ setting ∈ request.settings, (setting.1.IsUnbroken ∧ ':' ∉ setting.1) ∧
      ∀ value ∈ setting.2, value.IsUnbroken := by
  simp only [settings, List.forall_mem_cons]
  refine ⟨⟨by decide, ?_⟩, ⟨by decide, clean.referer⟩, ⟨by decide, clean.userAgent⟩,
    ⟨by decide, clean.host⟩, ⟨by decide, clean.accept⟩, ⟨by decide, clean.contentType⟩,
    ⟨by decide, clean.contentEncoding⟩, ⟨by decide, ?_⟩, fun _ none => nomatch none⟩
  · rintro value ⟨⟩
    cases request.keepAlive <;> decide
  · intro value given
    obtain ⟨token, known, rfl⟩ := Option.map_eq_some_iff.1 given
    have scheme : Text.IsUnbroken "Basic ".toList := by decide
    exact Text.isUnbroken_append.2 ⟨scheme, clean.authorization token known⟩

theorem IsClean.isReadable_announced (clean : request.IsClean) :
    ∀ field ∈ request.announced, IsReadable field := by
  intro field member
  rw [announced, List.mem_append, List.mem_append] at member
  rcases member with (set | further) | declared
  · obtain ⟨⟨name, value⟩, listed, given⟩ := List.mem_flatMap.1 set
    obtain ⟨text, known, rfl⟩ := Option.map_eq_some_iff.1 (Option.mem_toList.1 given)
    obtain ⟨⟨unbroken, unmarked⟩, values⟩ := clean.isUnbroken_settings _ listed
    exact ⟨⟨unbroken, values text known⟩, unmarked⟩
  · exact ⟨clean.extra field further, clean.unmarked field further⟩
  · exact isReadable_lengthField request.body field declared

theorem IsClean.isUnbroken_headLines (clean : request.IsClean)
    (full : request.method ≠ .shortGet) : ∀ line ∈ request.headLines, line.IsUnbroken := by
  rw [isUnbroken_headLines_iff, isUnbroken_requestLine_iff, fields_eq_announced full]
  exact ⟨clean.target, fun field member => (clean.isReadable_announced field member).1⟩

/-! ## Reading it -/

private theorem cutRun?_line {name : Text} (unmarked : ':' ∉ name) (value : Text) :
    Text.cutRun? (Text.utf8 ": ".toList) (Text.utf8 (name ++ ": ".toList ++ value)) =
      some (name.utf8, value.utf8) := by
  have mark : Text.utf8 ": ".toList = [58, 32] := by decide
  have absent : (58 : UInt8) ∉ name.utf8 := by
    have ascii : ':'.toNat < 128 := by decide
    exact fun member => unmarked ((Text.mem_utf8_iff ascii).1 member)
  rw [Text.utf8_append, Text.utf8_append, mark]
  exact Text.cutRun?_append_of_absent absent value.utf8

private theorem splitRun_head_eq (ending : LineEnding)
    (unbroken : ∀ line ∈ request.headLines, line.IsUnbroken) :
    Text.splitRun (Text.utf8 ending.text) (request.head ending) =
      request.headLines.map Text.utf8 ++ [[], []] := by
  rw [head_eq_flatMap, Lines.splitRun_flatMap_ending _ (isUnbroken_utf8_headLines unbroken),
    List.append_assoc]
  rfl

private theorem utf8_ne_nil {text : Text} (occupied : text ≠ []) : text.utf8 ≠ [] := by
  obtain ⟨first, rest, rfl⟩ := List.exists_cons_of_ne_nil occupied
  simp [Text.utf8, String.utf8EncodeChar_ne_nil]

/-- The head of a clean request, split at the line ending, is the request line and one
line for each announced field, which the first colon and blank divide into its name and
its value. One empty line ends the head, no other line is empty, and nothing comes behind
the last ending. -/
theorem splitRun_head (request : Request) (ending : LineEnding)
    (full : request.method ≠ .shortGet) (clean : request.IsClean) :
    ∃ (first : Bytes) (fields : List Bytes),
      Text.splitRun (Text.utf8 ending.text) (request.head ending) =
        first :: fields ++ [[], []] ∧
      first = Text.utf8 (request.method.verb ++ ' ' :: request.target ++ " HTTP/1.0".toList) ∧
      fields.map (Text.cutRun? (Text.utf8 ": ".toList)) =
        request.announced.map (fun field => some (field.1.utf8, field.2.utf8)) ∧
      [] ∉ first :: fields := by
  have line : request.requestLine =
      request.method.verb ++ ' ' :: request.target ++ " HTTP/1.0".toList := by
    unfold requestLine
    split
    · contradiction
    · rfl
  have lines : request.headLines.map Text.utf8 = request.requestLine.utf8 ::
      request.announced.map fun field => Text.utf8 (field.1 ++ ": ".toList ++ field.2) := by
    rw [headLines, fields_eq_announced full, List.map_cons, List.map_map]
    rfl
  -- Of the two empty pieces one is the blank line, the other is what comes behind its ending.
  refine ⟨request.requestLine.utf8,
    request.announced.map fun field => Text.utf8 (field.1 ++ ": ".toList ++ field.2),
    ?_, congrArg Text.utf8 line, ?_, ?_⟩
  · rw [splitRun_head_eq ending (clean.isUnbroken_headLines full), lines]
  · rw [List.map_map]
    refine List.map_congr_left fun field member => ?_
    exact cutRun?_line (clean.isReadable_announced field member).2 field.2
  · rw [← lines]
    intro member
    obtain ⟨text, listed, empty⟩ := List.mem_map.1 member
    exact utf8_ne_nil (request.headLines_ne_nil text listed) empty

/-- A post with an empty referer, marks within its values and a further field without a
value. -/
theorem splitRun_head_of_empty_values :
    let request : Request :=
      { plain .post "/a?x: y".toList with
        referer := some []
        host := some "h.com:81".toList
        accept := some ": ".toList
        authorization := some "dTpw".toList
        extra := [("X".toList, []), ([], "z: w".toList)]
        body := .bytes [1, 2, 3] }
    request.method ≠ .shortGet ∧ request.IsClean ∧
      ∃ (first : Bytes) (fields : List Bytes),
        Text.splitRun (Text.utf8 LineEnding.crlf.text) (request.head .crlf) =
          first :: fields ++ [[], []] ∧
        first = Text.utf8 "POST /a?x: y HTTP/1.0".toList ∧
        fields.map (Text.cutRun? (Text.utf8 ": ".toList)) =
          [("Connection", "close"), ("Referer", ""), ("Host", "h.com:81"), ("Accept", ": "),
            ("Authorization", "Basic dTpw"), ("X", ""), ("", "z: w"), ("Content-length", "3")].map
              (fun field => some (Text.utf8 field.1.toList, Text.utf8 field.2.toList)) ∧
        [] ∉ first :: fields := by
  intro request
  have full : request.method ≠ .shortGet := by decide
  have clean : request.IsClean := by
    constructor <;> decide
  exact ⟨full, clean, splitRun_head request .crlf full clean⟩

end Request

end WebClient
