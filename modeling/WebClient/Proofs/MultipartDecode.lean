import Mathlib.Data.List.Count
import Mathlib.Data.List.TakeWhile
import WebClient.Proofs.Boundary
import WebClient.Proofs.Latin1
import WebClient.Proofs.Lines

/-!
# Reading a multipart form back

A reader of multipart bodies that knows nothing but the boundary. It reads the body as text,
one character for each byte, and gives the values back as bytes, but the names as the text
that it read. It takes the value of a part to end before its last line end, and the name to
stand between quotes.
-/

set_option autoImplicit false

namespace WebClient.Multipart

/-! ## The reader -/

def nameMark : Text :=
  "name=\"".toList

def dropSuffix {α : Type} [DecidableEq α] (run whole : List α) : List α :=
  if run.isSuffixOf whole then whole.take (whole.length - run.length) else whole

def decodePart? (chunk : Text) : Option (Text × Bytes) := do
  let part ← lineEnd.isPrefixOf? chunk
  let (head, value) ← Text.cutRun? (lineEnd ++ lineEnd) part
  let named ← (Text.splitRun nameMark head)[1]?
  return (Text.before '"' named, Text.octets (dropSuffix lineEnd value))

def decodeChunks? : List Text → Option (List (Text × Bytes))
  | [] => some []
  | chunk :: rest =>
    if "--".toList.isPrefixOf chunk then some []
    else do
      let part ← decodePart? chunk
      let parts ← decodeChunks? rest
      return part :: parts

def decode? (boundary : Text) (body : Bytes) : Option (List (Text × Bytes)) :=
  decodeChunks? ((Text.splitRun ("--".toList ++ boundary) (Text.latin1 body)).drop 1)

/-! ## Ends -/

section

variable {α : Type} [DecidableEq α]

theorem dropSuffix_append (front run : List α) : dropSuffix run (front ++ run) = front := by
  simp [dropSuffix]

theorem dropSuffix_of_not_suffix {run whole : List α} (other : ¬ run <:+ whole) :
    dropSuffix run whole = whole := by
  simp [dropSuffix, other]

theorem dropSuffix_eq_self_iff {run whole : List α} (nonempty : run ≠ []) :
    dropSuffix run whole = whole ↔ ¬ run <:+ whole := by
  refine ⟨?_, dropSuffix_of_not_suffix⟩
  rintro same ⟨front, rfl⟩
  rw [dropSuffix_append] at same
  exact nonempty (List.self_eq_append_right.1 same)

end

private theorem dropSuffix_latin1 (run bytes : Bytes) :
    dropSuffix (Text.latin1 run) (Text.latin1 bytes) = Text.latin1 (dropSuffix run bytes) := by
  by_cases ends : run <:+ bytes
  · obtain ⟨front, rfl⟩ := ends
    rw [Text.latin1_append, dropSuffix_append, dropSuffix_append]
  · have other : ¬ Text.latin1 run <:+ Text.latin1 bytes := by
      rintro ⟨front, whole⟩
      have suffix := congrArg Text.octets whole
      rw [Text.octets_append, Text.octets_latin1, Text.octets_latin1] at suffix
      exact ends ⟨_, suffix⟩
    rw [dropSuffix_of_not_suffix ends, dropSuffix_of_not_suffix other]

private theorem dropSuffix_closing (value : Bytes) :
    dropSuffix lineEnd.utf8 (value ++ closing value) = dropSuffix lineEnd.utf8 value := by
  unfold closing
  split
  · rw [List.append_nil]
  · rename_i unended
    have other : ¬ lineEnd.utf8 <:+ value := by
      rintro ⟨front, rfl⟩
      exact unended (by simp [utf8_lineEnd])
    rw [dropSuffix_append, dropSuffix_of_not_suffix other]

/-! ## The name of a part -/

def nameLetters : Text :=
  "name=".toList

theorem utf8_nameMark : nameMark.utf8 = nameLetters.utf8 ++ [34] :=
  rfl

theorem utf8_nameMark_ne_nil : nameMark.utf8 ≠ [] :=
  List.cons_ne_nil _ _

theorem not_mem_nameLetters : 34 ∉ nameLetters.utf8 := by
  have ascii : '"'.toNat < 128 := by decide
  exact fun member => absurd ((Text.mem_utf8_iff ascii).1 member) (by decide)

/-- What stands before the next mark, up to the quote. A name that ends with the letters of
the mark makes one together with the quote after it. -/
theorem takeWhile_head_splitRun {name : Bytes} (unquoted : 34 ∉ name) (rest : Bytes) :
    ∃ named others, Text.splitRun nameMark.utf8 (name ++ 34 :: rest) = named :: others ∧
      named.takeWhile (· ≠ 34) = dropSuffix nameLetters.utf8 name := by
  by_cases ends : nameLetters.utf8 <:+ name
  · obtain ⟨front, rfl⟩ := ends
    simp only [List.mem_append, not_or] at unquoted
    have cut : Text.cutRun? nameMark.utf8 (front ++ nameLetters.utf8 ++ 34 :: rest) =
        some (front, rest) := by
      have found := Text.cutRun?_concat_append unquoted.1 unquoted.2 rest
      simpa [utf8_nameMark] using found
    refine ⟨front, Text.splitRun nameMark.utf8 rest,
      Text.splitRun_of_some utf8_nameMark_ne_nil cut, ?_⟩
    rw [dropSuffix_append, List.takeWhile_eq_self_iff]
    exact fun byte member => decide_eq_true fun same => unquoted.1 (same ▸ member)
  · rw [dropSuffix_of_not_suffix ends]
    cases cut : Text.cutRun? nameMark.utf8 (name ++ 34 :: rest) with
    | none =>
      exact ⟨_, [], Text.splitRun_of_none cut, Text.takeWhile_append_cons unquoted rest⟩
    | some pair =>
      obtain ⟨before, after⟩ := pair
      refine ⟨before, _, Text.splitRun_of_some utf8_nameMark_ne_nil cut, ?_⟩
      have whole : name ++ 34 :: rest = (before ++ nameLetters.utf8) ++ 34 :: after := by
        simpa [utf8_nameMark] using Text.cutRun?_eq_some cut
      by_cases quoted : 34 ∈ before
      · obtain ⟨front, back, rfl, first⟩ := List.eq_append_cons_of_mem quoted
        have same : name ++ 34 :: rest =
            front ++ 34 :: (back ++ nameLetters.utf8 ++ 34 :: after) := by
          simpa using whole
        rw [(Text.append_cons_inj unquoted first same).1]
        exact Text.takeWhile_append_cons first back
      · have unmarked : 34 ∉ before ++ nameLetters.utf8 := by
          rw [List.mem_append, not_or]
          exact ⟨quoted, not_mem_nameLetters⟩
        exact absurd ⟨before, (Text.append_cons_inj unquoted unmarked whole).1.symm⟩ ends

private theorem name_of_head {front name : Bytes} (plain : 34 ∉ front) (unquoted : 34 ∉ name)
    (rest : Bytes) :
    ∃ named,
      (Text.splitRun nameMark.utf8 (front ++ nameMark.utf8 ++ name ++ 34 :: rest))[1]? =
        some named ∧
      named.takeWhile (· ≠ 34) = dropSuffix nameLetters.utf8 name := by
  obtain ⟨named, others, split, found⟩ := takeWhile_head_splitRun unquoted rest
  have cut : Text.cutRun? nameMark.utf8 (front ++ nameMark.utf8 ++ (name ++ 34 :: rest)) =
      some (front, name ++ 34 :: rest) := by
    rw [utf8_nameMark]
    exact Text.cutRun?_concat_append plain not_mem_nameLetters _
  rw [List.append_assoc, Text.splitRun_of_some utf8_nameMark_ne_nil cut, split]
  exact ⟨named, rfl, found⟩

/-! ## The head of a part -/

structure IsClean (boundary text : Text) : Prop where
  unbroken : text.IsUnbroken
  free : ¬ boundary.utf8 <:+: text.utf8

/-- What a part needs for its head to be read back. -/
structure IsReadable (boundary : Text) (types : Types) (name : Text) : Prop where
  unquoted : '"' ∉ name
  nameClean : IsClean boundary name
  fileClean : ∀ file, type? types (name ++ "_filename".toList) = some file → IsClean boundary file
  typeClean : ∀ type, type? types name = some type → IsClean boundary type

structure IsAbsent (boundary : Text) (types : Types) (name : Text) : Prop where
  nameFree : ¬ boundary.utf8 <:+: name.utf8
  fileFree : ∀ file, type? types (name ++ "_filename".toList) = some file →
    ¬ boundary.utf8 <:+: file.utf8
  typeFree : ∀ type, type? types name = some type → ¬ boundary.utf8 <:+: type.utf8

theorem IsReadable.isAbsent {boundary : Text} {types : Types} {name : Text}
    (readable : IsReadable boundary types name) : IsAbsent boundary types name :=
  ⟨readable.nameClean.free, fun file found => (readable.fileClean file found).free,
    fun type found => (readable.typeClean type found).free⟩

def fileField (types : Types) (name : Text) : Text :=
  match type? types (name ++ "_filename".toList) with
  | some file => "; filename=\"".toList ++ file ++ ['"']
  | none => []

def typeLine (types : Types) (name : Text) : Text :=
  match type? types name with
  | some type => lineEnd ++ ("Content-Type: ".toList ++ type)
  | none => []

def nameLine (types : Types) (name : Text) : Text :=
  "Content-Disposition: form-data; name=\"".toList ++ name ++ ['"']
    ++ fileField types name

theorem partHead_eq (types : Types) (name : Text) :
    partHead types name = nameLine types name ++ typeLine types name ++ (lineEnd ++ lineEnd) := by
  unfold partHead nameLine fileField typeLine
  cases type? types name <;> cases type? types (name ++ "_filename".toList) <;> simp

section

variable {boundary : Text} {types : Types} {name : Text}

private theorem isUnbroken_fileField (readable : IsReadable boundary types name) :
    (fileField types name).IsUnbroken := by
  unfold fileField
  cases found : type? types (name ++ "_filename".toList) with
  | none => exact Text.isUnbroken_nil
  | some file =>
    have label : Text.IsUnbroken "; filename=\"".toList := by decide
    have quote : Text.IsUnbroken ['"'] := by decide
    simp only [Text.isUnbroken_append]
    exact ⟨⟨label, (readable.fileClean file found).unbroken⟩, quote⟩

private theorem isUnbroken_nameLine (readable : IsReadable boundary types name) :
    (nameLine types name).IsUnbroken := by
  have opening : Text.IsUnbroken "Content-Disposition: form-data; name=\"".toList := by simp
  have quote : Text.IsUnbroken ['"'] := by decide
  unfold nameLine
  simp only [Text.isUnbroken_append]
  exact ⟨⟨⟨opening, readable.nameClean.unbroken⟩, quote⟩, isUnbroken_fileField readable⟩

theorem cutRun?_of_line {line : Bytes} (unbroken : 13 ∉ line) (value : Bytes) :
    Text.cutRun? (lineEnd ++ lineEnd).utf8 (line ++ (lineEnd ++ lineEnd).utf8 ++ value) =
      some (line, value) := by
  have blank : (lineEnd ++ lineEnd).utf8 = [13, 10, 13, 10] := rfl
  rw [blank, List.append_assoc, Text.cutRun?_cons_append unbroken]
  simp [Text.cutRun?, List.isPrefixOf?]

private theorem cutRun?_of_two_lines {line second : Bytes} (unbroken : 13 ∉ line)
    (alsoUnbroken : 13 ∉ second) (nonempty : second ≠ []) (value : Bytes) :
    Text.cutRun? (lineEnd ++ lineEnd).utf8
        (line ++ lineEnd.utf8 ++ second ++ (lineEnd ++ lineEnd).utf8 ++ value) =
      some (line ++ lineEnd.utf8 ++ second, value) := by
  have found := cutRun?_of_line alsoUnbroken value
  have blank : (lineEnd ++ lineEnd).utf8 = [13, 10, 13, 10] := rfl
  rw [blank] at found ⊢
  rw [utf8_lineEnd]
  obtain ⟨byte, second, rfl⟩ := List.exists_cons_of_ne_nil nonempty
  have other : 13 ≠ byte := fun same => alsoUnbroken (same ▸ .head _)
  -- The end of the first line is no blank line, since the next one has a byte.
  have skipped : Text.cutRun? [13, 10, 13, 10]
      (13 :: 10 :: (byte :: second ++ [13, 10, 13, 10] ++ value)) =
        some (13 :: 10 :: byte :: second, value) := by
    rw [Text.cutRun?, Text.cutRun?, found]
    simp [List.isPrefixOf?, other]
  have joined : line ++ [13, 10] ++ byte :: second ++ [13, 10, 13, 10] ++ value =
      line ++ 13 :: 10 :: (byte :: second ++ [13, 10, 13, 10] ++ value) := by
    simp
  rw [joined, Text.cutRun?_cons_append unbroken, skipped]
  simp

private theorem cutRun?_partHead (readable : IsReadable boundary types name) (value : Bytes) :
    Text.cutRun? (lineEnd ++ lineEnd).utf8 ((partHead types name).utf8 ++ value) =
      some ((nameLine types name ++ typeLine types name).utf8, value) := by
  have unbroken := ((Lines.isUnbroken_utf8 _).2 (isUnbroken_nameLine readable)).1
  rw [partHead_eq, Text.utf8_append (nameLine types name ++ typeLine types name)]
  unfold typeLine
  cases found : type? types name with
  | none =>
    simp only [List.append_nil]
    exact cutRun?_of_line unbroken value
  | some type =>
    have label : Text.IsUnbroken "Content-Type: ".toList := by decide
    have typed : Text.IsUnbroken ("Content-Type: ".toList ++ type) :=
      Text.isUnbroken_append.2 ⟨label, (readable.typeClean type found).unbroken⟩
    have occupied : Text.utf8 ("Content-Type: ".toList ++ type) ≠ [] := by
      simp [Text.utf8, String.utf8EncodeChar]
    have cut := cutRun?_of_two_lines unbroken ((Lines.isUnbroken_utf8 _).2 typed).1 occupied value
    simpa only [Text.utf8_append _ (_ ++ _), List.append_assoc] using cut

theorem utf8_headLines (types : Types) (name : Text) :
    (nameLine types name ++ typeLine types name).utf8 =
      Text.utf8 "Content-Disposition: form-data; ".toList ++ nameMark.utf8 ++ name.utf8
        ++ 34 :: (fileField types name ++ typeLine types name).utf8 := by
  have opening : Text.utf8 "Content-Disposition: form-data; name=\"".toList =
      Text.utf8 "Content-Disposition: form-data; ".toList ++ nameMark.utf8 := rfl
  have quote : Text.utf8 ['"'] = [34] := rfl
  unfold nameLine
  simp only [Text.utf8_append, opening, List.append_assoc]
  rw [quote, List.singleton_append]

/-! ## The parts of a body -/

def delimiter (boundary : Text) : Bytes :=
  Text.utf8 ("--".toList ++ boundary)

def chunk (types : Types) (name : Text) (value : Bytes) : Bytes :=
  lineEnd.utf8 ++ (partHead types name).utf8 ++ (value ++ closing value)

theorem partBytes_eq (boundary : Text) (types : Types) (name : Text) (value : Value) :
    partBytes boundary types name value = delimiter boundary ++ chunk types name value.bytes := by
  simp only [partBytes, delimiter, chunk, Text.utf8_append, List.append_assoc]

private theorem cutRun?_latin1 (run whole : Bytes) :
    Text.cutRun? (Text.latin1 run) (Text.latin1 whole) =
      (Text.cutRun? run whole).map (Prod.map Text.latin1 Text.latin1) :=
  Text.cutRun?_map Text.ofNat_toNat_injective run whole

theorem splitRun_latin1 (run whole : Bytes) :
    Text.splitRun (Text.latin1 run) (Text.latin1 whole) =
      (Text.splitRun run whole).map Text.latin1 :=
  Text.splitRun_map Text.ofNat_toNat_injective run whole

private theorem before_quote_latin1 (bytes : Bytes) :
    Text.before '"' (Text.latin1 bytes) = Text.latin1 (bytes.takeWhile (· ≠ 34)) := by
  have quote : ∀ byte : UInt8, Char.ofNat byte.toNat = '"' ↔ byte = 34 := fun byte =>
    Text.ofNat_toNat_injective.eq_iff' rfl
  simp only [Text.before, Text.latin1, List.takeWhile_map, Function.comp_def, ne_eq, quote]

/-- The name is read off the lines of a head, each byte a character. -/
private theorem name_of_headLines (readable : IsReadable boundary types name) :
    ∃ named,
      (Text.splitRun nameMark
        (Text.latin1 (nameLine types name ++ typeLine types name).utf8))[1]? = some named ∧
      Text.before '"' named = dropSuffix nameLetters (Text.latin1 name.utf8) := by
  have ascii : '"'.toNat < 128 := by decide
  have plain : 34 ∉ Text.utf8 "Content-Disposition: form-data; ".toList := fun member =>
    absurd ((Text.mem_utf8_iff ascii).1 member) (by simp)
  have unquoted : 34 ∉ name.utf8 := fun member =>
    readable.unquoted ((Text.mem_utf8_iff ascii).1 member)
  obtain ⟨named, split, found⟩ :=
    name_of_head plain unquoted (fileField types name ++ typeLine types name).utf8
  refine ⟨Text.latin1 named, ?_, ?_⟩
  · have renamed := splitRun_latin1 nameMark.utf8 (nameLine types name ++ typeLine types name).utf8
    rw [utf8_headLines] at renamed ⊢
    exact (congrArg (·[1]?) renamed).trans (by rw [List.getElem?_map, split]; rfl)
  · rw [before_quote_latin1, found]
    exact (dropSuffix_latin1 nameLetters.utf8 name.utf8).symm

/-- A part is read back from its bytes, each of them a character. -/
theorem decodePart?_chunk (readable : IsReadable boundary types name) (value : Bytes) :
    decodePart? (Text.latin1 (chunk types name value)) =
      some (dropSuffix nameLetters (Text.latin1 name.utf8), dropSuffix lineEnd.utf8 value) := by
  obtain ⟨named, parted, read⟩ := name_of_headLines readable
  have begun : lineEnd.isPrefixOf? (Text.latin1 (chunk types name value)) =
      some (Text.latin1 ((partHead types name).utf8 ++ (value ++ closing value))) := by
    rw [List.isPrefixOf?_eq_some_iff_append_eq, chunk, List.append_assoc,
      Text.latin1_append lineEnd.utf8]
    rfl
  have cut : Text.cutRun? (lineEnd ++ lineEnd)
      (Text.latin1 ((partHead types name).utf8 ++ (value ++ closing value))) =
        some (Text.latin1 (nameLine types name ++ typeLine types name).utf8,
          Text.latin1 (value ++ closing value)) := by
    have renamed := cutRun?_latin1 (lineEnd ++ lineEnd).utf8
      ((partHead types name).utf8 ++ (value ++ closing value))
    rw [cutRun?_partHead readable] at renamed
    exact renamed
  have kept : Text.octets (dropSuffix lineEnd (Text.latin1 (value ++ closing value))) =
      dropSuffix lineEnd.utf8 value := by
    have renamed := dropSuffix_latin1 lineEnd.utf8 (value ++ closing value)
    rw [dropSuffix_closing] at renamed
    exact (congrArg Text.octets renamed).trans (Text.octets_latin1 _)
  simp only [decodePart?, begun, cut, parted, read, kept, Option.bind_eq_bind, Option.bind_some,
    Option.pure_def]

/-! ## Where the boundary is not -/

private theorem not_infix_typeLine (isBoundary : IsBoundary boundary)
    (absent : IsAbsent boundary types name) :
    ¬ boundary.utf8 <:+: (typeLine types name).utf8 := by
  have blank : 32 ∉ boundary.utf8 :=
    isBoundary.not_mem_utf8 ' ' (by decide) (by decide)
  unfold typeLine
  cases found : type? types name with
  | none => exact isBoundary.not_infix_nil
  | some type =>
    have label : Text.utf8 "Content-Type: ".toList =
        Text.utf8 "Content-Type:".toList ++ [32] := rfl
    have opening : ¬ boundary.utf8 <:+: Text.utf8 "Content-Type:".toList :=
      isBoundary.not_infix_utf8 (by simp)
    have labelled := Text.not_infix_append_cons blank opening (absent.typeFree type found)
    have ended := isBoundary.not_infix_append_lineEnd isBoundary.not_infix_nil labelled
    simpa only [Text.utf8_append, label, List.append_assoc, List.singleton_append,
      List.nil_append] using ended

private theorem not_infix_fields (isBoundary : IsBoundary boundary)
    (absent : IsAbsent boundary types name) :
    ¬ boundary.utf8 <:+: (fileField types name ++ typeLine types name).utf8 := by
  have quote : 34 ∉ boundary.utf8 :=
    isBoundary.not_mem_utf8 '"' (by decide) (by decide)
  have typeFree := not_infix_typeLine isBoundary absent
  unfold fileField
  cases found : type? types (name ++ "_filename".toList) with
  | none => exact typeFree
  | some file =>
    have label : Text.utf8 "; filename=\"".toList = Text.utf8 "; filename=".toList ++ [34] := rfl
    have close : Text.utf8 ['"'] = [34] := rfl
    have opening : ¬ boundary.utf8 <:+: Text.utf8 "; filename=".toList :=
      isBoundary.not_infix_utf8 (by simp)
    have closed := Text.not_infix_append_cons quote (absent.fileFree file found) typeFree
    have labelled := Text.not_infix_append_cons quote opening closed
    simp only [Text.utf8_append, label, close]
    simpa only [List.append_assoc, List.singleton_append, List.cons_append, List.nil_append]
      using labelled

theorem not_infix_chunk (isBoundary : IsBoundary boundary)
    (absent : IsAbsent boundary types name) {value : Bytes}
    (free : ¬ boundary.utf8 <:+: value) : ¬ boundary.utf8 <:+: chunk types name value := by
  have quote : 34 ∉ boundary.utf8 :=
    isBoundary.not_mem_utf8 '"' (by decide) (by decide)
  have ended : ¬ boundary.utf8 <:+: value ++ closing value := by
    unfold closing
    split
    · rwa [List.append_nil]
    · simpa using isBoundary.not_infix_append_lineEnd free isBoundary.not_infix_nil
  have opening : ¬ boundary.utf8 <:+:
      Text.utf8 "Content-Disposition: form-data; ".toList ++ nameLetters.utf8 := by
    rw [nameLetters, ← Text.utf8_append]
    exact isBoundary.not_infix_utf8 (by simp)
  have named := Text.not_infix_append_cons quote absent.nameFree
    (not_infix_fields isBoundary absent)
  have head := Text.not_infix_append_cons quote opening named
  have blank := isBoundary.not_infix_append_lineEnd isBoundary.not_infix_nil ended
  have whole := isBoundary.not_infix_append_lineEnd isBoundary.not_infix_nil
    (isBoundary.not_infix_append_lineEnd head blank)
  rw [chunk, partHead_eq, Text.utf8_append (_ ++ _), utf8_headLines, Text.utf8_append lineEnd,
    utf8_nameMark]
  simpa only [List.append_assoc, List.singleton_append, List.cons_append, List.nil_append]
    using whole

theorem exists_chunk_eq_concat (types : Types) (name : Text) (value : Bytes) :
    ∃ front, chunk types name value = front ++ [10] := by
  obtain ⟨front, ended⟩ : ∃ front, value ++ closing value = front ++ [10] := by
    unfold closing
    split
    · rename_i ends
      obtain ⟨front, rfl⟩ := List.getLast?_eq_some_iff.1 ends
      exact ⟨front, List.append_nil _⟩
    · exact ⟨value ++ [13], by
        rw [utf8_lineEnd, List.append_assoc, List.singleton_append]⟩
  exact ⟨lineEnd.utf8 ++ (partHead types name).utf8 ++ front, by
    rw [chunk, ended, List.append_assoc _ front]⟩

/-! ## Splitting a body -/

theorem delimiter_eq (boundary : Text) :
    delimiter boundary = Text.utf8 "--".toList ++ boundary.utf8 :=
  Text.utf8_append _ _

theorem not_infix_delimiter {bytes : Bytes} (free : ¬ boundary.utf8 <:+: bytes) :
    ¬ delimiter boundary <:+: bytes := by
  rw [delimiter_eq]
  exact fun inside => free ((List.suffix_append _ _).isInfix.trans inside)

theorem delimiter_ne_nil (boundary : Text) : delimiter boundary ≠ [] := by
  have hyphens : Text.utf8 "--".toList ≠ [] := List.cons_ne_nil _ _
  rw [delimiter_eq]
  exact List.append_ne_nil_of_left_ne_nil hyphens _

theorem feed_not_mem_delimiter (isBoundary : IsBoundary boundary) : 10 ∉ delimiter boundary := by
  rw [delimiter_eq, List.mem_append, not_or]
  exact ⟨by decide, isBoundary.not_mem_utf8 '\n' (by decide) (by decide)⟩

private theorem cutRun?_chunk (isBoundary : IsBoundary boundary)
    (readable : IsReadable boundary types name) {value : Bytes}
    (free : ¬ boundary.utf8 <:+: value) (rest : Bytes) :
    Text.cutRun? (delimiter boundary) (chunk types name value ++ delimiter boundary ++ rest) =
      some (chunk types name value, rest) := by
  have absent := not_infix_delimiter (not_infix_chunk isBoundary readable.isAbsent free)
  obtain ⟨front, ended⟩ := exists_chunk_eq_concat types name value
  rw [ended] at absent ⊢
  exact Text.cutRun?_append_concat (delimiter_ne_nil boundary)
    (feed_not_mem_delimiter isBoundary) absent rest

def tail : Bytes :=
  Text.utf8 ("--".toList ++ lineEnd)

private theorem splitRun_body (isBoundary : IsBoundary boundary) {parts : Parts}
    (readable : ∀ part ∈ parts, IsReadable boundary types part.1)
    (free : ∀ part ∈ parts, ¬ boundary.utf8 <:+: part.2.bytes) :
    Text.splitRun (delimiter boundary) (body boundary types parts) =
      [] :: parts.map (fun part => chunk types part.1 part.2.bytes) ++ [tail] := by
  have joined : body boundary types parts =
      [] ++ (parts.map fun part => chunk types part.1 part.2.bytes).flatMap
        (delimiter boundary ++ ·) ++ delimiter boundary ++ tail := by
    simp only [body, partBytes_eq, delimiter, tail, List.flatMap_map, List.nil_append,
      Text.utf8_append, List.append_assoc]
  have ends : ∀ piece ∈ [] :: parts.map fun part => chunk types part.1 part.2.bytes, ∀ rest,
      Text.cutRun? (delimiter boundary) (piece ++ delimiter boundary ++ rest) =
        some (piece, rest) := by
    intro piece member rest
    rcases List.mem_cons.1 member with rfl | member
    · refine Text.cutRun?_append (delimiter_ne_nil boundary) [] rest ?_
      intro front back split occupied
      exact absurd (List.append_eq_nil_iff.1 split.symm).2 occupied
    · obtain ⟨part, listed, rfl⟩ := List.mem_map.1 member
      exact cutRun?_chunk isBoundary (readable part listed) (free part listed) rest
  have last : ¬ delimiter boundary <:+: tail :=
    not_infix_delimiter (isBoundary.not_infix_utf8 (by simp [lineEnd]))
  rw [joined]
  exact Text.splitRun_joined (delimiter_ne_nil boundary) ends last

private theorem decodeChunks?_map {parts : Parts}
    (readable : ∀ part ∈ parts, IsReadable boundary types part.1) :
    decodeChunks? ((parts.map (fun part => chunk types part.1 part.2.bytes) ++ [tail]).map
        Text.latin1) =
      some (parts.map fun part =>
        (dropSuffix nameLetters (Text.latin1 part.1.utf8),
          dropSuffix lineEnd.utf8 part.2.bytes)) := by
  induction parts with
  | nil =>
    have last : "--".toList.isPrefixOf (Text.latin1 tail) = true := by decide
    rw [List.map_nil, List.nil_append, List.map_singleton, decodeChunks?, last]
    rfl
  | cons part parts ih =>
    have further : "--".toList.isPrefixOf
        (Text.latin1 (chunk types part.1 part.2.bytes)) = false := by
      rw [chunk, List.append_assoc, Text.latin1_append, utf8_lineEnd]
      rfl
    have first := decodePart?_chunk (readable part (.head _)) part.2.bytes
    have others := ih fun other member => readable other (.tail _ member)
    rw [List.map_cons, List.cons_append, List.map_cons, decodeChunks?, further, first, others]
    rfl

end

/-! ## Reading a form back -/

theorem IsBoundary.ascii {boundary : Text} (isBoundary : IsBoundary boundary) :
    ∀ c ∈ boundary, c.toNat < 128 := by
  have marked : ∀ c ∈ marker, c.toNat < 128 := by
    unfold marker
    simp
  have listed : ∀ c ∈ alphabet, c.toNat < 128 := by
    unfold alphabet
    simp
  obtain ⟨token, rfl, -, drawn⟩ := isBoundary
  intro c member
  rcases List.mem_append.1 member with member | member
  · exact marked c member
  · exact listed c (drawn c member)

private theorem latin1_delimiter {boundary : Text} (isBoundary : IsBoundary boundary) :
    Text.latin1 (delimiter boundary) = "--".toList ++ boundary := by
  have same := Text.latin1_utf8_eq_self_iff.2 isBoundary.ascii
  rw [delimiter_eq, Text.latin1_append, same]
  rfl

/-- A name that is read byte by byte is the same if it is ASCII and keeps its end. -/
theorem dropSuffix_latin1_utf8_eq_self_iff (name : Text) :
    dropSuffix nameLetters (Text.latin1 name.utf8) = name ↔
      (∀ c ∈ name, c.toNat < 128) ∧ ¬ nameLetters <:+ name := by
  have letters : nameLetters ≠ [] := List.cons_ne_nil _ _
  by_cases ends : nameLetters <:+ Text.latin1 name.utf8
  · obtain ⟨front, whole⟩ := ends
    rw [← whole, dropSuffix_append]
    -- The letters have an equals sign, so the name has one more in its bytes than `front` has.
    have ascii : '='.toNat < 128 := by decide
    have bytes : (Text.latin1 name.utf8).count '=' = name.utf8.count 61 :=
      List.count_map_of_injective _ _ Text.ofNat_toNat_injective 61
    have count : name.utf8.count 61 = name.count '=' := Text.count_utf8 ascii name
    have more : nameLetters.count '=' = 1 := by decide
    constructor
    · rintro rfl
      rw [← whole, List.count_append, more, count] at bytes
      omega
    · rintro ⟨small, other⟩
      rw [Text.latin1_utf8_eq_self_iff.2 small] at whole
      exact absurd ⟨front, whole⟩ other
  · rw [dropSuffix_of_not_suffix ends, Text.latin1_utf8_eq_self_iff]
    refine ⟨fun small => ⟨small, ?_⟩, And.left⟩
    rwa [Text.latin1_utf8_eq_self_iff.2 small] at ends

/-- The body of a form is read back part by part, but a name as the characters that its bytes
are one by one, without the letters of the mark at its end, and a value without a line end at
its end. -/
theorem decode?_encode? {parts : Parts} {types : Types} {draws rest : Draws} {encoded : Encoded}
    (encoding : encode? parts types draws = some (encoded, rest))
    (readable : ∀ part ∈ parts, IsReadable encoded.boundary types part.1) :
    decode? encoded.boundary encoded.body = some (parts.map fun part =>
      (dropSuffix nameLetters (Text.latin1 part.1.utf8), dropSuffix lineEnd.utf8 part.2.bytes)) ∧
    (decode? encoded.boundary encoded.body =
        some (parts.map fun part => (part.1, part.2.bytes)) ↔
      ∀ part ∈ parts, ((∀ c ∈ part.1, c.toNat < 128) ∧ ¬ nameLetters <:+ part.1) ∧
        ¬ lineEnd.utf8 <:+ part.2.bytes) := by
  obtain ⟨⟨boundary, left⟩, drawn, joined⟩ := Option.map_eq_some_iff.1 encoding
  obtain ⟨rfl, rfl⟩ := Prod.mk.inj joined
  obtain ⟨isBoundary, free⟩ := boundary?_eq_some drawn
  have read : decode? boundary (body boundary types parts) = some (parts.map fun part =>
      (dropSuffix nameLetters (Text.latin1 part.1.utf8),
        dropSuffix lineEnd.utf8 part.2.bytes)) := by
    rw [decode?, ← latin1_delimiter isBoundary, splitRun_latin1,
      splitRun_body isBoundary readable (not_infix_of_collides free)]
    exact decodeChunks?_map readable
  refine ⟨read, ?_⟩
  rw [read, Option.some_inj, List.map_inj_left]
  refine forall₂_congr fun part _ => ?_
  have ending : lineEnd.utf8 ≠ [] := by
    rw [utf8_lineEnd]
    exact List.cons_ne_nil _ _
  rw [Prod.mk.injEq, dropSuffix_latin1_utf8_eq_self_iff, dropSuffix_eq_self_iff ending]

/-- A file whose last line is ended, and a value with line ends and hyphens in it. -/
theorem decode?_encode?_of_unended :
    ∃ encoded rest,
      encode? [("file".toList, .text "one\n".toList), ("x".toList, .binary [13, 10, 45, 45, 0])]
        [("file".toList, "text/plain".toList), ("file_filename".toList, "a.txt".toList)]
        (List.replicate 17 0) = some (encoded, rest) ∧
      decode? encoded.boundary encoded.body =
        some [("file".toList, Text.utf8 "one\n".toList),
          ("x".toList, [13, 10, 45, 45, 0])] := by
  let parts : Parts :=
    [("file".toList, .text "one\n".toList), ("x".toList, .binary [13, 10, 45, 45, 0])]
  let types : Types :=
    [("file".toList, "text/plain".toList), ("file_filename".toList, "a.txt".toList)]
  let boundary : Text := "----SondaFormBoundaryAAAAAAAAAAAAAAAA".toList
  have encoding : encode? parts types (List.replicate 17 0) =
      some (⟨boundary, body boundary types parts⟩, [0]) := by
    rw [encode?, boundary?]
    rfl
  obtain ⟨⟨_, _⟩, drawn, same⟩ := Option.map_eq_some_iff.1 encoding
  cases same
  have isBoundary : IsBoundary boundary := (boundary?_eq_some drawn).1
  have readable : ∀ part ∈ parts, IsReadable boundary types part.1 := by
    simp only [parts, List.forall_mem_cons]
    refine ⟨?_, ?_, nofun⟩
    · refine ⟨by decide, ⟨by decide, isBoundary.not_infix_utf8 (by decide)⟩, ?_, ?_⟩
      · intro file found
        cases found
        exact ⟨by decide, isBoundary.not_infix_utf8 (by decide)⟩
      · intro type found
        cases found
        exact ⟨by decide, isBoundary.not_infix_utf8 (by decide)⟩
    · exact ⟨by decide, ⟨by decide, isBoundary.not_infix_utf8 (by decide)⟩, nofun, nofun⟩
  refine ⟨_, _, encoding, (decode?_encode? encoding readable).2.2 ?_⟩
  simp only [parts, List.forall_mem_cons]
  exact ⟨⟨⟨by simp, by decide⟩, by decide⟩, ⟨⟨by simp, by decide⟩, by decide⟩, nofun⟩

/-- A line end that a value has at its end is taken for the one that a part ends with, the end
of a name for the mark, and a letter of two bytes for two letters. -/
theorem not_decode?_encode?_of_ended :
    (∃ encoded rest,
      encode? [("a".toList, .text "x\r\n".toList)] [] (List.replicate 16 0) =
        some (encoded, rest) ∧
      IsReadable encoded.boundary [] "a".toList ∧
      decode? encoded.boundary encoded.body = some [("a".toList, Text.utf8 "x".toList)]) ∧
    (∃ encoded rest,
      encode? [("a name=".toList, .text "x".toList)] [] (List.replicate 16 0) =
        some (encoded, rest) ∧
      IsReadable encoded.boundary [] "a name=".toList ∧
      decode? encoded.boundary encoded.body = some [("a ".toList, Text.utf8 "x".toList)]) ∧
    ∃ encoded rest,
      encode? [("é".toList, .text "x".toList)] [] (List.replicate 16 0) = some (encoded, rest) ∧
      IsReadable encoded.boundary [] "é".toList ∧
      decode? encoded.boundary encoded.body = some [("Ã©".toList, Text.utf8 "x".toList)] := by
  let boundary : Text := "----SondaFormBoundaryAAAAAAAAAAAAAAAA".toList
  refine ⟨⟨⟨boundary, body boundary [] [("a".toList, .text "x\r\n".toList)]⟩, [], ?_, ?_, ?_⟩,
    ⟨⟨boundary, body boundary [] [("a name=".toList, .text "x".toList)]⟩, [], ?_, ?_, ?_⟩,
    ⟨boundary, body boundary [] [("é".toList, .text "x".toList)]⟩, [], ?_, ?_, ?_⟩
  · rw [encode?, boundary?]
    rfl
  · exact ⟨by decide, ⟨by decide, by decide +kernel⟩, nofun, nofun⟩
  · decide +kernel
  · rw [encode?, boundary?]
    rfl
  · exact ⟨by decide, ⟨by decide, by decide +kernel⟩, nofun, nofun⟩
  · decide +kernel
  · rw [encode?, boundary?]
    rfl
  · exact ⟨by decide, ⟨by decide, by decide +kernel⟩, nofun, nofun⟩
  · decide +kernel

end WebClient.Multipart
