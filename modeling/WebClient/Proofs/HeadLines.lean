import WebClient.Proofs.ReadHead

/-!
# Lines of a stream

A stream whose lines all come in time is read as these lines, one after the other, whatever
pieces bring them and wherever it pauses. A head is then told from the lines alone: it is made
of those before the first blank one, and leaves the bytes of those behind it.
-/

set_option autoImplicit false

namespace WebClient

namespace Feed

/-! ## Lines of some bytes -/

def lines : Bytes → List Bytes
  | [] => []
  | byte :: rest =>
    if byte = 10 then [byte] :: lines rest
    else match lines rest with
      | [] => [[byte]]
      | line :: more => (byte :: line) :: more

theorem flatten_lines (bytes : Bytes) : (lines bytes).flatten = bytes := by
  fun_induction lines bytes with
  | case1 => rfl
  | case2 rest ih => simp [ih]
  | case3 byte rest inside found ih =>
    rw [found] at ih
    simp [← ih]
  | case4 byte rest inside line more found ih =>
    rw [found] at ih
    simp [← ih]

theorem lines_of_cut {bytes line after : Bytes} (cut : cutLine? bytes = some (line, after)) :
    lines bytes = line :: lines after := by
  induction bytes generalizing line after with
  | nil => cases cut
  | cons byte rest ih =>
    by_cases ends : byte = 10
    · simp only [cutLine?, if_pos ends, Option.some.injEq, Prod.mk.injEq] at cut
      obtain ⟨rfl, rfl⟩ := cut
      rw [lines, if_pos ends]
    · simp only [cutLine?, if_neg ends, Option.map_eq_some_iff] at cut
      obtain ⟨⟨front, back⟩, inner, joined⟩ := cut
      obtain ⟨rfl, rfl⟩ := Prod.mk.inj joined
      rw [lines, if_neg ends, ih inner]

private theorem lines_of_uncut {bytes : Bytes} (uncut : cutLine? bytes = none) :
    lines bytes = if bytes.isEmpty then [] else [bytes] := by
  induction bytes with
  | nil => rfl
  | cons byte rest ih =>
    by_cases ends : byte = 10
    · simp [cutLine?, ends] at uncut
    · simp only [cutLine?, if_neg ends, Option.map_eq_none_iff] at uncut
      rw [lines, if_neg ends, ih uncut]
      cases rest <;> rfl

def IsWhole (line : Bytes) : Prop :=
  ∃ text, 10 ∉ text ∧ line = text ++ [10]

theorem lines_flatten_append {front : List Bytes} (whole : ∀ line ∈ front, IsWhole line)
    (bytes : Bytes) : lines (front.flatten ++ bytes) = front ++ lines bytes := by
  induction front with
  | nil => rfl
  | cons line front ih =>
    rw [List.forall_mem_cons] at whole
    obtain ⟨⟨text, single, rfl⟩, others⟩ := whole
    have cut : cutLine? (text ++ 10 :: (front.flatten ++ bytes)) =
        some (text ++ [10], front.flatten ++ bytes) := cutLine?_append_feed single _
    have joined : ((text ++ [10]) :: front).flatten ++ bytes =
        text ++ 10 :: (front.flatten ++ bytes) := by simp
    rw [joined, lines_of_cut cut, ih others, List.cons_append]

/-! ## Lines in time -/

/-- Nothing but data comes, and no line is waited for longer than the limit. The line that is
being read has been waited for as long as `waited`. -/
def isTimely (limit waited : Nat) : Feed → Bool
  | [] => true
  | .piece bytes :: rest => isTimely limit (if 10 ∈ bytes then 0 else waited) rest
  | .pause milliseconds :: rest =>
    !outlasts limit (waited + milliseconds) && isTimely limit (waited + milliseconds) rest
  | .fault _ :: _ | .silence :: _ => false

theorem cutLine?_eq_none_iff {bytes : Bytes} : cutLine? bytes = none ↔ 10 ∉ bytes := by
  induction bytes with
  | nil => simp [cutLine?]
  | cons byte rest ih =>
    by_cases ends : byte = 10
    · simp [cutLine?, ends]
    · simp [cutLine?, ends, ih, Ne.symm ends]

private theorem isTimely_unread {limit : Nat} {bytes : Bytes} {rest : Feed}
    (timely : rest.isTimely limit 0 = true) : (unread bytes rest).isTimely limit 0 = true := by
  unfold unread
  split
  · exact timely
  · simpa [isTimely] using timely

variable {limit waited : Nat} {feed : Feed} {line after : Bytes}

private theorem lineAfter_of_cut (timely : feed.isTimely limit waited = true)
    (cut : cutLine? feed.bytes = some (line, after)) (taken : Bytes) :
    ∃ rest, lineAfter limit taken waited feed = .line (taken ++ line) rest ∧
      rest.isTimely limit 0 = true ∧ rest.bytes = after := by
  induction feed generalizing taken waited line with
  | nil => cases cut
  | cons delivery feed ih =>
    cases delivery with
    | piece data =>
      rw [bytes, cutLine?_append] at cut
      simp only [lineAfter, isTimely] at timely ⊢
      cases found : cutLine? data with
      | some inner =>
        obtain ⟨front, back⟩ := inner
        simp only [found, Option.some.injEq, Prod.mk.injEq] at cut
        obtain ⟨rfl, rfl⟩ := cut
        have ended : 10 ∈ data := by
          by_contra single
          cases found.symm.trans (cutLine?_eq_none_iff.2 single)
        -- The line ends in this piece, and the next one has not been waited for yet.
        rw [if_pos ended] at timely
        exact ⟨_, rfl, isTimely_unread timely, bytes_unread _ _⟩
      | none =>
        simp only [found, Option.map_eq_some_iff] at cut
        obtain ⟨⟨front, back⟩, later, joined⟩ := cut
        obtain ⟨rfl, rfl⟩ := Prod.mk.inj joined
        rw [if_neg (cutLine?_eq_none_iff.1 found)] at timely
        obtain ⟨rest, read, left⟩ := ih timely later (taken ++ data)
        exact ⟨rest, by simpa using read, left⟩
    | pause milliseconds =>
      simp only [isTimely, Bool.and_eq_true, Bool.not_eq_true'] at timely
      rw [lineAfter, timely.1]
      exact ih timely.2 cut taken
    | fault fault => cases timely
    | silence => cases timely

theorem lineAfter_of_uncut (timely : feed.isTimely limit waited = true)
    (uncut : cutLine? feed.bytes = none) (taken : Bytes) :
    lineAfter limit taken waited feed =
      if (taken ++ feed.bytes).isEmpty then .ended else .line (taken ++ feed.bytes) [] := by
  induction feed generalizing taken waited with
  | nil => simp [lineAfter, bytes]
  | cons delivery feed ih =>
    cases delivery with
    | piece data =>
      rw [bytes, cutLine?_append] at uncut
      simp only [lineAfter, isTimely] at timely ⊢
      cases found : cutLine? data with
      | some inner => simp [found] at uncut
      | none =>
        simp only [found, Option.map_eq_none_iff] at uncut
        rw [if_neg (cutLine?_eq_none_iff.1 found)] at timely
        rw [bytes, ← List.append_assoc]
        exact ih timely uncut (taken ++ data)
    | pause milliseconds =>
      simp only [isTimely, Bool.and_eq_true, Bool.not_eq_true'] at timely
      rw [lineAfter, timely.1]
      exact ih timely.2 uncut taken
    | fault fault => cases timely
    | silence => cases timely

end Feed

namespace Reader

/-! ## Reading them -/

def content (line : Bytes) : Text :=
  Text.latin1 (dropEnding line)

def isBlankLine (line : Bytes) : Bool :=
  (content line).isEmpty

/-- These lines are what the reader is going to read, up to the end of the stream. -/
structure Faces (reader : Reader) (lines : List Bytes) : Prop where
  timely : reader.feed.isTimely reader.limit 0 = true
  lines : Feed.lines reader.feed.bytes = lines

variable {reader next : Reader} {line : Bytes} {lines rest : List Bytes} {draft : Draft}

theorem Faces.bytes (faces : reader.Faces lines) : reader.feed.bytes = lines.flatten := by
  rw [← faces.lines, Feed.flatten_lines]

theorem Faces.readLine_cons (faces : reader.Faces (line :: lines)) :
    ∃ feed, reader.readLine = .text (content line) { reader with feed } ∧
      ({ reader with feed } : Reader).Faces lines := by
  obtain ⟨timely, split⟩ := faces
  cases cut : Feed.cutLine? reader.feed.bytes with
  | some parts =>
    obtain ⟨first, after⟩ := parts
    rw [Feed.lines_of_cut cut, List.cons.injEq] at split
    obtain ⟨rfl, rfl⟩ := split
    obtain ⟨feed, read, left, bytes⟩ := Feed.lineAfter_of_cut timely cut []
    refine ⟨feed, ?_, left, congrArg Feed.lines bytes⟩
    simp only [readLine, Feed.readLine, read, List.nil_append, content]
  | none =>
    have read := Feed.lineAfter_of_uncut timely cut []
    rw [Feed.lines_of_uncut cut] at split
    rw [List.nil_append] at read
    split at split
    · cases split
    · rename_i occupied
      cases split
      refine ⟨[], ?_, rfl, rfl⟩
      simp only [readLine, Feed.readLine, read, if_neg occupied, content]

theorem Faces.readLine_nil (faces : reader.Faces []) :
    reader.readLine = .ended { reader with feed := [] } := by
  obtain ⟨timely, split⟩ := faces
  have nothing : reader.feed.bytes = [] := by
    rw [← Feed.flatten_lines reader.feed.bytes, split, List.flatten_nil]
  have read := Feed.lineAfter_of_uncut timely (by rw [nothing]; rfl) []
  rw [nothing] at read
  simp only [readLine, Feed.readLine, read]
  rfl

theorem Faces.readLine_blank (faces : reader.Faces (line :: lines))
    (blank : isBlankLine line = true) :
    ∃ feed, reader.readLine = .text [] { reader with feed } ∧
      ({ reader with feed } : Reader).Faces lines := by
  obtain ⟨feed, read, onward⟩ := faces.readLine_cons
  rw [List.isEmpty_iff.1 blank] at read
  exact ⟨feed, read, onward⟩

theorem content_ne_nil (filled : isBlankLine line = false) : content line ≠ [] := by
  rintro empty
  rw [isBlankLine, empty] at filled
  cases filled

/-! ## Field lines -/

def fieldLines (lines : List Bytes) : List Bytes :=
  lines.takeWhile (!isBlankLine ·)

def behindBlank (lines : List Bytes) : List Bytes :=
  (lines.dropWhile (!isBlankLine ·)).tail

theorem fieldLines_append_of_filled {front : List Bytes}
    (filled : ∀ line ∈ front, isBlankLine line = false) (rest : List Bytes) :
    fieldLines (front ++ rest) = front ++ fieldLines rest :=
  List.takeWhile_append_of_pos fun line member => by rw [filled line member]; rfl

theorem behindBlank_append_of_filled {front : List Bytes}
    (filled : ∀ line ∈ front, isBlankLine line = false) (rest : List Bytes) :
    behindBlank (front ++ rest) = behindBlank rest :=
  congrArg List.tail (List.dropWhile_append_of_pos fun line member => by
    rw [filled line member]; rfl)

def Draft.addTexts (draft : Draft) (texts : List Text) : Draft :=
  texts.foldl Draft.add draft

theorem readFields_of_faces (faces : reader.Faces lines) (draft : Draft) :
    let last := draft.addTexts ((fieldLines lines).map content)
    ∃ feed, reader.readFields draft = (.ok last.head, { reader with feed }.finishHead last) ∧
      feed.bytes = (behindBlank lines).flatten := by
  induction lines generalizing reader draft with
  | nil => exact ⟨[], readFields_of_ended draft faces.readLine_nil, rfl⟩
  | cons line lines ih =>
    cases blank : isBlankLine line with
    | true =>
      obtain ⟨feed, read, onward⟩ := faces.readLine_blank blank
      simp only [fieldLines, behindBlank, List.takeWhile_cons, List.dropWhile_cons, blank]
      exact ⟨feed, readFields_of_blank draft read, onward.bytes⟩
    | false =>
      obtain ⟨feed, read, onward⟩ := faces.readLine_cons
      rw [readFields_of_line draft read (content_ne_nil blank)]
      simp only [fieldLines, behindBlank, List.takeWhile_cons, List.dropWhile_cons, blank]
      exact ih onward (draft.add (content line))

end Reader

end WebClient
