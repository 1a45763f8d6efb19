import WebClient.Proofs.Arrival
import WebClient.Proofs.Runs

/-!
# Heads that arrive whole

Reading a head comes down to taking in its lines one after the other, whatever
pieces bring them: what is read is the draft that the lines make, and what is left
are the bytes behind the blank line.
-/

set_option autoImplicit false

namespace WebClient

theorem Text.isPrefixOf_append_cons {run : Text} {mark : Char} (absent : mark ∉ run)
    (front rest : Text) : run.isPrefixOf (front ++ mark :: rest) = run.isPrefixOf front := by
  rw [Bool.eq_iff_iff, List.isPrefixOf_iff_prefix, List.isPrefixOf_iff_prefix]
  constructor
  · exact prefix_append_cons absent
  · exact fun begins => begins.trans (List.prefix_append _ _)

namespace Reader

def lineText (line : Bytes) : Text :=
  Text.latin1 (dropReturn line)

/-! ## Taking a line in -/

theorem dropReturn_append (front : Bytes) {line : Bytes} (nonempty : line ≠ []) :
    dropReturn (front ++ line) = front ++ dropReturn line := by
  obtain ⟨last, found⟩ : ∃ last, line.getLast? = some last := by
    cases read : line.getLast? with
    | none => exact absurd (List.getLast?_eq_none_iff.1 read) nonempty
    | some last => exact ⟨last, rfl⟩
  have same : (front ++ line).getLast? = some last := by simp [found]
  simp only [dropReturn, same, found]
  split
  · exact List.dropLast_append_of_ne_nil nonempty
  · rfl

theorem trim_lineText (line : Bytes) :
    Text.trim (lineText line) = Text.trim (Text.latin1 line) := by
  unfold lineText dropReturn
  split
  · rename_i returned
    rcases List.eq_nil_or_concat line with rfl | ⟨front, last, rfl⟩
    · rfl
    · simp only [List.concat_eq_append, List.getLast?_concat, Option.some.injEq] at returned ⊢
      subst returned
      rw [List.dropLast_concat, Text.latin1_append]
      exact (Text.trim_concat rfl).symm
  · rfl

private theorem isFolded_append_colon (name value : Text) :
    Draft.isFolded (name ++ ':' :: value) = Draft.isFolded name := by
  cases name with
  | nil => rfl
  | cons c rest =>
    simp only [List.cons_append]
    unfold Draft.isFolded
    split <;> split <;> simp_all

private theorem blockCode?_append_colon {name : Text} (plain : blockCode? name = none)
    (value : Text) : blockCode? (name ++ ':' :: value) = none := by
  have mark : ':'.isDigit = false := rfl
  unfold blockCode?
  split
  · rename_i a b c rest same
    rcases name with _ | ⟨x, _ | ⟨y, _ | ⟨z, _ | ⟨fourth, more⟩⟩⟩⟩ <;>
      simp only [List.nil_append, List.cons_append, List.cons.injEq] at same
    · simp [← same.1, mark]
    · simp [← same.2.1, mark]
    · simp [← same.2.2.1, mark]
    · exact absurd same.2.2.2.1 (by decide)
    · obtain ⟨rfl, rfl, rfl, rfl, -⟩ := same
      exact plain
  · rfl

namespace Draft

/-- A line that is a field adds its value. -/
theorem add_of_field {draft : Draft} (closed : draft.open? = none) {name : Text}
    (uncut : ':' ∉ name) (noStatus : "HTTP".toList.isPrefixOf name = false)
    (unfolded : isFolded name = false) (noBlock : blockCode? name = none) (value : Text) :
    draft.add (name ++ ':' :: value) =
      { draft with
        fields := draft.fields.append (Text.lower (Text.trim name)) (Text.trim value) } := by
  have noHttp : "HTTP".toList.isPrefixOf (name ++ ':' :: value) = false := by
    rw [Text.isPrefixOf_append_cons (by decide), noStatus]
  simp only [add, closed, addField, noHttp, isFolded_append_colon, unfolded,
    blockCode?_append_colon noBlock, Text.cutFirst?_append_cons uncut]
  rfl

/-- A line that begins with a blank continues the last value. -/
theorem add_of_folded {draft : Draft} (closed : draft.open? = none) {blank : Char}
    (isBlank : blank = ' ' ∨ blank = '\t') {text : Text} {continued : Fields}
    (extended : draft.fields.extendLast? (Text.trim text) = some continued) :
    draft.add (blank :: text) = { draft with fields := continued } := by
  have trimmed : Text.trim (blank :: text) = Text.trim text := by
    rcases isBlank with rfl | rfl <;> exact Text.trim_cons rfl
  have noHttp : "HTTP".toList.isPrefixOf (blank :: text) = false := by
    rcases isBlank with rfl | rfl <;> rfl
  have folded : isFolded (blank :: text) = true := by
    rcases isBlank with rfl | rfl <;> rfl
  simp only [add, closed, addField, noHttp, folded, trimmed, extended]
  rfl

end Draft

/-! ## Reading line by line -/

def wire (lines : List Bytes) : Bytes :=
  lines.flatMap fun line => line ++ [10]

/-- What comes after the lines of a head: a blank line and the body, or nothing. -/
inductive Closes : Bytes → Bytes → Prop
  | feed (body : Bytes) : Closes (10 :: body) body
  | returned (body : Bytes) : Closes (13 :: 10 :: body) body
  | ended : Closes [] []

structure IsLine (line : Bytes) : Prop where
  single : 10 ∉ line
  nonblank : lineText line ≠ []

def Draft.addLines (draft : Draft) (lines : List Bytes) : Draft :=
  lines.foldl (fun draft line => draft.add (lineText line)) draft

theorem Draft.addLines_cons (draft : Draft) (line : Bytes) (lines : List Bytes) :
    draft.addLines (line :: lines) = (draft.add (lineText line)).addLines lines := rfl

theorem Draft.addLines_append (draft : Draft) (first second : List Bytes) :
    draft.addLines (first ++ second) = (draft.addLines first).addLines second :=
  List.foldl_append

theorem readFields_of_line {reader next : Reader} {line : Text} (draft : Draft)
    (read : reader.readLine = .text line next) (nonblank : line ≠ []) :
    reader.readFields draft = next.readFields (draft.add line) := by
  rw [readFields]
  split <;> simp_all

theorem readFields_of_blank {reader next : Reader} (draft : Draft)
    (read : reader.readLine = .text [] next) :
    reader.readFields draft = (.ok draft.head, next.finishHead draft) := by
  rw [readFields]
  split <;> simp_all

theorem readFields_of_ended {reader next : Reader} (draft : Draft)
    (read : reader.readLine = .ended next) :
    reader.readFields draft = (.ok draft.head, next.finishHead draft) := by
  rw [readFields]
  split <;> simp_all

private theorem readFields_of_closes {reader : Reader} {closing body : Bytes} (draft : Draft)
    (closes : Closes closing body) (brings : reader.feed.Brings closing) :
    ∃ rest, reader.readFields draft =
      (.ok draft.head, { reader with feed := rest }.finishHead draft) ∧ rest.Brings body := by
  cases closes with
  | feed =>
    have arrives : reader.feed.Brings ([] ++ 10 :: body) := brings
    obtain ⟨rest, read, left⟩ := readLine_of_brings (by decide) arrives
    exact ⟨rest, readFields_of_blank draft read, left⟩
  | returned =>
    have arrives : reader.feed.Brings ([13] ++ 10 :: body) := brings
    obtain ⟨rest, read, left⟩ := readLine_of_brings (by decide) arrives
    exact ⟨rest, readFields_of_blank draft read, left⟩
  | ended =>
    exact ⟨[], readFields_of_ended draft (readLine_of_brings_nil brings), .nil⟩

private theorem readFields_of_brings {reader : Reader} {lines : List Bytes} {closing body : Bytes}
    (draft : Draft) (wellFormed : ∀ line ∈ lines, IsLine line) (closes : Closes closing body)
    (brings : reader.feed.Brings (wire lines ++ closing)) :
    ∃ rest, reader.readFields draft =
      (.ok (draft.addLines lines).head,
        { reader with feed := rest }.finishHead (draft.addLines lines)) ∧ rest.Brings body := by
  induction lines generalizing reader draft with
  | nil => exact readFields_of_closes draft closes brings
  | cons line lines ih =>
    simp only [List.forall_mem_cons] at wellFormed
    obtain ⟨first, others⟩ := wellFormed
    have arrives : reader.feed.Brings (line ++ 10 :: (wire lines ++ closing)) := by
      simpa [wire] using brings
    obtain ⟨left, read, brought⟩ := readLine_of_brings first.single arrives
    rw [readFields_of_line draft read first.nonblank]
    exact ih (draft.add (lineText line)) others brought

/-! ## Reading the status line -/

theorem nextStatusLine_of_line {reader next : Reader} {line : Text}
    (read : reader.readLine = .text line next) (nonblank : line ≠ []) :
    reader.nextStatusLine = (.ok line, next) := by
  rw [nextStatusLine]
  split <;> simp_all

theorem nextStatusLine_of_blank {reader next : Reader} (read : reader.readLine = .text [] next) :
    reader.nextStatusLine = next.nextStatusLine := by
  rw [nextStatusLine]
  split <;> simp_all

theorem nextStatusLine_of_ended {reader next : Reader} (read : reader.readLine = .ended next) :
    reader.nextStatusLine = (.error (.malformed .closedBeforeStatusLine), next) := by
  rw [nextStatusLine]
  split <;> simp_all

theorem skipInterim_of_blank {reader next : Reader} (read : reader.readLine = .text [] next) :
    reader.skipInterim = (.ok (), next) := by
  rw [skipInterim]
  split <;> simp_all

theorem skipInterim_of_line {reader next : Reader} {line : Text}
    (read : reader.readLine = .text line next) (nonblank : line ≠ []) :
    reader.skipInterim = next.skipInterim := by
  rw [skipInterim]
  split <;> simp_all

theorem skipInterim_of_ended {reader next : Reader} (read : reader.readLine = .ended next) :
    reader.skipInterim = (.error (.malformed .endedInsideContinue), next) := by
  rw [skipInterim]
  split <;> simp_all

theorem readStatusLine_of_error {reader next : Reader} {failure : Failure}
    (found : reader.nextStatusLine = (.error failure, next)) :
    reader.readStatusLine = (.error failure, next) := by
  rw [readStatusLine]
  split <;> simp_all

theorem readStatusLine_of_final {reader next : Reader} {line : Text}
    (found : reader.nextStatusLine = (.ok line, next)) (final : Status.code? line ≠ some 100) :
    reader.readStatusLine = (.ok line, next) := by
  rw [readStatusLine]
  split <;> simp_all

theorem readStatusLine_of_interim_error {reader next after : Reader} {line : Text}
    {failure : Failure} (found : reader.nextStatusLine = (.ok line, next))
    (interim : Status.code? line = some 100)
    (skipped : next.skipInterim = (.error failure, after)) :
    reader.readStatusLine = (.error failure, after) := by
  rw [readStatusLine]
  split <;> simp_all
  split <;> simp_all

theorem readStatusLine_of_interim {reader next after : Reader} {line : Text}
    (found : reader.nextStatusLine = (.ok line, next))
    (interim : Status.code? line = some 100) (skipped : next.skipInterim = (.ok (), after)) :
    reader.readStatusLine = after.readStatusLine := by
  rw [readStatusLine]
  split <;> simp_all
  split <;> simp_all

theorem readStatusLine_of_line {reader next : Reader} {line : Text}
    (read : reader.readLine = .text line next) (nonblank : line ≠ [])
    (final : Status.code? line ≠ some 100) : reader.readStatusLine = (.ok line, next) :=
  readStatusLine_of_final (nextStatusLine_of_line read nonblank) final

/-! ## Reading a whole head -/

/-- A head is read as the draft that its lines make. -/
theorem readHead_of_brings {reader : Reader} {status : Bytes} {lines : List Bytes}
    {closing body : Bytes} (statusLine : IsLine status)
    (final : Status.code? (lineText status) ≠ some 100)
    (wellFormed : ∀ line ∈ lines, IsLine line) (closes : Closes closing body)
    (brings : reader.feed.Brings (wire (status :: lines) ++ closing)) :
    let draft := (Draft.ofStatusLine (lineText status)).addLines lines
    ∃ rest, reader.readHead =
      (.ok draft.head, { reader with feed := rest, stage := .statusLine }.finishHead draft) ∧
        rest.Brings body := by
  have arrives : ({ reader with stage := .statusLine } : Reader).feed.Brings
      (status ++ 10 :: (wire lines ++ closing)) := by
    simpa [wire] using brings
  obtain ⟨left, read, brought⟩ := readLine_of_brings statusLine.single arrives
  have found := readStatusLine_of_line read statusLine.nonblank final
  simp only [readHead, found]
  exact readFields_of_brings _ wellFormed closes brought

end Reader

end WebClient
