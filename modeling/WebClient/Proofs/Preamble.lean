import WebClient.Proofs.HeadLines

/-!
# What comes before a head

Blank lines and complete interim responses are passed over before a head, as if they had not
been sent. A head is lacking only where the stream ends before the line that it would begin
with, or inside an interim response; nothing else in it is fatal, and what is left are the bytes
behind the first blank line of it.
-/

set_option autoImplicit false

namespace WebClient

namespace Reader

/-! ## Streams with and without a head -/

def isInterim (line : Bytes) : Bool :=
  Status.code? (content line) == some 100

/-- Any number of complete interim responses, with blank lines before and after each. -/
inductive Preamble : List Bytes → Prop
  | nil : Preamble []
  | blank {line : Bytes} {lines : List Bytes} :
      isBlankLine line = true → Preamble lines → Preamble (line :: lines)
  | interim {status closing : Bytes} {block lines : List Bytes} :
      isInterim status = true → (∀ line ∈ block, isBlankLine line = false) →
      isBlankLine closing = true → Preamble lines →
      Preamble (status :: (block ++ closing :: lines))

/-- The stream ends before the first line of a head, or inside an interim response. -/
inductive LacksHead : List Bytes → Prop
  | closed {lines : List Bytes} : Preamble lines → LacksHead lines
  | cut {front block : List Bytes} {status : Bytes} :
      Preamble front → isInterim status = true → (∀ line ∈ block, isBlankLine line = false) →
      LacksHead (front ++ status :: block)

structure BeginsHead (line : Bytes) : Prop where
  filled : isBlankLine line = false
  final : isInterim line = false

variable {front lines block rest : List Bytes} {status closing : Bytes}

theorem filled_of_isInterim (interim : isInterim status = true) : isBlankLine status = false := by
  cases blank : isBlankLine status with
  | false => rfl
  | true =>
    rw [isInterim, List.isEmpty_iff.1 blank] at interim
    cases interim

theorem Preamble.append (preamble : Preamble front) (onward : Preamble lines) :
    Preamble (front ++ lines) := by
  induction preamble with
  | nil => exact onward
  | blank ends _ ih => exact .blank ends ih
  | interim interim filled ends _ ih =>
    rw [List.cons_append, List.append_assoc]
    exact .interim interim filled ends ih

theorem LacksHead.behind (lacks : LacksHead lines) (preamble : Preamble front) :
    LacksHead (front ++ lines) := by
  cases lacks with
  | closed closed => exact .closed (preamble.append closed)
  | cut before interim filled =>
    rw [← List.append_assoc]
    exact .cut (preamble.append before) interim filled

def HoldsHead (lines : List Bytes) : Prop :=
  ∃ front status rest, lines = front ++ status :: rest ∧ Preamble front ∧ BeginsHead status

theorem HoldsHead.behind (holds : HoldsHead lines) (preamble : Preamble front) :
    HoldsHead (front ++ lines) := by
  obtain ⟨before, status, rest, rfl, passed, begins⟩ := holds
  exact ⟨front ++ before, status, rest, (List.append_assoc ..).symm, preamble.append passed, begins⟩

/-- A block of lines goes up to the first blank one, or to the end. -/
theorem filled_or_closed (lines : List Bytes) :
    (∀ line ∈ lines, isBlankLine line = false) ∨
      ∃ block closing more, lines = block ++ closing :: more ∧
        (∀ line ∈ block, isBlankLine line = false) ∧ isBlankLine closing = true := by
  induction lines with
  | nil => exact .inl (by simp)
  | cons line lines ih =>
    cases blank : isBlankLine line with
    | true => exact .inr ⟨[], line, lines, rfl, by simp, blank⟩
    | false =>
      rcases ih with filled | ⟨block, closing, more, rfl, filled, ends⟩
      · exact .inl (List.forall_mem_cons.2 ⟨blank, filled⟩)
      · exact .inr ⟨line :: block, closing, more, rfl, List.forall_mem_cons.2 ⟨blank, filled⟩, ends⟩

theorem lacksHead_or_holdsHead (lines : List Bytes) : LacksHead lines ∨ HoldsHead lines := by
  -- An interim response takes any number of lines at once, so this goes by how many there are.
  match lines with
  | [] => exact .inl (.closed .nil)
  | line :: rest =>
    cases blank : isBlankLine line with
    | true =>
      have passed : Preamble [line] := .blank blank .nil
      exact (lacksHead_or_holdsHead rest).imp (·.behind passed) (·.behind passed)
    | false =>
      cases interim : isInterim line with
      | false => exact .inr ⟨[], line, rest, rfl, .nil, blank, interim⟩
      | true =>
        rcases filled_or_closed rest with filled | ⟨block, closing, more, rfl, filled, ends⟩
        · exact .inl (.cut .nil interim filled)
        · have passed : Preamble (line :: (block ++ [closing])) :=
            .interim interim filled ends .nil
          have split : line :: (block ++ closing :: more) =
              line :: (block ++ [closing]) ++ more := by simp
          rw [split]
          exact (lacksHead_or_holdsHead more).imp (·.behind passed) (·.behind passed)
termination_by lines.length

/-! ## Reading up to a head -/

variable {reader : Reader}

private theorem skipInterim_of_faces (filled : ∀ line ∈ block, isBlankLine line = false)
    (ends : isBlankLine closing = true) (faces : reader.Faces (block ++ closing :: lines)) :
    ∃ feed, reader.skipInterim = (.ok (), { reader with feed }) ∧
      ({ reader with feed } : Reader).Faces lines := by
  induction block generalizing reader with
  | nil =>
    obtain ⟨feed, read, onward⟩ := faces.readLine_blank ends
    exact ⟨feed, skipInterim_of_blank read, onward⟩
  | cons line block ih =>
    rw [List.forall_mem_cons] at filled
    obtain ⟨feed, read, onward⟩ := faces.readLine_cons
    rw [skipInterim_of_line read (content_ne_nil filled.1)]
    exact ih filled.2 onward

private theorem skipInterim_of_cut (filled : ∀ line ∈ block, isBlankLine line = false)
    (faces : reader.Faces block) :
    reader.skipInterim =
      (.error (.malformed .endedInsideContinue), { reader with feed := [] }) := by
  induction block generalizing reader with
  | nil => exact skipInterim_of_ended faces.readLine_nil
  | cons line block ih =>
    rw [List.forall_mem_cons] at filled
    obtain ⟨feed, read, onward⟩ := faces.readLine_cons
    rw [skipInterim_of_line read (content_ne_nil filled.1)]
    exact ih filled.2 onward

private theorem readStatusLine_of_blank {next : Reader} (read : reader.readLine = .text [] next) :
    reader.readStatusLine = next.readStatusLine := by
  have same := nextStatusLine_of_blank read
  rcases found : next.nextStatusLine with ⟨failure | line, after⟩
  · rw [readStatusLine_of_error found, readStatusLine_of_error (same.trans found)]
  · by_cases interim : Status.code? line = some 100
    · rcases skipped : after.skipInterim with ⟨failure | done, behind⟩
      · rw [readStatusLine_of_interim_error found interim skipped,
          readStatusLine_of_interim_error (same.trans found) interim skipped]
      · rw [readStatusLine_of_interim found interim skipped,
          readStatusLine_of_interim (same.trans found) interim skipped]
    · rw [readStatusLine_of_final found interim, readStatusLine_of_final (same.trans found) interim]

theorem readStatusLine_of_preamble (preamble : Preamble front)
    (faces : reader.Faces (front ++ lines)) :
    ∃ feed, reader.readStatusLine = ({ reader with feed } : Reader).readStatusLine ∧
      ({ reader with feed } : Reader).Faces lines := by
  induction preamble generalizing reader with
  | nil => exact ⟨reader.feed, rfl, faces⟩
  | blank ends _ ih =>
    obtain ⟨feed, read, onward⟩ := faces.readLine_blank ends
    rw [readStatusLine_of_blank read]
    exact ih onward
  | interim interim filled ends _ ih =>
    rw [List.cons_append, List.append_assoc] at faces
    obtain ⟨feed, read, onward⟩ := faces.readLine_cons
    have found := nextStatusLine_of_line read (content_ne_nil (filled_of_isInterim interim))
    obtain ⟨left, skipped, behind⟩ := skipInterim_of_faces filled ends onward
    rw [readStatusLine_of_interim found (beq_iff_eq.1 interim) skipped]
    exact ih behind

theorem Faces.staged (faces : reader.Faces lines) (stage : Stage) :
    ({ reader with stage } : Reader).Faces lines :=
  ⟨faces.timely, faces.lines⟩

/-! ## Reading a head -/

private theorem readHead_of_closed (preamble : Preamble lines) (faces : reader.Faces lines) :
    reader.readHead = (.error (.malformed .closedBeforeStatusLine),
      { reader with feed := [], stage := .statusLine }) := by
  rw [← List.append_nil lines] at faces
  obtain ⟨feed, passed, onward⟩ :=
    readStatusLine_of_preamble preamble (faces.staged .statusLine)
  have missing := readStatusLine_of_error (nextStatusLine_of_ended onward.readLine_nil)
  simp only [readHead, passed, missing]

private theorem readHead_of_cut (preamble : Preamble front) (interim : isInterim status = true)
    (filled : ∀ line ∈ block, isBlankLine line = false)
    (faces : reader.Faces (front ++ status :: block)) :
    reader.readHead = (.error (.malformed .endedInsideContinue),
      { reader with feed := [], stage := .statusLine }) := by
  obtain ⟨feed, passed, onward⟩ :=
    readStatusLine_of_preamble preamble (faces.staged .statusLine)
  obtain ⟨left, read, behind⟩ := onward.readLine_cons
  have found := nextStatusLine_of_line read (content_ne_nil (filled_of_isInterim interim))
  have missing := readStatusLine_of_interim_error found (beq_iff_eq.1 interim)
    (skipInterim_of_cut filled behind)
  simp only [readHead, passed, missing]

def draftOf (status : Bytes) (rest : List Bytes) : Draft :=
  (Draft.ofStatusLine (content status)).addTexts ((fieldLines rest).map content)

theorem readHead_of_begins (preamble : Preamble front) (begins : BeginsHead status)
    (faces : reader.Faces (front ++ status :: rest)) :
    ∃ feed, reader.readHead = (.ok (draftOf status rest).head,
        { reader with feed, stage := .statusLine }.finishHead (draftOf status rest)) ∧
      feed.bytes = (behindBlank rest).flatten := by
  obtain ⟨feed, passed, onward⟩ :=
    readStatusLine_of_preamble preamble (faces.staged .statusLine)
  obtain ⟨left, read, behind⟩ := onward.readLine_cons
  have final : Status.code? (content status) ≠ some 100 := by
    have final := begins.final
    simpa [isInterim] using final
  have found := readStatusLine_of_line read (content_ne_nil begins.filled) final
  simp only [readHead, passed, found]
  exact readFields_of_faces behind _

private theorem lacksHead_of_error {failure : Failure} (faces : reader.Faces lines)
    (failed : reader.readHead.1 = .error failure) : LacksHead lines := by
  rcases lacksHead_or_holdsHead lines with lacks | ⟨front, status, rest, rfl, preamble, begins⟩
  · exact lacks
  · obtain ⟨feed, read, -⟩ := readHead_of_begins preamble begins faces
    rw [read] at failed
    cases failed

/-- The failure for want of a head is the same whatever preamble comes before. -/
theorem error_of_lacksHead (lacks : LacksHead lines) :
    ∃ failure, ∀ (reader : Reader) (front : List Bytes), Preamble front →
      reader.Faces (front ++ lines) →
      reader.readHead = (.error failure, { reader with feed := [], stage := .statusLine }) := by
  cases lacks with
  | closed closed =>
    exact ⟨_, fun reader front preamble faces => readHead_of_closed (preamble.append closed) faces⟩
  | cut before interim filled =>
    refine ⟨.malformed .endedInsideContinue, fun reader front preamble faces => ?_⟩
    rw [← List.append_assoc] at faces
    exact readHead_of_cut (preamble.append before) interim filled faces

/-- Of a stream that comes in time a head is read exactly if it does not lack one. Whatever the
lines of the head are, the reader then goes on to the body, and what it has left are the bytes
behind the first blank line after the one that the head begins with. -/
theorem readHead_outcome (timely : reader.feed.isTimely reader.limit 0 = true) :
    let lines := Feed.lines reader.feed.bytes
    ((∃ failure, reader.readHead.1 = .error failure) ↔ LacksHead lines) ∧
      (¬ LacksHead lines → HoldsHead lines) ∧
      ∀ front status rest, lines = front ++ status :: rest → Preamble front → BeginsHead status →
        (∃ head, reader.readHead.1 = .ok head) ∧ reader.readHead.2.stage = .body ∧
          reader.readHead.2.feed.bytes = (behindBlank rest).flatten := by
  intro lines
  have faces : reader.Faces lines := ⟨timely, rfl⟩
  refine ⟨⟨?_, ?_⟩, (lacksHead_or_holdsHead lines).resolve_left, ?_⟩
  · rintro ⟨failure, failed⟩
    exact lacksHead_of_error faces failed
  · intro lacks
    obtain ⟨failure, read⟩ := error_of_lacksHead lacks
    exact ⟨failure, congrArg Prod.fst (read reader [] .nil faces)⟩
  · intro front status rest split preamble begins
    rw [split] at faces
    obtain ⟨feed, read, left⟩ := readHead_of_begins preamble begins faces
    rw [read]
    exact ⟨⟨_, rfl⟩, rfl, left⟩

/-- A head that is read to its end: with a fold that continues nothing, a line that is no field,
and a block that is never closed, in which a line looks like one of status. -/
theorem readHead_outcome_of_malformed :
    let sent (text : String) : Bytes := Text.utf8 text.toList
    let reader := Reader.start
      [.piece (sent "\r\nHTTP/1.1 100\n\nweird\r\n x"), .pause 30,
        .piece (sent "\nnothing\n250-a\nHTTP/1.0 204 B\r\n\r"), .pause 40,
        .piece (sent "\n\nbody")] 50 []
    reader.feed.isTimely reader.limit 0 = true ∧ (∃ head, reader.readHead.1 = .ok head) ∧
      reader.readHead.2.stage = .body ∧ reader.readHead.2.feed.bytes = sent "\nbody" := by
  intro sent reader
  have timely : reader.feed.isTimely reader.limit 0 = true := by decide +kernel
  have passed : Preamble [sent "\r\n", sent "HTTP/1.1 100\n", sent "\n"] :=
    .blank (by decide +kernel)
      (@Preamble.interim _ _ [] [] (by decide +kernel) (by simp) (by decide +kernel) .nil)
  have begins : BeginsHead (sent "weird\r\n") := ⟨by decide +kernel, by decide +kernel⟩
  obtain ⟨-, -, outcome⟩ := readHead_outcome timely
  obtain ⟨read, stage, left⟩ := outcome _ _
    [sent " x\n", sent "nothing\n", sent "250-a\n", sent "HTTP/1.0 204 B\r\n", sent "\r\n",
      sent "\n", sent "body"] (by decide +kernel) passed begins
  exact ⟨timely, read, stage, left.trans (by decide +kernel)⟩

/-- Interim responses make no difference to the head that comes behind them, nor to what is left
behind it, and neither do they if there is none. -/
theorem readHead_behind_preamble {feed : Feed} (preamble : Preamble front)
    (whole : ∀ line ∈ front, Feed.IsWhole line)
    (timely : reader.feed.isTimely reader.limit 0 = true)
    (inTime : feed.isTimely reader.limit 0 = true)
    (bytes : reader.feed.bytes = front.flatten ++ feed.bytes) :
    let long := reader.readHead
    let short := ({ reader with feed } : Reader).readHead
    long.1 = short.1 ∧ long.2 = { short.2 with feed := long.2.feed } ∧
      long.2.feed.bytes = short.2.feed.bytes := by
  have faces : reader.Faces (front ++ Feed.lines feed.bytes) :=
    ⟨timely, by rw [bytes, Feed.lines_flatten_append whole]⟩
  have plain : ({ reader with feed } : Reader).Faces (Feed.lines feed.bytes) := ⟨inTime, rfl⟩
  rcases lacksHead_or_holdsHead (Feed.lines feed.bytes) with lacks |
    ⟨before, status, rest, split, passed, begins⟩
  · obtain ⟨failure, read⟩ := error_of_lacksHead lacks
    have long := read reader front preamble faces
    have short := read { reader with feed } [] .nil plain
    simp only [long, short]
    exact ⟨trivial, trivial, trivial⟩
  · rw [split] at faces plain
    rw [← List.append_assoc] at faces
    obtain ⟨first, long, left⟩ := readHead_of_begins (preamble.append passed) begins faces
    obtain ⟨second, short, right⟩ := readHead_of_begins passed begins plain
    simp only [long, short]
    exact ⟨trivial, rfl, left.trans right.symm⟩

/-- Two interim responses, the second with lines like those of a head. -/
theorem readHead_behind_preamble_of_headlike :
    let sent (text : String) : Bytes := Text.utf8 text.toList
    let front := [sent "HTTP/1.1 100 Continue\r\n", sent "\n", sent "\r\n",
      sent "HTTP/1.1 100 Again\n", sent "HTTP/1.0 200 OK\r\n", sent "A: 1\n", sent "250-a\n",
      sent "\r\n"]
    let response := sent "\nHTTP/1.0 204 No Content\r\nB: 2\r\n\r\nbody"
    let reader := Reader.start [.piece (front.flatten.take 7), .pause 20,
      .piece (front.flatten.drop 7 ++ response)] 50 []
    let plain := Reader.start [.piece response] 50 []
    Preamble front ∧ reader.feed.bytes = front.flatten ++ plain.feed.bytes ∧
      reader.readHead.1 = plain.readHead.1 ∧
      plain.readHead.1.map Head.fields = .ok [⟨"b".toList, ["2".toList]⟩] ∧
      reader.readHead.2.feed.bytes = sent "body" := by
  intro sent front response reader plain
  have second : Preamble [sent "HTTP/1.1 100 Again\n", sent "HTTP/1.0 200 OK\r\n",
      sent "A: 1\n", sent "250-a\n", sent "\r\n"] :=
    @Preamble.interim _ _ [sent "HTTP/1.0 200 OK\r\n", sent "A: 1\n", sent "250-a\n"] []
      (by decide +kernel) (by decide +kernel) (by decide +kernel) .nil
  have preamble : Preamble front :=
    @Preamble.interim _ _ [] _ (by decide +kernel) (by simp) (by decide +kernel)
      (.blank (by decide +kernel) second)
  have ended : ∀ line ∈ front, 10 ∉ line.dropLast ∧ line = line.dropLast ++ [10] := by
    decide +kernel
  have bytes : reader.feed.bytes = front.flatten ++ plain.feed.bytes := by decide +kernel
  have inTime : plain.feed.isTimely reader.limit 0 = true := by decide +kernel
  obtain ⟨heads, -, left⟩ := readHead_behind_preamble preamble
    (fun line member => ⟨line.dropLast, ended line member⟩) (by decide +kernel) inTime bytes
  exact ⟨preamble, bytes, heads, by decide +kernel, left.trans (by decide +kernel)⟩

end Reader

end WebClient
