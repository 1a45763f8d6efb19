import Mathlib.Logic.Function.Basic
import WebClient.Proofs.BodyReading
import WebClient.Proofs.Latin1
import WebClient.Proofs.ReadHead
import WebClient.Response.Intake

/-!
# Responses in pieces

A response that arrives whole may do so in any pieces. Readers that are to get the
same bytes read the same head and the same bodies, and go on agreeing after any
number of reads.
-/

set_option autoImplicit false

namespace WebClient

namespace Reader

/-- The same is to come for both readers. Nothing but its pieces tells them apart, and
what they would say had timed out. -/
def Agree (bytes : Bytes) (left right : Reader) : Prop :=
  ∃ feed url, right = { left with feed, url } ∧ left.feed.Brings bytes ∧ feed.Brings bytes

def Alike {α : Type} (bytes : Bytes) (left right : α × Reader) : Prop :=
  left.1 = right.1 ∧ ∃ rest, rest <:+ bytes ∧ Agree rest left.2 right.2

namespace Agree

variable {bytes rest : Bytes} {left right : Reader}

theorem start {first second : Feed} (brings : first.Brings bytes) (brought : second.Brings bytes)
    (limit : Nat) (one other : Text) :
    Agree bytes (.start first limit one) (.start second limit other) :=
  ⟨second.divided, other, rfl, brings.divided, brought.divided⟩

theorem refl {reader : Reader} (brings : reader.feed.Brings bytes) : Agree bytes reader reader :=
  ⟨reader.feed, reader.url, rfl, brings, brings⟩

theorem brings (agree : Agree bytes left right) : left.feed.Brings bytes := by
  obtain ⟨feed, url, rfl, brings, -⟩ := agree
  exact brings

theorem brought (agree : Agree bytes left right) : right.feed.Brings bytes := by
  obtain ⟨feed, url, rfl, -, brought⟩ := agree
  exact brought

theorem received (agree : Agree bytes left right) : left.received = right.received := by
  obtain ⟨feed, url, rfl, -, -⟩ := agree
  rfl

theorem journal (agree : Agree bytes left right) : left.journal = right.journal := by
  obtain ⟨feed, url, rfl, -, -⟩ := agree
  rfl

theorem onward (agree : Agree bytes left right) {first second : Feed}
    (brings : first.Brings rest) (brought : second.Brings rest) :
    Agree rest { left with feed := first } { right with feed := second } := by
  obtain ⟨feed, url, rfl, -, -⟩ := agree
  exact ⟨second, url, rfl, brings, brought⟩

/-- What does not look at the feed keeps the agreement. -/
theorem map (agree : Agree bytes left right) (change : Reader → Reader)
    (blind : ∀ reader feed url,
      change { reader with feed, url } = { change reader with feed, url }) :
    Agree bytes (change left) (change right) := by
  obtain ⟨feed, url, rfl, brings, brought⟩ := agree
  have same : change left = { change left with feed := left.feed, url := left.url } :=
    blind left left.feed left.url
  refine ⟨feed, url, blind left feed url, ?_, brought⟩
  rw [same]
  exact brings

/-! ## Lines -/

theorem readLine (agree : Agree bytes left right) :
    (∃ line first second rest, left.readLine = .text line first ∧
      right.readLine = .text line second ∧ rest <:+ bytes.tail ∧ Agree rest first second) ∨
    ∃ first second, left.readLine = .ended first ∧ right.readLine = .ended second ∧
      Agree [] first second := by
  obtain ⟨feed, url, rfl, brings, brought⟩ := agree
  have agree : Agree bytes left { left with feed, url } := ⟨feed, url, rfl, brings, brought⟩
  -- Where the line ends is decided by the bytes; without a line feed it is all of them.
  cases cut : Feed.cutLine? bytes with
  | some parts =>
    obtain ⟨line, after⟩ := parts
    obtain ⟨whole, nonempty⟩ := Feed.cutLine?_eq_some cut
    obtain ⟨first, read, left_brings⟩ := Feed.lineAfter_of_brings brings cut left.limit 0 []
    obtain ⟨second, same, right_brings⟩ := Feed.lineAfter_of_brings brought cut left.limit 0 []
    refine .inl ⟨Text.latin1 (dropEnding line), { left with feed := first },
      { left with feed := second, url }, after, ?_, ?_, ?_, agree.onward left_brings right_brings⟩
    · simp only [Reader.readLine, Feed.readLine, read, List.nil_append]
    · simp only [Reader.readLine, Feed.readLine, same, List.nil_append]
    · rw [whole, List.tail_append_of_ne_nil nonempty]
      exact List.suffix_append _ _
  | none =>
    have read := Feed.lineAfter_of_brings_last brings cut left.limit 0 []
    have same := Feed.lineAfter_of_brings_last brought cut left.limit 0 []
    rw [List.nil_append] at read same
    by_cases empty : bytes.isEmpty = true
    · rw [if_pos empty] at read same
      refine .inr ⟨{ left with feed := [] }, { left with feed := [], url }, ?_, ?_,
        agree.onward .nil .nil⟩
      · simp only [Reader.readLine, Feed.readLine, read]
      · simp only [Reader.readLine, Feed.readLine, same]
    · rw [if_neg empty] at read same
      refine .inl ⟨Text.latin1 (dropEnding bytes), { left with feed := [] },
        { left with feed := [], url }, [], ?_, ?_, List.nil_suffix, agree.onward .nil .nil⟩
      · simp only [Reader.readLine, Feed.readLine, read]
      · simp only [Reader.readLine, Feed.readLine, same]

theorem of_text (agree : Agree bytes left right) {line : Text} {next : Reader}
    (read : left.readLine = .text line next) :
    ∃ other rest, right.readLine = .text line other ∧ rest <:+ bytes.tail ∧
      Agree rest next other := by
  rcases agree.readLine with ⟨_, first, second, rest, same, beside, ending, onward⟩ |
    ⟨first, second, same, -, -⟩
  · cases read.symm.trans same
    exact ⟨second, rest, beside, ending, onward⟩
  · cases read.symm.trans same

theorem of_ended (agree : Agree bytes left right) {next : Reader}
    (read : left.readLine = .ended next) :
    ∃ other, right.readLine = .ended other ∧ Agree [] next other := by
  rcases agree.readLine with ⟨_, first, second, rest, same, -, -, -⟩ |
    ⟨first, second, same, beside, onward⟩
  · cases read.symm.trans same
  · cases read.symm.trans same
    exact ⟨second, beside, onward⟩

theorem not_failed (agree : Agree bytes left right) {failure : Failure} {next : Reader} :
    left.readLine ≠ .failed failure next := by
  intro read
  rcases agree.readLine with ⟨_, _, _, _, same, -, -, -⟩ | ⟨_, _, same, -, -⟩
  · cases read.symm.trans same
  · cases read.symm.trans same

end Agree

/-! ## Heads -/

namespace Alike

variable {α : Type} {bytes rest : Bytes} {left right : α × Reader}

theorem of_agree {value : α} {first second : Reader} (agree : Agree rest first second)
    (ending : rest <:+ bytes) : Alike bytes (value, first) (value, second) :=
  ⟨rfl, rest, ending, agree⟩

theorem mono (alike : Alike rest left right) (ending : rest <:+ bytes) :
    Alike bytes left right := by
  obtain ⟨same, final, left_over, agree⟩ := alike
  exact ⟨same, final, left_over.trans ending, agree⟩

theorem beside (alike : Alike bytes left right) {value : α} {next : Reader}
    (given : left = (value, next)) :
    ∃ other final, right = (value, other) ∧ final <:+ bytes ∧ Agree final next other := by
  obtain ⟨same, final, ending, agree⟩ := alike
  subst given
  exact ⟨right.2, final, Prod.ext same.symm rfl, ending, agree⟩

end Alike

variable {bytes : Bytes} {left right : Reader}

private theorem alike_nextStatusLine (agree : Agree bytes left right) :
    Alike bytes.tail left.nextStatusLine right.nextStatusLine := by
  fun_induction nextStatusLine left generalizing right bytes with
  | case1 left next read ih =>
    obtain ⟨other, rest, beside, ending, onward⟩ := agree.of_text read
    rw [nextStatusLine_of_blank beside]
    exact (ih onward).mono ((List.tail_suffix rest).trans ending)
  | case2 left line next nonblank read =>
    obtain ⟨other, rest, beside, ending, onward⟩ := agree.of_text read
    rw [nextStatusLine_of_line beside nonblank]
    exact .of_agree onward ending
  | case3 left next read =>
    obtain ⟨other, beside, onward⟩ := agree.of_ended read
    rw [nextStatusLine_of_ended beside]
    exact .of_agree onward List.nil_suffix
  | case4 left failure next read => exact absurd read agree.not_failed

private theorem alike_skipInterim (agree : Agree bytes left right) :
    Alike bytes.tail left.skipInterim right.skipInterim := by
  fun_induction skipInterim left generalizing right bytes with
  | case1 left next read =>
    obtain ⟨other, rest, beside, ending, onward⟩ := agree.of_text read
    rw [skipInterim_of_blank beside]
    exact .of_agree onward ending
  | case2 left line next nonblank read ih =>
    obtain ⟨other, rest, beside, ending, onward⟩ := agree.of_text read
    rw [skipInterim_of_line beside nonblank]
    exact (ih onward).mono ((List.tail_suffix rest).trans ending)
  | case3 left next read =>
    obtain ⟨other, beside, onward⟩ := agree.of_ended read
    rw [skipInterim_of_ended beside]
    exact .of_agree onward List.nil_suffix
  | case4 left failure next read => exact absurd read agree.not_failed

private theorem alike_readStatusLine (agree : Agree bytes left right) :
    Alike bytes.tail left.readStatusLine right.readStatusLine := by
  fun_induction readStatusLine left generalizing right bytes with
  | case1 left failure next found =>
    obtain ⟨other, rest, beside, ending, onward⟩ := (alike_nextStatusLine agree).beside found
    rw [readStatusLine_of_error beside]
    exact .of_agree onward ending
  | case2 left line next found interim failure after skipped =>
    obtain ⟨other, rest, beside, ending, onward⟩ := (alike_nextStatusLine agree).beside found
    obtain ⟨last, final, stopped, closing, agreed⟩ := (alike_skipInterim onward).beside skipped
    rw [readStatusLine_of_interim_error beside interim stopped]
    exact .of_agree agreed (closing.trans ((List.tail_suffix rest).trans ending))
  | case3 left line next found interim done after skipped ih =>
    obtain ⟨other, rest, beside, ending, onward⟩ := (alike_nextStatusLine agree).beside found
    obtain ⟨last, final, passed, closing, agreed⟩ := (alike_skipInterim onward).beside skipped
    rw [readStatusLine_of_interim beside interim passed]
    have later : final.tail <:+ rest := (List.tail_suffix final).trans
      (closing.trans (List.tail_suffix rest))
    exact (ih agreed).mono (later.trans ending)
  | case4 left line next found final =>
    obtain ⟨other, rest, beside, ending, onward⟩ := (alike_nextStatusLine agree).beside found
    rw [readStatusLine_of_final beside final]
    exact .of_agree onward ending

private theorem alike_readFields (agree : Agree bytes left right) (draft : Draft) :
    Alike bytes.tail (left.readFields draft) (right.readFields draft) := by
  fun_induction readFields left draft generalizing right bytes with
  | case1 left draft next read =>
    obtain ⟨other, rest, beside, ending, onward⟩ := agree.of_text read
    rw [readFields_of_blank draft beside]
    exact .of_agree (onward.map (finishHead · draft) fun _ _ _ => rfl) ending
  | case2 left draft line next nonblank read ih =>
    obtain ⟨other, rest, beside, ending, onward⟩ := agree.of_text read
    rw [readFields_of_line draft beside nonblank]
    exact (ih onward).mono ((List.tail_suffix rest).trans ending)
  | case3 left draft next read =>
    obtain ⟨other, beside, onward⟩ := agree.of_ended read
    rw [readFields_of_ended draft beside]
    exact .of_agree (onward.map (finishHead · draft) fun _ _ _ => rfl) List.nil_suffix
  | case4 left draft failure next read => exact absurd read agree.not_failed

/-- Readers that are to get the same bytes read the same head, or fail alike. -/
theorem alike_readHead (agree : Agree bytes left right) :
    Alike bytes.tail left.readHead right.readHead := by
  have begun := agree.map (fun reader => { reader with stage := .statusLine }) fun _ _ _ => rfl
  have lines := alike_readStatusLine begun
  rcases found : { left with stage := .statusLine }.readStatusLine with ⟨outcome, next⟩
  obtain ⟨other, rest, beside, ending, onward⟩ := lines.beside found
  cases outcome with
  | error failure =>
    simp only [readHead, found, beside]
    exact .of_agree onward ending
  | ok line =>
    simp only [readHead, found, beside]
    exact (alike_readFields onward _).mono ((List.tail_suffix rest).trans ending)

theorem alike_readHeaded (agree : Agree bytes left right) :
    Alike bytes.tail left.readHeaded right.readHeaded := by
  rcases read : left.readHead with ⟨outcome, next⟩
  obtain ⟨other, rest, beside, ending, onward⟩ := (alike_readHead agree).beside read
  cases outcome with
  | error failure =>
    simp only [readHeaded, read, beside]
    exact .of_agree onward ending
  | ok head =>
    simp only [readHeaded, read, beside]
    exact .of_agree onward ending

/-! ## Bodies -/

private theorem remainder_suffix (wanted : Option Nat) (bytes : Bytes) :
    remainder wanted bytes <:+ bytes := by
  cases wanted with
  | none => exact List.nil_suffix
  | some count => exact List.drop_suffix count bytes

theorem alike_readText (agree : Agree bytes left right) (extent : Extent) :
    Alike bytes (left.readText extent) (right.readText extent) := by
  obtain ⟨first, read, left_brings⟩ := readTextFrom_of_brings agree.brings extent []
  obtain ⟨second, same, right_brings⟩ := readTextFrom_of_brings agree.brought extent []
  obtain ⟨feed, url, rfl, -, -⟩ := agree
  rw [readText, readText, read, same]
  exact ⟨rfl, _, remainder_suffix _ _, second, url, rfl, left_brings, right_brings⟩

variable {τ ι : Type} {output : Output τ} {ready : τ → Prop} {held : τ → Bytes}

def Level (ready : τ → Prop) (held : τ → Bytes) (first second : τ) : Prop :=
  ready first ∧ ready second ∧ held first = held second

private theorem alike_copyTo (collects : output.Collects ready held)
    (agree : Agree bytes left right)
    (extent : Extent) {first second : τ} (level : Level ready held first second) :
    ∃ read leftEnd rightEnd firstEnd secondEnd,
      left.copyTo extent output first = (read, leftEnd, firstEnd) ∧
      right.copyTo extent output second = (read, rightEnd, secondEnd) ∧
      (∃ rest, Agree rest leftEnd rightEnd) ∧ Level ready held firstEnd secondEnd := by
  obtain ⟨isReady, alsoReady, same⟩ := level
  obtain ⟨texts, rest, -, onward⟩ := alike_readText agree extent
  obtain ⟨part, firstEnd, copied, value, kept, grown⟩ :=
    copyTo_of_collects collects isReady left extent
  obtain ⟨other, secondEnd, beside, otherValue, alsoKept, alsoGrown⟩ :=
    copyTo_of_collects collects alsoReady right extent
  -- Both copies come to the same text, and no two lists of bytes have one text.
  have parts : part = other := by
    refine Text.latin1_injective ?_
    rw [← value, ← otherValue, texts]
  subst parts
  rw [← texts] at beside
  refine ⟨_, _, _, firstEnd, secondEnd, copied, beside, ⟨rest, onward⟩, kept, alsoKept, ?_⟩
  rw [grown, alsoGrown, same]

/-! ## One reading after the other -/

/-- What is asked of a body: text, or that it be copied to one of several outputs. -/
inductive Demand (ι : Type)
  | text (extent : Extent)
  | copy (extent : Extent) (place : ι)

inductive Supply
  | text (read : BodyRead Text) (received : Nat)
  | copied (read : BodyRead Nat) (received : Nat)
  deriving DecidableEq, Repr

variable [DecidableEq ι]

def meet (output : Output τ) : List (Demand ι) → Reader → (ι → τ) →
    List Supply × Reader × (ι → τ)
  | [], reader, outputs => ([], reader, outputs)
  | .text extent :: rest, reader, outputs =>
    let (read, reader) := reader.readText extent
    let (supplies, last, outputs) := meet output rest reader outputs
    (.text read reader.received :: supplies, last, outputs)
  | .copy extent place :: rest, reader, outputs =>
    let (read, reader, state) := reader.copyTo extent output (outputs place)
    let (supplies, last, outputs) :=
      meet output rest reader (Function.update outputs place state)
    (.copied read reader.received :: supplies, last, outputs)

private theorem level_update {first second : ι → τ}
    (level : ∀ place, Level ready held (first place) (second place)) {firstEnd secondEnd : τ}
    (ends : Level ready held firstEnd secondEnd) (place other : ι) :
    Level ready held (Function.update first place firstEnd other)
      (Function.update second place secondEnd other) := by
  by_cases here : other = place
  · subst here
    rw [Function.update_self, Function.update_self]
    exact ends
  · rw [Function.update_of_ne here, Function.update_of_ne here]
    exact level other

/-- Readers that are to get the same bytes meet all demands alike, and leave outputs
that have been given the same. -/
theorem meet_of_agree (collects : output.Collects ready held) (agree : Agree bytes left right)
    (demands : List (Demand ι)) {first second : ι → τ}
    (level : ∀ place, Level ready held (first place) (second place)) :
    (left.meet output demands first).1 = (right.meet output demands second).1 ∧
      ∀ place, Level ready held ((left.meet output demands first).2.2 place)
        ((right.meet output demands second).2.2 place) := by
  induction demands generalizing left right bytes first second with
  | nil => exact ⟨rfl, level⟩
  | cons demand rest ih =>
    cases demand with
    | text extent =>
      obtain ⟨texts, final, -, onward⟩ := alike_readText agree extent
      obtain ⟨supplies, outputs⟩ := ih onward level
      refine ⟨?_, outputs⟩
      simp only [meet, texts, onward.received, supplies]
    | copy extent place =>
      obtain ⟨read, leftEnd, rightEnd, firstEnd, secondEnd, copied, beside, ⟨final, onward⟩,
        ends⟩ := alike_copyTo collects agree extent (level place)
      obtain ⟨supplies, outputs⟩ := ih onward (level_update level ends place)
      simp only [meet, copied, beside, onward.received, supplies]
      exact ⟨trivial, outputs⟩

/-- However the bytes of a response are cut into pieces, the head is the same or fails
alike, and so are the texts, the bytes copied, the failures and the totals of all
readings of the body that follow. -/
theorem meet_of_brings {first second : Feed} {bytes : Bytes} (brings : first.Brings bytes)
    (brought : second.Brings bytes) (limit : Nat) (url : Text)
    (collects : output.Collects ready held) (demands : List (Demand ι)) (outputs : ι → τ)
    (isReady : ∀ place, ready (outputs place)) :
    let left := readHead (.start first limit url)
    let right := readHead (.start second limit url)
    left.1 = right.1 ∧ left.2.stage = right.2.stage ∧
      (left.2.meet output demands outputs).1 = (right.2.meet output demands outputs).1 ∧
      ∀ place, held ((left.2.meet output demands outputs).2.2 place) =
        held ((right.2.meet output demands outputs).2.2 place) := by
  obtain ⟨heads, rest, -, agree⟩ := alike_readHead (Agree.start brings brought limit url url)
  have level : ∀ place, Level ready held (outputs place) (outputs place) := fun place =>
    ⟨isReady place, isReady place, rfl⟩
  obtain ⟨supplies, ends⟩ := meet_of_agree collects agree demands level
  refine ⟨heads, ?_, supplies, fun place => (ends place).2.2⟩
  obtain ⟨feed, _, same, -, -⟩ := agree
  rw [same]

/-- Cut inside line endings, and at the end of the head. -/
theorem meet_of_split_endings :
    let bytes := Text.utf8 "HTTP/1.0 200 OK\r\nA: 1\r\n\r\nabc".toList
    let cut : Feed := ["HTTP/1.0 200 OK\r", "\nA: 1\r\n\r", "\n", "abc"].map fun piece =>
      .piece (Text.utf8 piece.toList)
    let left := readHead (.start cut 0 [])
    let right := readHead (.start [.piece bytes] 0 [])
    let demands : List (Demand Unit) := [.text (.length 2), .copy (.length 9) ()]
    cut.Brings bytes ∧ Sink.output.Collects Sink.TakesAll Sink.held ∧ Sink.unlimited.TakesAll ∧
      left.1 = right.1 ∧ left.2.stage = right.2.stage ∧
      (left.2.meet Sink.output demands fun _ => .unlimited).1 =
        (right.2.meet Sink.output demands fun _ => .unlimited).1 ∧
      ((left.2.meet Sink.output demands fun _ => .unlimited).2.2 ()).held =
        ((right.2.meet Sink.output demands fun _ => .unlimited).2.2 ()).held := by
  intro bytes cut left right demands
  have brings : cut.Brings bytes :=
    ⟨["HTTP/1.0 200 OK\r", "\nA: 1\r\n\r", "\n", "abc"].map fun piece => Text.utf8 piece.toList,
      rfl, by decide +kernel⟩
  have takesAll : Sink.unlimited.TakesAll := ⟨fun _ _ => rfl, rfl⟩
  obtain ⟨heads, stages, supplies, outputs⟩ := meet_of_brings brings (.piece bytes) 0 []
    Sink.collects_output demands (fun _ => .unlimited) fun _ => takesAll
  exact ⟨brings, Sink.collects_output, takesAll, heads, stages, supplies, outputs ()⟩

end Reader

end WebClient
