import WebClient.Proofs.Segmentation

/-!
# Bodies are conserved

A body may be read in several goes, as text or into an output, and any of them may end
early: at a timeout, at a fault, with the stream, at a write or a flush that fails. What
was given so far is always the beginning of the body, as long as the count of what was
received, and the rest is still to come.
-/

set_option autoImplicit false

namespace WebClient

variable {ι τ : Type}

/-- The output takes a write whole or, where it fails, not at all, and has taken what is
`held`. It may fail at any time. -/
structure Output.Keeps (output : Output τ) (held : τ → Bytes) : Prop where
  taken : ∀ {state bytes later}, output.write state bytes = (later, none) →
    held later = held state ++ bytes
  refused : ∀ {state bytes later fault}, output.write state bytes = (later, some fault) →
    held later = held state
  flush : ∀ state, held (output.flush state).1 = held state

namespace Sink

theorem keeps_output : output.Keeps held := by
  constructor
  · intro sink bytes later written
    simp only [output] at written
    split at written <;> cases written
    rfl
  · intro sink bytes later fault written
    simp only [output] at written
    split at written <;> cases written
    rfl
  · intro sink
    rfl

end Sink

namespace Feed

def Fetch.bytes : Fetch → Bytes
  | data bytes rest => bytes ++ rest.bytes
  | ended => []
  | faulted _ rest | expired rest => rest.bytes

private theorem bytes_fetchAfter (limit waited : Nat) (feed : Feed) :
    (fetchAfter limit waited feed).bytes = feed.bytes := by
  fun_induction fetchAfter limit waited feed with
  | case1 => rfl
  | case2 waited rest ih => exact ih
  | case3 => rfl
  | case4 => rfl
  | case5 waited milliseconds rest inTime ih => exact ih
  | case6 => rfl
  | case7 => rfl

theorem bytes_fetch (limit : Nat) (feed : Feed) : (feed.fetch limit).bytes = feed.bytes :=
  bytes_fetchAfter limit 0 feed

end Feed

namespace Reader

theorem share_append_remainder (wanted : Option Nat) (bytes : Bytes) :
    share wanted bytes ++ remainder wanted bytes = bytes := by
  cases wanted with
  | none => exact List.append_nil bytes
  | some count => exact List.take_append_drop count bytes

/-! ## One reading -/

/-- From one moment to a later one a reader has taken some bytes off its feed, has
counted them, and has left the rest. -/
structure Takes (before : Reader) (part : Bytes) (after : Reader) : Prop where
  feed : before.feed.bytes = part ++ after.feed.bytes
  received : after.received = before.received + part.length

namespace Takes

variable {first second third : Reader} {early late : Bytes}

theorem refl (reader : Reader) : Takes reader [] reader := ⟨rfl, rfl⟩

theorem trans (left : Takes first early second) (right : Takes second late third) :
    Takes first (early ++ late) third := by
  constructor
  · rw [left.feed, right.feed, List.append_assoc]
  · rw [right.received, left.received, List.length_append, Nat.add_assoc]

theorem of_fetch {reader : Reader} {feed : Feed} {fetch : Feed.Fetch}
    (fetched : reader.feed.fetch reader.limit = fetch) (left : fetch.bytes = feed.bytes) :
    Takes reader [] { reader with feed } := by
  refine ⟨?_, rfl⟩
  rw [← left, ← fetched, Feed.bytes_fetch]
  rfl

theorem passed {reader : Reader} {bytes : Bytes} {rest : Feed} (extent : Extent)
    (fetched : reader.feed.fetch reader.limit = .data bytes rest) :
    Takes reader (share (reader.wanted extent) bytes) (reader.passed extent bytes rest) := by
  refine ⟨?_, rfl⟩
  have all := Feed.bytes_fetch reader.limit reader.feed
  rw [fetched] at all
  rw [← all, Reader.passed, Feed.bytes_unread, ← List.append_assoc, share_append_remainder]
  rfl

end Takes

theorem takes_readTextFrom (reader : Reader) (extent : Extent) (text : Text) :
    ∃ part, (reader.readTextFrom extent text).1.value = text ++ Text.latin1 part ∧
      reader.Takes part (reader.readTextFrom extent text).2 := by
  fun_induction readTextFrom reader extent text with
  | case1 reader text satisfied => exact ⟨[], by simp, .refl reader⟩
  | case2 reader text unsatisfied bytes rest fetched part ih =>
    obtain ⟨more, value, takes⟩ := ih
    refine ⟨part ++ more, ?_, (Takes.passed extent fetched).trans takes⟩
    rw [value, Text.latin1_append, List.append_assoc]
  | case3 reader text unsatisfied ended =>
    exact ⟨[], by simp, .of_fetch ended rfl⟩
  | case4 reader text unsatisfied fault rest faulted =>
    exact ⟨[], by simp, .of_fetch faulted rfl⟩
  | case5 reader text unsatisfied rest expired =>
    exact ⟨[], by simp, .of_fetch expired rfl⟩

/-- A copy has taken some bytes, and both its count and its output have grown by them. -/
structure Copies (held : τ → Bytes) (before : Reader) (state : τ) (count : Nat) (part : Bytes)
    (copy : BodyRead Nat × Reader × τ) : Prop where
  value : copy.1.value = count + part.length
  takes : before.Takes part copy.2.1
  held : held copy.2.2 = held state ++ part

namespace Copies

variable {held : τ → Bytes} {before after : Reader} {state later : τ} {count : Nat}

theorem of_nothing (takes : before.Takes [] after) (same : held later = held state)
    (failure : Option Failure) :
    Copies held before state count [] (⟨count, failure⟩, after, later) :=
  ⟨rfl, takes, by simp [same]⟩

theorem finishCopy {output : Output τ} (keeps : output.Keeps held)
    (takes : before.Takes [] after) :
    Copies held before state count [] (finishCopy output state after count) := by
  have same := keeps.flush state
  rcases flushed : output.flush state with ⟨later, fault⟩
  rw [flushed] at same
  unfold Reader.finishCopy
  rw [flushed]
  cases fault <;> exact of_nothing takes same _

private theorem prepend {first more : Bytes} {copy : BodyRead Nat × Reader × τ}
    (takes : before.Takes first after) (grown : held later = held state ++ first)
    (copies : Copies held after later (count + first.length) more copy) :
    Copies held before state count (first ++ more) copy := by
  constructor
  · rw [copies.value, List.length_append, Nat.add_assoc]
  · exact takes.trans copies.takes
  · rw [copies.held, grown, List.append_assoc]

end Copies

theorem copies_copyFrom {output : Output τ} {held : τ → Bytes} (keeps : output.Keeps held)
    (state : τ) (reader : Reader) (extent : Extent) (count : Nat) :
    ∃ part, Copies held reader state count part
      (copyFrom output state reader extent count) := by
  fun_induction copyFrom output state reader extent count with
  | case1 state reader count satisfied => exact ⟨[], .finishCopy keeps (.refl reader)⟩
  | case2 state reader count unsatisfied bytes rest fetched part later fault refused =>
    -- What the output refuses has been put back on the feed.
    exact ⟨[], .of_nothing (.of_fetch fetched rfl) (keeps.refused refused) _⟩
  | case3 state reader count unsatisfied bytes rest fetched part later taken ih =>
    obtain ⟨more, copies⟩ := ih
    exact ⟨part ++ more, copies.prepend (.passed extent fetched) (keeps.taken taken)⟩
  | case4 state reader count unsatisfied ended =>
    exact ⟨[], .of_nothing (.of_fetch ended rfl) rfl _⟩
  | case5 state reader count unsatisfied ended =>
    exact ⟨[], .finishCopy keeps (.of_fetch ended rfl)⟩
  | case6 state reader count unsatisfied fault rest faulted =>
    exact ⟨[], .of_nothing (.of_fetch faulted rfl) rfl _⟩
  | case7 state reader count unsatisfied rest expired =>
    exact ⟨[], .of_nothing (.of_fetch expired rfl) rfl _⟩

/-! ## One reading after the other -/

/-- A reading has given some bytes: a text stands for them, a copy reports their number. -/
def Supply.Gives : Supply → Bytes → Prop
  | .text read _, part => read.value = Text.latin1 part
  | .copied read _, part => read.value = part.length

variable [DecidableEq ι]

/-- The parts, of those that were given for the demands, that were copied to a place. -/
def copiedTo (place : ι) : List (Demand ι) → List Bytes → Bytes
  | .copy _ other :: demands, part :: parts =>
    (if other = place then part else []) ++ copiedTo place demands parts
  | .text _ :: demands, _ :: parts => copiedTo place demands parts
  | _, _ => []

private theorem takes_meet {output : Output τ} {held : τ → Bytes} (keeps : output.Keeps held)
    (reader : Reader) (demands : List (Demand ι)) (outputs : ι → τ) :
    ∃ parts, List.Forall₂ Supply.Gives (reader.meet output demands outputs).1 parts ∧
      reader.Takes parts.flatten (reader.meet output demands outputs).2.1 ∧
      ∀ place, held ((reader.meet output demands outputs).2.2 place) =
        held (outputs place) ++ copiedTo place demands parts := by
  induction demands generalizing reader outputs with
  | nil => exact ⟨[], .nil, .refl reader, fun place => (List.append_nil _).symm⟩
  | cons demand rest ih =>
    cases demand with
    | text extent =>
      obtain ⟨part, value, takes⟩ := takes_readTextFrom reader extent []
      obtain ⟨parts, gives, onward, grown⟩ := ih (reader.readText extent).2 outputs
      exact ⟨part :: parts, .cons value gives, takes.trans onward, grown⟩
    | copy extent place =>
      -- Only this place grows, by what was copied; all others are as they were.
      obtain ⟨part, copies⟩ := copies_copyFrom keeps (outputs place) reader extent 0
      obtain ⟨parts, gives, onward, grown⟩ := ih (reader.copyTo extent output (outputs place)).2.1
        (Function.update outputs place (reader.copyTo extent output (outputs place)).2.2)
      have value : (reader.copyTo extent output (outputs place)).1.value = part.length :=
        copies.value.trans (Nat.zero_add _)
      refine ⟨part :: parts, .cons value gives, copies.takes.trans onward, fun other => ?_⟩
      refine (grown other).trans ?_
      by_cases here : other = place
      · subst here
        rw [Function.update_self, copiedTo, if_pos rfl, ← List.append_assoc]
        exact congrArg (· ++ _) copies.held
      · rw [Function.update_of_ne here, copiedTo, if_neg (Ne.symm here), List.nil_append]

/-- What the readings of a body give, one after the other, is the beginning of it that
has the received length, however each of them ends: the texts stand for their parts of it,
every copy reports the length of its part, and every place has grown by the parts that
were copied to it. The rest is still to come. -/
theorem meet_conserves {output : Output τ} {held : τ → Bytes} (keeps : output.Keeps held)
    {reader : Reader} (fresh : reader.received = 0) (demands : List (Demand ι))
    (outputs : ι → τ) :
    let run := reader.meet output demands outputs
    ∃ parts, List.Forall₂ Supply.Gives run.1 parts ∧
      (∀ place, held (run.2.2 place) = held (outputs place) ++ copiedTo place demands parts) ∧
      parts.flatten = reader.feed.bytes.take run.2.1.received ∧
      parts.flatten.length = run.2.1.received ∧
      run.2.1.feed.bytes = reader.feed.bytes.drop run.2.1.received := by
  intro run
  obtain ⟨parts, gives, takes, grown⟩ := takes_meet keeps reader demands outputs
  have count : parts.flatten.length = run.2.1.received := by
    rw [takes.received, fresh, Nat.zero_add]
  -- The count of a fresh reader is the length of what it gave, which divides the body.
  refine ⟨parts, gives, grown, ?_, count, ?_⟩
  · rw [takes.feed, ← count, List.take_left]
  · rw [takes.feed, ← count, List.drop_left]

/-- Some bytes of a body, a pause and a fault later more, and a place with room for three:
a wait that is too long, a write that is refused, a fault and silence end the readings. -/
theorem meet_conserves_of_interrupted :
    let feed : Feed := [.piece (Text.utf8 "abcd".toList), .pause 70,
      .piece (Text.utf8 "efgh".toList), .fault (.io .connectionReset),
      .piece (Text.utf8 "ij".toList), .silence, .piece (Text.utf8 "k".toList)]
    let reader := Reader.start feed 50 []
    let demands : List (Demand Unit) := [.text (.length 2), .copy .untilClose (),
      .copy .untilClose (), .text .untilClose, .text .untilClose]
    let run := reader.meet Sink.output demands fun _ => .bounded 3
    reader.received = 0 ∧ Sink.output.Keeps Sink.held ∧ run.2.1.received = 10 ∧
      ∃ parts, List.Forall₂ Supply.Gives run.1 parts ∧
        (run.2.2 ()).held = copiedTo () demands parts ∧
        parts.flatten = Text.utf8 "abcdefghij".toList ∧
        run.2.1.feed.bytes = Text.utf8 "k".toList := by
  intro feed reader demands run
  have fresh : reader.received = 0 := rfl
  have count : run.2.1.received = 10 := by decide +kernel
  obtain ⟨parts, gives, grown, whole, -, rest⟩ :=
    meet_conserves Sink.keeps_output fresh demands fun _ => .bounded 3
  refine ⟨fresh, Sink.keeps_output, count, parts, gives, grown (), ?_, ?_⟩
  · rw [whole, count]
    decide +kernel
  · rw [rest, count]
    decide +kernel

end Reader

end WebClient
