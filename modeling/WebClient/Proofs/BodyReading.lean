import WebClient.Proofs.Arrival

/-!
# Bodies read and bodies copied

A body can be read as text or copied to an output. As long as the output takes what
it is given, both take the same bytes off the feed and stop for the same reason.
Where nothing but data comes, those are the bytes up to the extent of the body.
-/

set_option autoImplicit false

namespace WebClient

variable {τ : Type}

/-- While `ready` holds of it, the output takes everything and `held` grows by it. -/
structure Output.Collects (output : Output τ) (ready : τ → Prop) (held : τ → Bytes) : Prop where
  write : ∀ state bytes, ready state → ∃ later, output.write state bytes = (later, none) ∧
    ready later ∧ held later = held state ++ bytes
  flush : ∀ state, ready state → ∃ later, output.flush state = (later, none) ∧
    ready later ∧ held later = held state

namespace Sink

def TakesAll (sink : Sink) : Prop :=
  (∀ held bytes, sink.accepts held bytes = true) ∧ sink.flushFails = false

theorem collects_output : output.Collects TakesAll held := by
  constructor
  · rintro sink bytes ⟨accepts, flushes⟩
    exact ⟨_, if_pos (accepts _ _), ⟨accepts, flushes⟩, rfl⟩
  · rintro sink ⟨accepts, flushes⟩
    refine ⟨_, Prod.ext rfl ?_, ⟨accepts, flushes⟩, rfl⟩
    exact if_neg (by rw [flushes]; decide)

end Sink

namespace Reader

/-! ## Copying like reading -/

def passed (reader : Reader) (extent : Extent) (bytes : Bytes) (rest : Feed) : Reader :=
  { reader with
    feed := Feed.unread (remainder (reader.wanted extent) bytes) rest
    received := reader.received + (share (reader.wanted extent) bytes).length }

private theorem finishCopy_of_collects {output : Output τ} {ready : τ → Prop} {held : τ → Bytes}
    (collects : output.Collects ready held) {state : τ} (isReady : ready state) (reader : Reader)
    (count : Nat) :
    ∃ later, finishCopy output state reader count = (⟨count, none⟩, reader, later) ∧
      ready later ∧ held later = held state := by
  obtain ⟨later, flushed, kept, same⟩ := collects.flush state isReady
  refine ⟨later, ?_, kept, same⟩
  simp only [finishCopy, flushed]

private theorem copyFrom_of_data {reader : Reader} {extent : Extent} {bytes : Bytes} {rest : Feed}
    {output : Output τ} {state later : τ} (unsatisfied : reader.wanted extent ≠ some 0)
    (fetched : reader.feed.fetch reader.limit = .data bytes rest)
    (written : output.write state (share (reader.wanted extent) bytes) = (later, none))
    (count : Nat) :
    copyFrom output state reader extent count =
      copyFrom output later (reader.passed extent bytes rest) extent
        (count + (share (reader.wanted extent) bytes).length) := by
  rw [copyFrom, dif_neg unsatisfied]
  split <;> simp_all [passed]

private theorem copyFrom_of_ended {reader : Reader} {extent : Extent}
    (unsatisfied : reader.wanted extent ≠ some 0)
    (ended : reader.feed.fetch reader.limit = .ended) (output : Output τ) (state : τ)
    (count : Nat) :
    copyFrom output state reader extent count =
      match shortfall reader.received extent with
      | some failure => (⟨count, some failure⟩, { reader with feed := [] }, state)
      | none => finishCopy output state { reader with feed := [] } count := by
  rw [copyFrom, dif_neg unsatisfied]
  split
  · rename_i fetched
    cases ended.symm.trans fetched
  · rfl
  · rename_i faulted
    cases ended.symm.trans faulted
  · rename_i expired
    cases ended.symm.trans expired

private theorem copyFrom_of_faulted {reader : Reader} {extent : Extent} {fault : ReadFault}
    {rest : Feed} (unsatisfied : reader.wanted extent ≠ some 0)
    (faulted : reader.feed.fetch reader.limit = .faulted fault rest) (output : Output τ)
    (state : τ) (count : Nat) :
    copyFrom output state reader extent count =
      (⟨count, some (.ofReadFault fault)⟩, { reader with feed := rest }, state) := by
  rw [copyFrom, dif_neg unsatisfied]
  split <;> simp_all

private theorem copyFrom_of_expired {reader : Reader} {extent : Extent} {rest : Feed}
    (unsatisfied : reader.wanted extent ≠ some 0)
    (expired : reader.feed.fetch reader.limit = .expired rest) (output : Output τ)
    (state : τ) (count : Nat) :
    copyFrom output state reader extent count =
      (⟨count, some reader.expiry⟩, { reader with feed := rest }, state) := by
  rw [copyFrom, dif_neg unsatisfied]
  split <;> simp_all

private theorem copyFrom_of_collects {output : Output τ} {ready : τ → Prop} {held : τ → Bytes}
    (collects : output.Collects ready held) {state : τ} (isReady : ready state) (reader : Reader)
    (extent : Extent) (text : Text) (count : Nat) :
    ∃ part later,
      copyFrom output state reader extent count =
        (⟨count + part.length, (reader.readTextFrom extent text).1.failure⟩,
          (reader.readTextFrom extent text).2, later) ∧
      (reader.readTextFrom extent text).1.value = text ++ Text.latin1 part ∧
      ready later ∧ held later = held state ++ part := by
  -- Along the reading, of which the copy takes every step.
  fun_induction readTextFrom reader extent text generalizing state count with
  | case1 reader text satisfied =>
    obtain ⟨later, finished, kept, same⟩ := finishCopy_of_collects collects isReady reader count
    refine ⟨[], later, ?_, by simp, kept, by simp [same]⟩
    rw [copyFrom, dif_pos satisfied, finished]
    rfl
  | case2 reader text unsatisfied bytes rest fetched part =>
    rename_i ih
    obtain ⟨later, written, kept, grown⟩ := collects.write state part isReady
    obtain ⟨more, final, copied, value, still, whole⟩ := ih kept (count + part.length)
    refine ⟨part ++ more, final, ?_, ?_, still, ?_⟩
    · rw [copyFrom_of_data unsatisfied fetched written, List.length_append, ← Nat.add_assoc]
      exact copied
    · rw [value, Text.latin1_append, List.append_assoc]
    · rw [whole, grown, List.append_assoc]
  | case3 reader text unsatisfied ended =>
    cases short : shortfall reader.received extent with
    | some failure =>
      refine ⟨[], state, ?_, by simp, isReady, by simp⟩
      simp only [copyFrom_of_ended unsatisfied ended, short]
      rfl
    | none =>
      obtain ⟨later, finished, kept, same⟩ :=
        finishCopy_of_collects collects isReady { reader with feed := [] } count
      refine ⟨[], later, ?_, by simp, kept, by simp [same]⟩
      simp only [copyFrom_of_ended unsatisfied ended, short, finished]
      rfl
  | case4 reader text unsatisfied fault rest faulted =>
    refine ⟨[], state, ?_, by simp, isReady, by simp⟩
    rw [copyFrom_of_faulted unsatisfied faulted]
    rfl
  | case5 reader text unsatisfied rest expired =>
    refine ⟨[], state, ?_, by simp, isReady, by simp⟩
    rw [copyFrom_of_expired unsatisfied expired]
    rfl

/-- Copying a body comes to what reading it as text does: the output gets the bytes of
the text. -/
theorem copyTo_of_collects {output : Output τ} {ready : τ → Prop} {held : τ → Bytes}
    (collects : output.Collects ready held) {state : τ} (isReady : ready state) (reader : Reader)
    (extent : Extent) :
    ∃ part later,
      reader.copyTo extent output state =
        (⟨part.length, (reader.readText extent).1.failure⟩, (reader.readText extent).2, later) ∧
      (reader.readText extent).1.value = Text.latin1 part ∧
      ready later ∧ held later = held state ++ part := by
  obtain ⟨part, later, copied, value, kept, grown⟩ :=
    copyFrom_of_collects collects isReady reader extent [] 0
  rw [Nat.zero_add] at copied
  exact ⟨part, later, copied, value, kept, grown⟩

/-- To copy a body and to read it are the same for the reader, and end for the same reason.
What the output holds afterwards is, read as text, what it held before and then the text of
the body, which has as many characters as bytes were counted. -/
theorem copyTo_eq_readText {output : Output τ} {ready : τ → Prop} {held : τ → Bytes}
    (collects : output.Collects ready held) {state : τ} (isReady : ready state) (reader : Reader)
    (extent : Extent) :
    let read := reader.readText extent
    let copy := reader.copyTo extent output state
    copy.1.failure = read.1.failure ∧ copy.2.1 = read.2 ∧
      copy.1.value = read.1.value.length ∧
      Text.latin1 (held copy.2.2) = Text.latin1 (held state) ++ read.1.value := by
  intro read copy
  obtain ⟨part, later, copied, value, -, grown⟩ := copyTo_of_collects collects isReady reader extent
  have outcome : copy = (⟨part.length, read.1.failure⟩, read.2, later) := copied
  have text : read.1.value = Text.latin1 part := value
  rw [outcome, text]
  refine ⟨rfl, rfl, (Text.length_latin1 part).symm, ?_⟩
  rw [grown, Text.latin1_append]

/-- Of seven bytes two had come before, and the fault comes after three more, which go
behind what the sink holds. -/
theorem copyTo_eq_readText_of_faulted :
    let sink : Sink := { Sink.unlimited with held := [62] }
    let reader : Reader :=
      ⟨[.piece [97, 98], .pause 40, .piece [233], .fault (.io (.reported [])), .piece [99]],
        .body, 50, [], 2, []⟩
    let copy := reader.copyTo (.length 7) Sink.output sink
    Sink.output.Collects Sink.TakesAll Sink.held ∧ sink.TakesAll ∧
      copy.1 = ⟨3, some (.io (.reported []))⟩ ∧
      copy.2.1 = { reader with feed := [.piece [99]], received := 5 } ∧
      Text.latin1 copy.2.2.held = ['>', 'a', 'b', 'é'] := by
  intro sink reader copy
  have collects : Sink.output.Collects Sink.TakesAll Sink.held := Sink.collects_output
  have takes : sink.TakesAll := ⟨fun _ _ => rfl, rfl⟩
  obtain ⟨failure, left, count, text⟩ := copyTo_eq_readText collects takes reader (.length 7)
  refine ⟨collects, takes, ?_, left.trans (by decide +kernel), text.trans (by decide +kernel)⟩
  calc
    copy.1 = ⟨copy.1.value, copy.1.failure⟩ := rfl
    _ = ⟨(reader.readText (.length 7)).1.value.length,
        (reader.readText (.length 7)).1.failure⟩ := by
      rw [count, failure]
    _ = ⟨3, some (.io (.reported []))⟩ := by decide +kernel

/-! ## Bodies that arrive whole -/

theorem wanted_passed (reader : Reader) (extent : Extent) (bytes : Bytes) (rest : Feed) :
    (reader.passed extent bytes rest).wanted extent =
      (reader.wanted extent).map (· - (share (reader.wanted extent) bytes).length) := by
  cases extent with
  | untilClose => rfl
  | length count => simp [wanted, passed, Nat.sub_add_eq]

private theorem share_append (wanted : Option Nat) (bytes later : Bytes) :
    share wanted (bytes ++ later) =
      share wanted bytes ++
        share (wanted.map (· - (share wanted bytes).length)) (remainder wanted bytes ++ later) := by
  cases wanted with
  | none => rfl
  | some count =>
    simp only [share, remainder, Option.map_some, List.length_take]
    by_cases enough : count ≤ bytes.length
    · simp [List.take_append_of_le_length enough, Nat.min_eq_left enough]
    · have short : bytes.length ≤ count := by omega
      simp [List.take_append, List.take_of_length_le short, List.drop_eq_nil_of_le short,
        Nat.min_eq_right short]

private theorem remainder_append (wanted : Option Nat) (bytes later : Bytes) :
    remainder wanted (bytes ++ later) =
      remainder (wanted.map (· - (share wanted bytes).length))
        (remainder wanted bytes ++ later) := by
  cases wanted with
  | none => rfl
  | some count =>
    simp only [share, remainder, Option.map_some, List.length_take]
    by_cases enough : count ≤ bytes.length
    · simp [List.drop_append_of_le_length enough, Nat.min_eq_left enough]
    · have short : bytes.length ≤ count := by omega
      simp [List.drop_append, List.drop_eq_nil_of_le short, Nat.min_eq_right short]

/-- Of the bytes that arrive, a read takes those up to the extent of the body. -/
theorem readTextFrom_of_brings {reader : Reader} {bytes : Bytes}
    (brings : reader.feed.Brings bytes) (extent : Extent) (text : Text) :
    let part := share (reader.wanted extent) bytes
    let received := reader.received + part.length
    ∃ rest, reader.readTextFrom extent text =
        (⟨text ++ Text.latin1 part, shortfall received extent⟩,
          { reader with feed := rest, received }) ∧
      rest.Brings (remainder (reader.wanted extent) bytes) := by
  fun_induction readTextFrom reader extent text generalizing bytes with
  | case1 reader text satisfied =>
    cases extent with
    | untilClose => cases satisfied
    | length count =>
      have reached : ¬ reader.received < count := by
        simp only [wanted, Option.some.injEq] at satisfied
        omega
      simp only [satisfied, share, List.take_zero, remainder, List.drop_zero]
      exact ⟨reader.feed, by simp [shortfall, reached], brings⟩
  | case2 reader text unsatisfied piece rest fetched part =>
    rename_i ih
    obtain ⟨later, rfl, left⟩ := brings.of_fetch fetched
    obtain ⟨final, read, brought⟩ := ih (left.unread (remainder (reader.wanted extent) piece))
    refine ⟨final, ?_, ?_⟩
    · rw [share_append, ← wanted_passed reader extent piece rest, Text.latin1_append,
        List.length_append, ← List.append_assoc, ← Nat.add_assoc]
      exact read
    · rw [remainder_append, ← wanted_passed reader extent piece rest]
      exact brought
  | case3 reader text unsatisfied ended =>
    rcases Feed.fetchAfter_of_brings brings reader.limit 0 with ⟨rfl, -, -⟩ |
      ⟨_, _, -, -, given, -⟩
    · have nothing : share (reader.wanted extent) [] = [] := by
        cases reader.wanted extent <;> simp [share]
      have none_left : remainder (reader.wanted extent) [] = [] := by
        cases reader.wanted extent <;> simp [remainder]
      rw [nothing, none_left]
      exact ⟨[], by simp, .nil⟩
    · cases given.symm.trans ended
  | case4 reader text unsatisfied fault rest faulted =>
    rcases Feed.fetchAfter_of_brings brings reader.limit 0 with ⟨-, -, given⟩ |
      ⟨_, _, -, -, given, -⟩ <;>
    cases given.symm.trans faulted
  | case5 reader text unsatisfied rest expired =>
    rcases Feed.fetchAfter_of_brings brings reader.limit 0 with ⟨-, -, given⟩ |
      ⟨_, _, -, -, given, -⟩ <;>
    cases given.symm.trans expired

end Reader

end WebClient
