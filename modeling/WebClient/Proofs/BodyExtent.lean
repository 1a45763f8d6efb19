import WebClient.Proofs.Conservation

/-!
# Bodies up to their extent

A feed brings data up to where it first ends, fails, or makes a read wait for too long. A body
of known length is read from the front of that data and leaves the feed just behind its last
byte; any other body is all of it.
-/

set_option autoImplicit false

namespace WebClient

namespace Feed

/-! ## Data before a halt -/

inductive Halt
  | ended
  | faulted (fault : ReadFault) (rest : Feed)
  | expired (rest : Feed)
  deriving DecidableEq, Repr

def Halt.rest : Halt → Feed
  | ended => []
  | faulted _ rest | expired rest => rest

def Halt.failure (reader : Reader) (atEnd : Option Failure) : Halt → Option Failure
  | ended => atEnd
  | faulted fault _ => some (.ofReadFault fault)
  | expired _ => some (.timeout reader.url reader.limit)

theorem Halt.failure_eq_none_iff {reader : Reader} {atEnd : Option Failure} {halt : Halt} :
    halt.failure reader atEnd = none ↔ halt = .ended ∧ atEnd = none := by
  cases halt with
  | ended => simp [failure]
  | faulted fault rest => simp [failure]
  | expired rest => simp [failure]

/-- Data without a halt between, and the halt behind it. -/
structure Stretch where
  data : Bytes
  halt : Halt
  deriving DecidableEq, Repr

/-- The first stretch of a feed; `waited` is the time that its data has been waited for. -/
def stretchAfter (limit waited : Nat) : Feed → Stretch
  | [] => ⟨[], .ended⟩
  | .piece [] :: rest => stretchAfter limit waited rest
  | .piece (first :: more) :: rest =>
    let later := stretchAfter limit 0 rest
    ⟨first :: more ++ later.data, later.halt⟩
  | .pause milliseconds :: rest =>
    if outlasts limit (waited + milliseconds) then
      ⟨[], .expired (.pause (waited + milliseconds - limit) :: rest)⟩
    else stretchAfter limit (waited + milliseconds) rest
  | .fault fault :: rest => ⟨[], .faulted fault rest⟩
  | .silence :: rest => ⟨[], .expired (.silence :: rest)⟩

def stretch (limit : Nat) (feed : Feed) : Stretch :=
  stretchAfter limit 0 feed

def Fetch.stretch (limit : Nat) : Fetch → Stretch
  | data bytes rest => ⟨bytes ++ (rest.stretch limit).data, (rest.stretch limit).halt⟩
  | ended => ⟨[], .ended⟩
  | faulted fault rest => ⟨[], .faulted fault rest⟩
  | expired rest => ⟨[], .expired rest⟩

private theorem stretchAfter_eq (limit waited : Nat) (feed : Feed) :
    stretchAfter limit waited feed = (fetchAfter limit waited feed).stretch limit := by
  fun_induction fetchAfter limit waited feed with
  | case1 waited => rfl
  | case2 waited rest ih => exact ih
  | case3 waited first more rest => rfl
  | case4 waited milliseconds rest late => rw [stretchAfter, if_pos late]; rfl
  | case5 waited milliseconds rest inTime ih => rw [stretchAfter, if_neg inTime, ih]
  | case6 waited fault rest => rfl
  | case7 waited rest => rfl

variable {limit : Nat} {feed rest : Feed} {bytes : Bytes}

theorem stretch_of_fetch {fetch : Fetch} (fetched : feed.fetch limit = fetch) :
    feed.stretch limit = fetch.stretch limit := by
  subst fetched
  exact stretchAfter_eq limit 0 feed

private theorem stretch_unread (limit : Nat) (bytes : Bytes) (rest : Feed) :
    (unread bytes rest).stretch limit = (Fetch.data bytes rest).stretch limit := by
  cases bytes with
  | nil => rfl
  | cons first more => rfl

/-! ## Places in a feed -/

/-- What is left just behind that many bytes. What comes after the last of them has not been
waited for or met. -/
def behind : Nat → Feed → Feed
  | 0, feed => feed
  | _ + 1, [] => []
  | count + 1, .piece bytes :: rest =>
    if count < bytes.length then unread (bytes.drop (count + 1)) rest
    else behind (count + 1 - bytes.length) rest
  | count + 1, _ :: rest => behind (count + 1) rest

private theorem behind_of_fetchAfter {waited count : Nat} (moved : count ≠ 0)
    (fetched : fetchAfter limit waited feed = .data bytes rest) :
    feed.behind count = behind (count - (bytes.take count).length)
      (unread (bytes.drop count) rest) := by
  obtain ⟨count, rfl⟩ := Nat.exists_eq_succ_of_ne_zero moved
  fun_induction fetchAfter limit waited feed with
  | case2 waited rest ih => simpa [behind] using ih fetched
  | case3 waited first more rest =>
    cases fetched
    rw [behind, List.length_take]
    split
    · rename_i inside
      rw [Nat.min_eq_left inside, Nat.sub_self, behind]
    · rename_i outside
      have short : (first :: more).length ≤ count + 1 := by omega
      rw [Nat.min_eq_right short, List.drop_eq_nil_of_le short]
      rfl
  | case5 waited milliseconds rest inTime ih => simpa [behind] using ih fetched
  | case1 => cases fetched
  | case4 => cases fetched
  | case6 => cases fetched
  | case7 => cases fetched

end Feed

namespace Reader

/-! ## Reading -/

variable {reader : Reader} {extent : Extent} {bytes : Bytes} {rest : Feed} {count : Nat}

/-- The share of a fetch is the front of the stretch, and the rest of it is still to come. -/
theorem stretch_passed (extent : Extent)
    (fetched : reader.feed.fetch reader.limit = .data bytes rest) :
    (reader.feed.stretch reader.limit).data = share (reader.wanted extent) bytes ++
        ((reader.passed extent bytes rest).feed.stretch reader.limit).data ∧
      (reader.feed.stretch reader.limit).halt =
        ((reader.passed extent bytes rest).feed.stretch reader.limit).halt := by
  have onward := Feed.stretch_unread reader.limit (remainder (reader.wanted extent) bytes) rest
  rw [Feed.stretch_of_fetch fetched, passed, onward]
  refine ⟨?_, rfl⟩
  simp only [Feed.Fetch.stretch]
  rw [← List.append_assoc, share_append_remainder]

private theorem behind_passed (moved : count ≠ 0) (wants : reader.wanted extent = some count)
    (fetched : reader.feed.fetch reader.limit = .data bytes rest) :
    (reader.passed extent bytes rest).feed.behind
        (count - (share (reader.wanted extent) bytes).length) =
      reader.feed.behind count := by
  rw [passed, wants]
  exact (Feed.behind_of_fetchAfter moved fetched).symm

private theorem data_ne_nil (unsatisfied : reader.wanted extent ≠ some 0)
    (wants : reader.wanted extent = some count)
    (enough : count ≤ (reader.feed.stretch reader.limit).data.length) :
    (reader.feed.stretch reader.limit).data ≠ [] := by
  intro nothing
  rw [nothing] at enough
  exact unsatisfied (wants.trans (congrArg some (Nat.le_zero.1 enough)))

/-- A body of which all has come is read, and nothing behind it. -/
theorem readTextFrom_of_enough (wants : reader.wanted extent = some count)
    (enough : count ≤ (reader.feed.stretch reader.limit).data.length) (text : Text) :
    reader.readTextFrom extent text =
      (⟨text ++ Text.latin1 ((reader.feed.stretch reader.limit).data.take count), none⟩,
        { reader with
          feed := reader.feed.behind count
          received := reader.received + count }) := by
  fun_induction readTextFrom reader extent text generalizing count with
  | case1 reader text satisfied =>
    cases wants.symm.trans satisfied
    simp [Feed.behind]
  | case2 reader text unsatisfied bytes rest fetched part =>
    rename_i ih
    have moved : count ≠ 0 := by
      rintro rfl
      exact unsatisfied wants
    have within : part.length ≤ count := by
      simp only [part, wants, share, List.length_take]
      exact Nat.min_le_left _ _
    have wantsMore : (reader.passed extent bytes rest).wanted extent =
        some (count - part.length) := by
      rw [wanted_passed, wants]
      simp only [part, wants, Option.map_some]
    obtain ⟨data, -⟩ := stretch_passed extent fetched
    have place := behind_passed moved wants fetched
    rw [data, List.length_append] at enough
    rw [data, List.take_append, List.take_of_length_le within, Text.latin1_append,
      ← List.append_assoc, ← place]
    have total :
        reader.received + count = reader.received + part.length + (count - part.length) := by
      omega
    rw [total]
    exact ih wantsMore (Nat.sub_le_iff_le_add'.2 enough)
  | case3 reader text unsatisfied ended =>
    have nothing := congrArg Feed.Stretch.data (Feed.stretch_of_fetch ended)
    exact absurd nothing (data_ne_nil unsatisfied wants enough)
  | case4 reader text unsatisfied fault rest faulted =>
    have nothing := congrArg Feed.Stretch.data (Feed.stretch_of_fetch faulted)
    exact absurd nothing (data_ne_nil unsatisfied wants enough)
  | case5 reader text unsatisfied rest expired =>
    have nothing := congrArg Feed.Stretch.data (Feed.stretch_of_fetch expired)
    exact absurd nothing (data_ne_nil unsatisfied wants enough)

/-- A body that has not come in full is read up to the halt, and fails for the reason of it. -/
theorem readTextFrom_of_short
    (short : ∀ count ∈ reader.wanted extent, (reader.feed.stretch reader.limit).data.length < count)
    (text : Text) :
    let data := (reader.feed.stretch reader.limit).data
    let halt := (reader.feed.stretch reader.limit).halt
    let received := reader.received + data.length
    reader.readTextFrom extent text =
      (⟨text ++ Text.latin1 data, halt.failure reader (shortfall received extent)⟩,
        { reader with feed := halt.rest, received }) := by
  fun_induction readTextFrom reader extent text with
  | case1 reader text satisfied => exact absurd (short 0 satisfied) (Nat.not_lt_zero _)
  | case2 reader text unsatisfied bytes rest fetched part =>
    rename_i ih
    obtain ⟨data, halt⟩ := stretch_passed extent fetched
    have shortMore : ∀ count ∈ (reader.passed extent bytes rest).wanted extent,
        ((reader.passed extent bytes rest).feed.stretch reader.limit).data.length < count := by
      intro left wantsMore
      rw [wanted_passed] at wantsMore
      obtain ⟨count, wants, rfl⟩ := Option.map_eq_some_iff.1 wantsMore
      have bound := short count wants
      rw [data, List.length_append] at bound
      omega
    dsimp only
    rw [data, halt, List.length_append, Text.latin1_append, ← List.append_assoc, ← Nat.add_assoc]
    exact ih shortMore
  | case3 reader text unsatisfied ended =>
    rw [Feed.stretch_of_fetch ended]
    simp [Feed.Fetch.stretch, Feed.Halt.failure, Feed.Halt.rest]
  | case4 reader text unsatisfied fault rest faulted =>
    rw [Feed.stretch_of_fetch faulted]
    simp [Feed.Fetch.stretch, Feed.Halt.failure, Feed.Halt.rest]
  | case5 reader text unsatisfied rest expired =>
    rw [Feed.stretch_of_fetch expired]
    simp [Feed.Fetch.stretch, Feed.Halt.failure, Feed.Halt.rest, expiry]

/-- Of the data before the first halt, a body of some length is read as far as it goes. If
that is all of the body, then there is no failure and the feed is left just behind it,
without another look at it; if not, the failure is that of the halt. A body that lasts as
long as the stream is all of the data, and the end of the stream is no failure of it. -/
theorem readText_stretch {reader : Reader} (fresh : reader.received = 0) (count : Nat) :
    let data := (reader.feed.stretch reader.limit).data
    let halt := (reader.feed.stretch reader.limit).halt
    let read := reader.readText (.length count)
    let whole := reader.readText .untilClose
    read.1.value = Text.latin1 (data.take count) ∧
      (read.1.failure = none ↔ count ≤ data.length) ∧
      (data.length < count →
        read.1.failure =
          halt.failure reader (some (.malformed (.bodyEnded data.length count)))) ∧
      (data.length < count → halt = .ended →
        ∃ cause, read.1.failure = some (.malformed cause) ∧
          cause.message = "body ended after ".toList ++ Text.ofNat data.length
            ++ " of ".toList ++ Text.ofNat count ++ " declared bytes".toList) ∧
      (count ≤ data.length →
        read.2 = { reader with feed := reader.feed.behind count, received := count }) ∧
      whole.1.value = Text.latin1 data ∧ (whole.1.failure = none ↔ halt = .ended) := by
  intro data halt read whole
  have wants : reader.wanted (.length count) = some count := by simp [wanted, fresh]
  have enough : count ≤ data.length → read = (⟨Text.latin1 (data.take count), none⟩,
      { reader with feed := reader.feed.behind count, received := count }) := by
    intro enough
    have given := readTextFrom_of_enough wants enough []
    rw [fresh, Nat.zero_add] at given
    exact given
  have short : data.length < count → read.1 = ⟨Text.latin1 data,
      halt.failure reader (some (.malformed (.bodyEnded data.length count)))⟩ := by
    intro short
    have bounded : ∀ wanted ∈ reader.wanted (.length count), data.length < wanted := by
      rw [wants]
      rintro _ ⟨⟩
      exact short
    have cause : shortfall data.length (.length count) =
        some (.malformed (.bodyEnded data.length count)) := if_pos short
    have given := congrArg Prod.fst (readTextFrom_of_short bounded [])
    rw [fresh, Nat.zero_add, cause] at given
    exact given
  have unbounded : whole.1 = ⟨Text.latin1 data, halt.failure reader none⟩ := by
    have bounded : ∀ wanted ∈ reader.wanted .untilClose, data.length < wanted := by
      rintro _ ⟨⟩
    exact congrArg Prod.fst (readTextFrom_of_short bounded [])
  refine ⟨?_, ?_, fun less => ?_, fun less ended => ?_, fun more => ?_, ?_, ?_⟩
  · rcases Nat.lt_or_ge data.length count with less | more
    · rw [short less, List.take_of_length_le (Nat.le_of_lt less)]
    · rw [enough more]
  · rcases Nat.lt_or_ge data.length count with less | more
    · rw [short less, Feed.Halt.failure_eq_none_iff]
      simp [Nat.not_le_of_lt less]
    · rw [enough more]
      simp [more]
  · rw [short less]
  · refine ⟨.bodyEnded data.length count, ?_, rfl⟩
    rw [short less, ended, Feed.Halt.failure]
  · rw [enough more]
  · rw [unbounded]
  · rw [unbounded, Feed.Halt.failure_eq_none_iff]
    simp

/-- Four bytes end within the second piece, so that the fault is not met; nine are not to be
had before it. -/
theorem readText_stretch_of_straddling :
    let fault : Delivery := .fault (.corrupt .undecryptable)
    let reader : Reader :=
      ⟨[.piece (Text.utf8 "ab".toList), .pause 40, .piece (Text.utf8 "cde".toList), fault,
        .piece (Text.utf8 "f".toList)], .body, 50, [], 0, []⟩
    reader.received = 0 ∧
      (reader.readText (.length 4)).1.value = "abcd".toList ∧
      (reader.readText (.length 4)).2.feed =
        [.piece (Text.utf8 "e".toList), fault, .piece (Text.utf8 "f".toList)] ∧
      (reader.readText (.length 9)).1.value = "abcde".toList ∧
      (reader.readText (.length 9)).1.failure = some (.corrupt .undecryptable) := by
  intro fault reader
  have fresh : reader.received = 0 := rfl
  obtain ⟨four, -, -, -, left, -⟩ := readText_stretch fresh 4
  obtain ⟨nine, -, fails, -⟩ := readText_stretch fresh 9
  refine ⟨fresh, four.trans (by decide +kernel), ?_, nine.trans (by decide +kernel),
    (fails (by decide +kernel)).trans (by decide +kernel)⟩
  rw [left (by decide +kernel)]
  decide +kernel

end Reader

end WebClient
