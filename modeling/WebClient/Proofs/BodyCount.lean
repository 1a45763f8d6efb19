import WebClient.Client
import WebClient.Proofs.Conservation

/-!
# What is counted of a response

A reader counts the bytes that it takes of a body, and nothing of what came before the
body. So its count after one response is the number of bytes that were to come before the
body was read, and no longer afterwards.
-/

set_option autoImplicit false

namespace WebClient

variable {τ : Type}

namespace Feed

def taken (before after : Feed) : Bytes :=
  before.bytes.take (before.bytes.length - after.bytes.length)

theorem taken_eq {before after : Feed} {part : Bytes}
    (division : before.bytes = part ++ after.bytes) : taken before after = part := by
  rw [taken, division, List.length_append, Nat.add_sub_cancel, List.take_left]

end Feed

namespace Reader

/-! ## Heads -/

def Line.reader : Line → Reader
  | text _ reader | ended reader | failed _ reader => reader

theorem received_of_readLine {reader : Reader} {line : Line} (read : reader.readLine = line) :
    line.reader.received = reader.received := by
  subst read
  unfold readLine
  cases reader.feed.readLine reader.limit <;> rfl

private theorem received_nextStatusLine (reader : Reader) :
    reader.nextStatusLine.2.received = reader.received := by
  fun_induction nextStatusLine reader with
  | case1 reader next read ih => exact ih.trans (received_of_readLine read)
  | case2 reader line next nonblank read => exact received_of_readLine read
  | case3 reader next read => exact received_of_readLine read
  | case4 reader failure next read => exact received_of_readLine read

private theorem received_skipInterim (reader : Reader) :
    reader.skipInterim.2.received = reader.received := by
  fun_induction skipInterim reader with
  | case1 reader next read => exact received_of_readLine read
  | case2 reader line next nonblank read ih => exact ih.trans (received_of_readLine read)
  | case3 reader next read => exact received_of_readLine read
  | case4 reader failure next read => exact received_of_readLine read

private theorem received_readStatusLine (reader : Reader) :
    reader.readStatusLine.2.received = reader.received := by
  fun_induction readStatusLine reader with
  | case1 reader failure next found =>
    exact (congrArg (·.2.received) found).symm.trans (received_nextStatusLine reader)
  | case2 reader line next found interim failure after skipped =>
    have first := (congrArg (·.2.received) found).symm.trans (received_nextStatusLine reader)
    exact ((congrArg (·.2.received) skipped).symm.trans (received_skipInterim next)).trans first
  | case3 reader line next found interim done after skipped ih =>
    have first := (congrArg (·.2.received) found).symm.trans (received_nextStatusLine reader)
    have second := (congrArg (·.2.received) skipped).symm.trans (received_skipInterim next)
    exact ih.trans (second.trans first)
  | case4 reader line next found final =>
    exact (congrArg (·.2.received) found).symm.trans (received_nextStatusLine reader)

private theorem received_readFields (reader : Reader) (draft : Draft) :
    (reader.readFields draft).2.received = reader.received := by
  fun_induction readFields reader draft with
  | case1 reader draft next read => exact received_of_readLine read
  | case2 reader draft line next nonblank read ih => exact ih.trans (received_of_readLine read)
  | case3 reader draft next read => exact received_of_readLine read
  | case4 reader draft failure next read => exact received_of_readLine read

private theorem received_readHead (reader : Reader) :
    reader.readHead.2.received = reader.received := by
  have first := received_readStatusLine { reader with stage := .statusLine }
  unfold readHead
  rcases found : ({ reader with stage := .statusLine } : Reader).readStatusLine with
    ⟨outcome, next⟩
  rw [found] at first
  cases outcome with
  | error failure => exact first
  | ok line => exact (received_readFields next (.ofStatusLine line)).trans first

private theorem received_readHeaded (reader : Reader) :
    reader.readHeaded.2.received = reader.received := by
  have head := received_readHead reader
  unfold readHeaded
  rcases read : reader.readHead with ⟨outcome, next⟩
  rw [read] at head
  cases outcome <;> exact head

private theorem received_startsWithStatus (reader : Reader) :
    reader.startsWithStatus.2.received = reader.received := by
  unfold startsWithStatus
  cases reader.feed.fetch reader.limit <;> rfl

theorem received_readResponse (reader : Reader) (method : Method) :
    (reader.readResponse method).2.received = reader.received := by
  cases method with
  | shortGet =>
    have looked := received_startsWithStatus reader
    unfold readResponse
    rcases started : reader.startsWithStatus with ⟨outcome, next⟩
    rw [started] at looked
    cases outcome with
    | error failure => exact looked
    | ok shows =>
      cases shows with
      | false => exact looked
      | true => exact (received_readHeaded next).trans looked
  | _ => exact received_readHeaded reader

/-! ## Bodies -/

/-- Whatever the output does, a copy counts what it took off the feed. -/
theorem takes_copyFrom (output : Output τ) (state : τ) (reader : Reader) (extent : Extent)
    (count : Nat) :
    ∃ part, reader.Takes part (copyFrom output state reader extent count).2.1 := by
  fun_induction copyFrom output state reader extent count with
  | case1 state reader count satisfied =>
    refine ⟨[], ?_⟩
    unfold finishCopy
    rcases output.flush state with ⟨later, fault⟩
    cases fault <;> exact .refl reader
  | case2 state reader count unsatisfied bytes rest fetched part later fault refused =>
    exact ⟨[], .of_fetch fetched rfl⟩
  | case3 state reader count unsatisfied bytes rest fetched part later taken ih =>
    obtain ⟨more, takes⟩ := ih
    exact ⟨part ++ more, (Takes.passed extent fetched).trans takes⟩
  | case4 state reader count unsatisfied ended => exact ⟨[], .of_fetch ended rfl⟩
  | case5 state reader count unsatisfied ended =>
    refine ⟨[], ?_⟩
    unfold finishCopy
    rcases output.flush state with ⟨later, fault⟩
    cases fault <;> exact .of_fetch ended rfl
  | case6 state reader count unsatisfied fault rest faulted => exact ⟨[], .of_fetch faulted rfl⟩
  | case7 state reader count unsatisfied rest expired => exact ⟨[], .of_fetch expired rfl⟩

end Reader

end WebClient
