import WebClient.Response
import WebClient.Output
import WebClient.Text.Cut

/-!
# Reading a response

A reader takes a response off a feed: first the head, line by line, then the
body. Among the field lines it understands folded lines, later status lines and
multi-line blocks, which are opened by three digits and a hyphen and closed by
the same digits followed by a blank or nothing. A line that fits nothing is
passed over, so a head only fails when the stream does.

A body read never fails outright: it gives what arrived, and the failure that
ended it early.
-/

set_option autoImplicit false

namespace WebClient

inductive Stage
  | statusLine
  | fieldLine
  | block
  | body
  deriving DecidableEq, Repr

/-- The reading end of a channel during one response. -/
structure Reader where
  feed : Feed
  stage : Stage
  /-- The limit of every single read in milliseconds, zero for none. -/
  limit : Nat
  url : Text
  received : Nat
  journal : Journal
  deriving DecidableEq, Repr

namespace Reader

def start (feed : Feed) (limit : Nat) (url : Text) : Reader :=
  ⟨feed.divided, .statusLine, limit, url, 0, []⟩

def expiry (reader : Reader) : Failure :=
  .timeout reader.url reader.limit

def report (reader : Reader) (level : Level) : Reader :=
  { reader with journal := reader.journal ++ [level] }

def dropEnding (line : Bytes) : Bytes :=
  let line := if line.getLast? = some 10 then line.dropLast else line
  if line.getLast? = some 13 then line.dropLast else line

inductive Line
  | text (line : Text) (reader : Reader)
  | ended (reader : Reader)
  | failed (failure : Failure) (reader : Reader)

def readLine (reader : Reader) : Line :=
  match reader.feed.readLine reader.limit with
  | .line bytes rest => .text (Text.latin1 (dropEnding bytes)) { reader with feed := rest }
  | .ended => .ended { reader with feed := [] }
  | .faulted fault rest => .failed (.ofReadFault fault) { reader with feed := rest }
  | .expired rest => .failed reader.expiry { reader with feed := rest }

theorem size_of_readLine {reader next : Reader} {line : Text}
    (read : reader.readLine = .text line next) : next.feed.size < reader.feed.size := by
  unfold readLine at read
  split at read <;> cases read
  rename_i step
  exact Feed.size_of_readLine step

/-- Whether the data at hand begins like a status line. Only the first piece of
data is looked at, and nothing is consumed. -/
def startsWithStatus (reader : Reader) : Except Failure Bool × Reader :=
  match reader.feed.fetch reader.limit with
  | .data bytes rest =>
    (.ok ("HTTP".toList.isPrefixOf (Text.latin1 bytes)),
      { reader with feed := .piece bytes :: rest })
  | .ended => (.ok false, { reader with feed := [] })
  | .faulted fault rest => (.error (.ofReadFault fault), { reader with feed := rest })
  | .expired rest => (.error reader.expiry, { reader with feed := rest })

def skipHead (reader : Reader) : Reader :=
  { reader with stage := .body }

def nextStatusLine (reader : Reader) : Except Failure Text × Reader :=
  match _read : reader.readLine with
  | .text [] next => nextStatusLine next
  | .text line next => (.ok line, next)
  | .ended next => (.error (.malformed .closedBeforeStatusLine), next)
  | .failed failure next => (.error failure, next)
termination_by reader.feed.size
decreasing_by exact size_of_readLine _read

def skipInterim (reader : Reader) : Except Failure Unit × Reader :=
  match _read : reader.readLine with
  | .text [] next => (.ok (), next)
  | .text _ next => skipInterim next
  | .ended next => (.error (.malformed .endedInsideContinue), next)
  | .failed failure next => (.error failure, next)
termination_by reader.feed.size
decreasing_by exact size_of_readLine _read

theorem size_of_nextStatusLine {reader next : Reader} {line : Text}
    (read : reader.nextStatusLine = (.ok line, next)) :
    next.feed.size < reader.feed.size := by
  fun_induction nextStatusLine reader with
  | case1 reader step first ih =>
    exact Nat.lt_trans (ih read) (size_of_readLine first)
  | case2 reader other step _ first =>
    cases read
    exact size_of_readLine first
  | case3 => cases read
  | case4 => cases read

theorem size_of_skipInterim {reader next : Reader} {done : Unit}
    (read : reader.skipInterim = (.ok done, next)) :
    next.feed.size < reader.feed.size := by
  fun_induction skipInterim reader with
  | case1 reader step first =>
    cases read
    exact size_of_readLine first
  | case2 reader other step _ first ih =>
    exact Nat.lt_trans (ih read) (size_of_readLine first)
  | case3 => cases read
  | case4 => cases read

/-- Reads the status line that counts: interim responses, with code 100, are
passed over. -/
def readStatusLine (reader : Reader) : Except Failure Text × Reader :=
  match _found : reader.nextStatusLine with
  | (.error failure, next) => (.error failure, next)
  | (.ok line, next) =>
    if Status.code? line = some 100 then
      match _skipped : next.skipInterim with
      | (.error failure, next) => (.error failure, next)
      | (.ok _, next) => readStatusLine next
    else (.ok line, next)
termination_by reader.feed.size
decreasing_by
  exact Nat.lt_trans (size_of_skipInterim _skipped) (size_of_nextStatusLine _found)

def blockCode? : Text → Option Text
  | a :: b :: c :: '-' :: _ =>
    if a.isDigit && b.isDigit && c.isDigit then some [a, b, c] else none
  | _ => none

def closesBlock (code line : Text) : Bool :=
  match code.isPrefixOf? line with
  | some [] => true
  | some (next :: _) => next == ' '
  | none => false

/-- A head while its lines come in. -/
structure Draft where
  statusLine : Text
  fields : Fields
  open? : Option Text
  continuation : List Text
  journal : Journal
  deriving DecidableEq, Repr

namespace Draft

def ofStatusLine (line : Text) : Draft :=
  ⟨line, [], none, [], []⟩

def report (draft : Draft) (level : Level) : Draft :=
  { draft with journal := draft.journal ++ [level] }

def isFolded : Text → Bool
  | ' ' :: _ | '\t' :: _ => true
  | _ => false

def addField (draft : Draft) (line : Text) : Draft :=
  if "HTTP".toList.isPrefixOf line then { draft with statusLine := line }
  else if isFolded line then
    match draft.fields.extendLast? (Text.trim line) with
    | some fields => { draft with fields }
    | none => draft.report .warning
  else match blockCode? line with
    | some code =>
      { draft with open? := some code, continuation := draft.continuation ++ [line] }
    | none =>
      match Text.cutFirst? ':' line with
      | some (name, value) =>
        { draft with
          fields := draft.fields.append (Text.lower (Text.trim name)) (Text.trim value) }
      | none => draft.report .warning

def add (draft : Draft) (line : Text) : Draft :=
  match draft.open? with
  | some code =>
    { draft with
      open? := if closesBlock code line then none else some code
      continuation := draft.continuation ++ [line] }
  | none => draft.addField line

/-- The stage of a reader whose next line goes to this draft. -/
def stage (draft : Draft) : Stage :=
  if draft.open?.isSome then .block else .fieldLine

def head (draft : Draft) : Head where
  statusLine := draft.statusLine
  code := (Status.code? draft.statusLine).getD 0
  fields := draft.fields
  continuation := draft.continuation

/-- What is reported when there are no more lines: a warning for a block that is
still open, and one for a status line without a code. -/
def closing (draft : Draft) : Journal :=
  (if draft.open?.isSome then [.warning] else [])
    ++ (if (Status.code? draft.statusLine).isNone then [.warning] else [])

end Draft

def finishHead (reader : Reader) (draft : Draft) : Reader :=
  { reader with stage := .body, journal := reader.journal ++ draft.journal ++ draft.closing }

def readFields (reader : Reader) (draft : Draft) : Except Failure Head × Reader :=
  match _read : reader.readLine with
  | .text [] next => (.ok draft.head, next.finishHead draft)
  | .text line next => readFields next (draft.add line)
  | .ended next => (.ok draft.head, next.finishHead draft)
  | .failed failure next =>
    (.error failure,
      { next with stage := draft.stage, journal := next.journal ++ draft.journal })
termination_by reader.feed.size
decreasing_by exact size_of_readLine _read

def readHead (reader : Reader) : Except Failure Head × Reader :=
  match { reader with stage := .statusLine }.readStatusLine with
  | (.ok line, next) => next.readFields (.ofStatusLine line)
  | (.error failure, next) => (.error failure, next)

def wanted (reader : Reader) : Extent → Option Nat
  | .untilClose => none
  | .length count => some (count - reader.received)

def shortfall (received : Nat) : Extent → Option Failure
  | .untilClose => none
  | .length count =>
    if received < count then some (.malformed (.bodyEnded received count)) else none

def share (wanted : Option Nat) (bytes : Bytes) : Bytes :=
  match wanted with
  | some count => bytes.take count
  | none => bytes

def remainder (wanted : Option Nat) (bytes : Bytes) : Bytes :=
  match wanted with
  | some count => bytes.drop count
  | none => []

structure BodyRead (α : Type) where
  value : α
  failure : Option Failure
  deriving DecidableEq, Repr

def BodyRead.isComplete {α : Type} (read : BodyRead α) : Bool :=
  read.failure.isNone

theorem size_of_fetchAfter {limit waited : Nat} {bytes : Bytes} {feed rest : Feed}
    (read : Feed.fetchAfter limit waited feed = .data bytes rest) :
    rest.size + bytes.length < feed.size := by
  induction feed generalizing waited with
  | nil => simp [Feed.fetchAfter] at read
  | cons delivery feed ih =>
    cases delivery with
    | piece data =>
      cases data with
      | nil =>
        have step := ih (by simpa [Feed.fetchAfter] using read)
        simp [Feed.size]; omega
      | cons first more =>
        simp only [Feed.fetchAfter, Feed.Fetch.data.injEq] at read
        simp [Feed.size, ← read.1, ← read.2]; omega
    | pause milliseconds =>
      simp only [Feed.fetchAfter] at read
      split at read
      · cases read
      · have step := ih read
        simp [Feed.size]; omega
    | fault fault => simp [Feed.fetchAfter] at read
    | silence => simp [Feed.fetchAfter] at read

theorem size_unread_remainder {limit : Nat} {wanted : Option Nat} {bytes : Bytes}
    {feed rest : Feed} (more : wanted ≠ some 0) (read : feed.fetch limit = .data bytes rest) :
    (Feed.unread (remainder wanted bytes) rest).size < feed.size := by
  have shorter := size_of_fetchAfter read
  cases wanted with
  | none => simp [remainder, Feed.unread]; omega
  | some count =>
    have nonzero : count ≠ 0 := fun zero => more (by rw [zero])
    unfold Feed.unread
    split
    · omega
    · rename_i nonempty
      simp only [remainder, List.isEmpty_iff, List.drop_eq_nil_iff] at nonempty
      simp only [Feed.size, remainder, List.length_drop]
      omega

/-- Reads the body as text, one character for every byte; `text` is what has been
read of it. -/
def readTextFrom (reader : Reader) (extent : Extent) (text : Text) : BodyRead Text × Reader :=
  if _wanted : reader.wanted extent = some 0 then (⟨text, none⟩, reader)
  else
    match _read : reader.feed.fetch reader.limit with
    | .data bytes rest =>
      let part := share (reader.wanted extent) bytes
      readTextFrom
        { reader with
          feed := Feed.unread (remainder (reader.wanted extent) bytes) rest
          received := reader.received + part.length }
        extent (text ++ Text.latin1 part)
    | .ended => (⟨text, shortfall reader.received extent⟩, { reader with feed := [] })
    | .faulted fault rest => (⟨text, some (.ofReadFault fault)⟩, { reader with feed := rest })
    | .expired rest => (⟨text, some reader.expiry⟩, { reader with feed := rest })
termination_by reader.feed.size
decreasing_by exact size_unread_remainder _wanted _read

def readText (reader : Reader) (extent : Extent) : BodyRead Text × Reader :=
  reader.readTextFrom extent []

variable {σ : Type}

def finishCopy (output : Output σ) (state : σ) (reader : Reader) (count : Nat) :
    BodyRead Nat × Reader × σ :=
  match output.flush state with
  | (state, none) => (⟨count, none⟩, reader, state)
  | (state, some fault) => (⟨count, some (.io fault)⟩, reader, state)

/-- Copies the body to an output, in one write for every fetch; `count` bytes of
it have been written. Data that the output refuses is not consumed. -/
def copyFrom (output : Output σ) (state : σ) (reader : Reader) (extent : Extent) (count : Nat) :
    BodyRead Nat × Reader × σ :=
  if _wanted : reader.wanted extent = some 0 then finishCopy output state reader count
  else
    match _read : reader.feed.fetch reader.limit with
    | .data bytes rest =>
      let part := share (reader.wanted extent) bytes
      match output.write state part with
      | (state, some fault) =>
        (⟨count, some (.io fault)⟩, { reader with feed := .piece bytes :: rest }, state)
      | (state, none) =>
        copyFrom output state
          { reader with
            feed := Feed.unread (remainder (reader.wanted extent) bytes) rest
            received := reader.received + part.length }
          extent (count + part.length)
    | .ended =>
      let reader := { reader with feed := [] }
      match shortfall reader.received extent with
      | some failure => (⟨count, some failure⟩, reader, state)
      | none => finishCopy output state reader count
    | .faulted fault rest =>
      (⟨count, some (.ofReadFault fault)⟩, { reader with feed := rest }, state)
    | .expired rest => (⟨count, some reader.expiry⟩, { reader with feed := rest }, state)
termination_by reader.feed.size
decreasing_by exact size_unread_remainder _wanted _read

/-- Copies the body to an output, which is flushed at the end. The value is the
number of bytes written. -/
def copyTo (reader : Reader) (extent : Extent) (output : Output σ) (state : σ) :
    BodyRead Nat × Reader × σ :=
  copyFrom output state reader extent 0

end Reader

end WebClient
