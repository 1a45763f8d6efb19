import WebClient.Failure

/-!
# What a channel delivers

A feed is what the reading end of a channel will bring, in order: pieces of data,
pauses, faults, and silence for good. A feed that runs out is the end of the
stream. Reading is done under a limit in milliseconds, zero for none; a pause
that outlasts the limit is left with the time still to go, so that the next read
waits only for that.

Without a limit a read would never come back from silence. Here it is given up as under
one, so that it has an outcome; what is said of reading without a limit is therefore about
feeds in which no silence comes.

A read that gives data leaves what was not consumed at the front of the feed,
from where the next read takes it without waiting.
-/

set_option autoImplicit false

namespace WebClient

/-- One event at the reading end of a channel. A fault is met once, and reading
can go on after it. -/
inductive Delivery
  | piece (bytes : Bytes)
  | pause (milliseconds : Nat)
  | fault (fault : ReadFault)
  | silence
  deriving DecidableEq, Repr

/-- Everything a channel will bring, up to the end of the stream. -/
abbrev Feed := List Delivery

namespace Feed

/-- The most that one read takes from the channel. -/
def readSize : Nat := 8192

def runs (size : Nat) (bytes : Bytes) : List Bytes :=
  match bytes with
  | [] => []
  | first :: rest => (first :: rest.take size) :: runs size (rest.drop size)
termination_by bytes.length
decreasing_by simp only [List.length_drop, List.length_cons]; omega

/-- The feed with every piece divided as the reads will take it, and without the
empty ones. -/
def divided (feed : Feed) : Feed :=
  feed.flatMap fun
    | .piece bytes => (runs (readSize - 1) bytes).map .piece
    | other => [other]

def unread (bytes : Bytes) (feed : Feed) : Feed :=
  if bytes.isEmpty then feed else .piece bytes :: feed

def bytes : Feed → Bytes
  | [] => []
  | .piece bytes :: rest => bytes ++ Feed.bytes rest
  | _ :: rest => Feed.bytes rest

theorem flatten_runs (size : Nat) (bytes : Bytes) : (runs size bytes).flatten = bytes := by
  fun_induction runs size bytes with
  | case1 => rfl
  | case2 first rest ih => simp [ih]

@[simp] theorem bytes_append (before after : Feed) :
    bytes (before ++ after) = bytes before ++ bytes after := by
  induction before with
  | nil => rfl
  | cons delivery rest ih => cases delivery <;> simp [Feed.bytes, ih]

@[simp] theorem bytes_map_piece (pieces : List Bytes) :
    bytes (pieces.map .piece) = pieces.flatten := by
  induction pieces with
  | nil => rfl
  | cons piece rest ih => simp [Feed.bytes, ih]

@[simp] theorem bytes_divided (feed : Feed) : bytes feed.divided = bytes feed := by
  induction feed with
  | nil => rfl
  | cons delivery rest ih =>
    simp only [divided, List.flatMap_cons, bytes_append] at ih ⊢
    rw [ih]
    cases delivery with
    | piece data => simp [Feed.bytes, flatten_runs]
    | pause milliseconds => rfl
    | fault fault => rfl
    | silence => rfl

@[simp] theorem bytes_unread (data : Bytes) (feed : Feed) :
    bytes (unread data feed) = data ++ bytes feed := by
  unfold unread
  split
  · rename_i empty
    simp [List.isEmpty_iff.1 empty]
  · rfl

def outlasts (limit waited : Nat) : Bool :=
  limit ≠ 0 && limit < waited

/-- The outcome of a read that brings the data at hand. -/
inductive Fetch
  /-- Data, not empty, and the feed behind it. -/
  | data (bytes : Bytes) (rest : Feed)
  | ended
  | faulted (fault : ReadFault) (rest : Feed)
  | expired (rest : Feed)
  deriving DecidableEq, Repr

/-- Waits for data; `waited` is the time already spent on this read. -/
def fetchAfter (limit waited : Nat) : Feed → Fetch
  | [] => .ended
  | .piece [] :: rest => fetchAfter limit waited rest
  | .piece (first :: more) :: rest => .data (first :: more) rest
  | .pause milliseconds :: rest =>
    if outlasts limit (waited + milliseconds) then
      .expired (.pause (waited + milliseconds - limit) :: rest)
    else fetchAfter limit (waited + milliseconds) rest
  | .fault fault :: rest => .faulted fault rest
  | .silence :: rest => .expired (.silence :: rest)

def fetch (limit : Nat) (feed : Feed) : Fetch :=
  fetchAfter limit 0 feed

def cutLine? : Bytes → Option (Bytes × Bytes)
  | [] => none
  | byte :: rest =>
    if byte = 10 then some ([byte], rest)
    else (cutLine? rest).map fun (line, after) => (byte :: line, after)

inductive LineRead
  /-- A line with its line feed, or what the stream ended with, not empty. -/
  | line (bytes : Bytes) (rest : Feed)
  | ended
  | faulted (fault : ReadFault) (rest : Feed)
  | expired (rest : Feed)
  deriving DecidableEq, Repr

/-- Reads through a line feed, in one read however many pieces bring the line.
What was taken of a line that does not arrive is lost. -/
def lineAfter (limit : Nat) (taken : Bytes) (waited : Nat) : Feed → LineRead
  | [] => if taken.isEmpty then .ended else .line taken []
  | .piece bytes :: rest =>
    match cutLine? bytes with
    | some (line, after) => .line (taken ++ line) (unread after rest)
    | none => lineAfter limit (taken ++ bytes) waited rest
  | .pause milliseconds :: rest =>
    if outlasts limit (waited + milliseconds) then
      .expired (.pause (waited + milliseconds - limit) :: rest)
    else lineAfter limit taken (waited + milliseconds) rest
  | .fault fault :: rest => .faulted fault rest
  | .silence :: rest => .expired (.silence :: rest)

def readLine (limit : Nat) (feed : Feed) : LineRead :=
  lineAfter limit [] 0 feed

def size : Feed → Nat
  | [] => 0
  | .piece bytes :: rest => bytes.length + 1 + size rest
  | _ :: rest => 1 + size rest

theorem size_unread_le (bytes : Bytes) (feed : Feed) :
    size (unread bytes feed) ≤ bytes.length + 1 + size feed := by
  unfold unread
  split
  · omega
  · simp [size]

theorem length_of_cutLine? {bytes line after : Bytes} (cut : cutLine? bytes = some (line, after)) :
    after.length < bytes.length := by
  induction bytes generalizing line after with
  | nil => simp [cutLine?] at cut
  | cons byte rest ih =>
    by_cases found : byte = 10
    · simp [cutLine?, found] at cut
      simp [cut]
    · simp only [cutLine?, if_neg found, Option.map_eq_some_iff] at cut
      obtain ⟨⟨front, back⟩, inner, joined⟩ := cut
      obtain ⟨rfl, rfl⟩ := Prod.mk.inj joined
      have shorter := ih inner
      simp; omega

/-- A line that was read leaves less to read, unless some of it had been taken before. -/
theorem size_of_lineAfter {limit waited : Nat} {taken bytes : Bytes} {feed rest : Feed}
    (read : lineAfter limit taken waited feed = .line bytes rest) :
    size rest < size feed + taken.length := by
  induction feed generalizing taken waited with
  | nil =>
    cases taken with
    | nil => simp [lineAfter] at read
    | cons first more =>
      simp [lineAfter] at read
      simp [read.2, size]
  | cons delivery feed ih =>
    cases delivery with
    | piece data =>
      simp only [lineAfter] at read
      split at read
      · rename_i line after cut
        have shorter := length_of_cutLine? cut
        have bound := size_unread_le after feed
        simp only [LineRead.line.injEq] at read
        rw [← read.2]
        simp only [size]
        omega
      · have step := ih read
        simp only [List.length_append] at step
        simp only [size]
        omega
    | pause milliseconds =>
      simp only [lineAfter] at read
      split at read
      · cases read
      · have step := ih read
        simp only [size]
        omega
    | fault fault => simp [lineAfter] at read
    | silence => simp [lineAfter] at read

theorem size_of_readLine {limit : Nat} {bytes : Bytes} {feed rest : Feed}
    (read : readLine limit feed = .line bytes rest) : size rest < size feed := by
  simpa using size_of_lineAfter read

end Feed

end WebClient
