import WebClient.Response.Reader

/-!
# Bytes that arrive whole

A feed may bring its bytes in any pieces. As long as nothing but data comes, what a
line read gives depends on the bytes alone, and so does what it leaves.
-/

set_option autoImplicit false

namespace WebClient

namespace Feed

def Brings (feed : Feed) (bytes : Bytes) : Prop :=
  ∃ pieces : List Bytes, feed = pieces.map .piece ∧ pieces.flatten = bytes

namespace Brings

theorem nil : Brings [] [] := ⟨[], rfl, rfl⟩

theorem piece (bytes : Bytes) : Brings [.piece bytes] bytes := ⟨[bytes], rfl, by simp⟩

theorem unread {feed : Feed} {bytes : Bytes} (brings : feed.Brings bytes) (data : Bytes) :
    (Feed.unread data feed).Brings (data ++ bytes) := by
  obtain ⟨pieces, rfl, rfl⟩ := brings
  unfold Feed.unread
  split
  · rename_i empty
    exact ⟨pieces, rfl, by simp [List.isEmpty_iff.1 empty]⟩
  · exact ⟨data :: pieces, rfl, rfl⟩

theorem divided {feed : Feed} {bytes : Bytes} (brings : feed.Brings bytes) :
    feed.divided.Brings bytes := by
  obtain ⟨pieces, rfl, rfl⟩ := brings
  refine ⟨pieces.flatMap (runs (readSize - 1)), ?_, ?_⟩
  · simp [Feed.divided, List.flatMap_map, List.map_flatMap]
  · induction pieces with
    | nil => rfl
    | cons piece rest ih => simp [flatten_runs, ih]

end Brings

/-! ## Lines -/

theorem cutLine?_eq_some {bytes line after : Bytes}
    (cut : cutLine? bytes = some (line, after)) : bytes = line ++ after ∧ line ≠ [] := by
  induction bytes generalizing line after with
  | nil => cases cut
  | cons byte rest ih =>
    by_cases ends : byte = 10
    · simp only [cutLine?, if_pos ends, Option.some.injEq, Prod.mk.injEq] at cut
      obtain ⟨rfl, rfl⟩ := cut
      exact ⟨rfl, List.cons_ne_nil _ _⟩
    · simp only [cutLine?, if_neg ends, Option.map_eq_some_iff] at cut
      obtain ⟨⟨front, back⟩, inner, joined⟩ := cut
      obtain ⟨rfl, rfl⟩ := Prod.mk.inj joined
      exact ⟨congrArg (byte :: ·) (ih inner).1, List.cons_ne_nil _ _⟩

theorem cutLine?_append_feed {line : Bytes} (single : 10 ∉ line) (rest : Bytes) :
    cutLine? (line ++ 10 :: rest) = some (line ++ [10], rest) := by
  induction line with
  | nil => rfl
  | cons byte line ih =>
    simp only [List.mem_cons, not_or] at single
    simp [cutLine?, Ne.symm single.1, ih single.2]

theorem cutLine?_append (left right : Bytes) :
    cutLine? (left ++ right) =
      match cutLine? left with
      | some (line, after) => some (line, after ++ right)
      | none => (cutLine? right).map fun (line, after) => (left ++ line, after) := by
  induction left with
  | nil => simp [cutLine?]
  | cons byte left ih =>
    by_cases ends : byte = 10
    · simp [cutLine?, ends]
    · simp only [List.cons_append, cutLine?, if_neg ends, ih]
      cases cutLine? left with
      | some cut => rfl
      | none => cases cutLine? right <;> rfl

/-- What was taken before is put in front of a line that ends. -/
theorem lineAfter_of_brings {feed : Feed} {bytes line after : Bytes}
    (brings : feed.Brings bytes) (cut : cutLine? bytes = some (line, after))
    (limit waited : Nat) (taken : Bytes) :
    ∃ rest, lineAfter limit taken waited feed = .line (taken ++ line) rest ∧
      rest.Brings after := by
  obtain ⟨pieces, rfl, rfl⟩ := brings
  induction pieces generalizing taken line with
  | nil => cases cut
  | cons piece pieces ih =>
    rw [List.flatten_cons, cutLine?_append] at cut
    simp only [List.map_cons, lineAfter]
    cases found : cutLine? piece with
    | some inner =>
      obtain ⟨front, back⟩ := inner
      simp only [found, Option.some.injEq, Prod.mk.injEq] at cut
      obtain ⟨rfl, rfl⟩ := cut
      exact ⟨_, rfl, Brings.unread ⟨pieces, rfl, rfl⟩ back⟩
    | none =>
      simp only [found, Option.map_eq_some_iff] at cut
      obtain ⟨⟨front, back⟩, later, joined⟩ := cut
      obtain ⟨rfl, rfl⟩ := Prod.mk.inj joined
      obtain ⟨rest, read, left⟩ := ih (taken ++ piece) later
      exact ⟨rest, by simpa using read, left⟩

theorem lineAfter_of_brings_last {feed : Feed} {bytes : Bytes} (brings : feed.Brings bytes)
    (single : cutLine? bytes = none) (limit waited : Nat) (taken : Bytes) :
    lineAfter limit taken waited feed =
      if (taken ++ bytes).isEmpty then .ended else .line (taken ++ bytes) [] := by
  obtain ⟨pieces, rfl, rfl⟩ := brings
  induction pieces generalizing taken with
  | nil => simp [lineAfter]
  | cons piece pieces ih =>
    rw [List.flatten_cons, cutLine?_append] at single
    cases found : cutLine? piece with
    | some inner => simp [found] at single
    | none =>
      simp only [found, Option.map_eq_none_iff] at single
      simp only [List.map_cons, lineAfter, found, ih (taken ++ piece) single, List.flatten_cons,
        List.append_assoc]

/-! ## Data -/

def opening : Feed → Bytes
  | .piece (first :: more) :: _ => first :: more
  | _ :: rest => opening rest
  | [] => []

theorem fetchAfter_of_brings {feed : Feed} {bytes : Bytes} (brings : feed.Brings bytes)
    (limit waited : Nat) :
    (bytes = [] ∧ feed.opening = [] ∧ fetchAfter limit waited feed = .ended) ∨
      ∃ later rest, bytes = feed.opening ++ later ∧ feed.opening ≠ [] ∧
        fetchAfter limit waited feed = .data feed.opening rest ∧ rest.Brings later := by
  obtain ⟨pieces, rfl, rfl⟩ := brings
  induction pieces with
  | nil => exact .inl ⟨rfl, rfl, rfl⟩
  | cons piece pieces ih =>
    cases piece with
    | nil => exact ih
    | cons first more =>
      exact .inr ⟨pieces.flatten, pieces.map .piece, rfl, List.cons_ne_nil _ _, rfl,
        pieces, rfl, rfl⟩

theorem Brings.of_fetch {feed rest : Feed} {whole bytes : Bytes} {limit : Nat}
    (brings : feed.Brings whole) (fetched : feed.fetch limit = .data bytes rest) :
    ∃ later, whole = bytes ++ later ∧ rest.Brings later := by
  rcases fetchAfter_of_brings brings limit 0 with ⟨-, -, ended⟩ |
    ⟨later, left, split, -, given, onward⟩
  · cases ended.symm.trans fetched
  · cases given.symm.trans fetched
    exact ⟨later, split, onward⟩

theorem opening_prefix_of_brings {feed : Feed} {bytes : Bytes} (brings : feed.Brings bytes) :
    feed.opening <+: bytes := by
  rcases fetchAfter_of_brings brings 0 0 with ⟨rfl, nothing, -⟩ | ⟨later, left, rfl, -, -, -⟩
  · simp [nothing]
  · exact List.prefix_append _ _

/-- No more than one read takes is at hand first. -/
theorem opening_divided (feed : Feed) : feed.divided.opening = feed.opening.take readSize := by
  induction feed with
  | nil => rfl
  | cons delivery rest ih =>
    cases delivery with
    | piece bytes =>
      cases bytes with
      | nil => simpa [divided, runs, opening] using ih
      | cons first more => simp [divided, runs, opening, readSize]
    | pause milliseconds => exact ih
    | fault fault => exact ih
    | silence => exact ih

end Feed

namespace Reader

def dropReturn (line : Bytes) : Bytes :=
  if line.getLast? = some 13 then line.dropLast else line

private theorem dropEnding_append_feed (line : Bytes) :
    dropEnding (line ++ [10]) = dropReturn line := by
  simp [dropEnding, dropReturn]

/-- Reading a line that ends takes just that line off the bytes to come. -/
theorem readLine_of_brings {reader : Reader} {line after : Bytes} (single : 10 ∉ line)
    (brings : reader.feed.Brings (line ++ 10 :: after)) :
    ∃ rest, reader.readLine = .text (Text.latin1 (dropReturn line)) { reader with feed := rest } ∧
      rest.Brings after := by
  obtain ⟨rest, read, left⟩ := Feed.lineAfter_of_brings brings
    (Feed.cutLine?_append_feed single after) reader.limit 0 []
  refine ⟨rest, ?_, left⟩
  have line : reader.feed.readLine reader.limit = .line (line ++ [10]) rest := read
  simp only [readLine, line, dropEnding_append_feed]

theorem readLine_of_brings_nil {reader : Reader} (brings : reader.feed.Brings []) :
    reader.readLine = .ended { reader with feed := [] } := by
  have read : reader.feed.readLine reader.limit = .ended :=
    Feed.lineAfter_of_brings_last brings rfl reader.limit 0 []
  simp only [readLine, read]

end Reader

end WebClient
