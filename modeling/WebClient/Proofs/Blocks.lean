import WebClient.Proofs.Preamble

/-!
# Multi-line blocks in a head

A block stands for itself: put in between any lines of a head that are not within another one,
even between a field and the line that continues it, it only adds its own lines to those that
are kept of blocks. What these are is told by the lines that open and close a block alone.
-/

set_option autoImplicit false

namespace WebClient

namespace Reader

/-! ## Lines that open and close a block -/

def EndsBlock (code line : Text) : Prop :=
  line = code ∨ ∃ rest, line = code ++ ' ' :: rest

theorem closesBlock_iff {code line : Text} :
    closesBlock code line = true ↔ EndsBlock code line := by
  unfold closesBlock EndsBlock
  cases begins : code.isPrefixOf? line with
  | none =>
    have apart : ∀ rest, line ≠ code ++ rest := by
      rintro rest rfl
      cases begins.symm.trans (List.isPrefixOf?_eq_some_iff_append_eq.2 rfl)
    have differ := apart []
    rw [List.append_nil] at differ
    simp [differ, apart]
  | some rest =>
    have split := List.isPrefixOf?_eq_some_iff_append_eq.1 begins
    subst split
    cases rest with
    | nil => simp
    | cons next rest => simp

instance (code line : Text) : Decidable (EndsBlock code line) :=
  decidable_of_iff _ closesBlock_iff

private theorem blockCode?_of_digits {a b c : Char} (digits : a.isDigit ∧ b.isDigit ∧ c.isDigit)
    (rest : Text) : blockCode? ([a, b, c] ++ '-' :: rest) = some [a, b, c] := by
  simp [blockCode?, digits]

theorem blockCode?_eq_none_of_head {first : Char} (noDigit : first.isDigit = false) (rest : Text) :
    blockCode? (first :: rest) = none := by
  unfold blockCode?
  split
  · rename_i same
    cases same
    simp [noDigit]
  · rfl

private theorem blockCode?_of_status {line : Text} (status : "HTTP".toList.isPrefixOf line = true) :
    blockCode? line = none := by
  obtain ⟨rest, rfl⟩ := List.isPrefixOf_iff_prefix.1 status
  exact blockCode?_eq_none_of_head rfl _

private theorem blockCode?_of_folded {line : Text} (folded : Draft.isFolded line = true) :
    blockCode? line = none := by
  unfold Draft.isFolded at folded
  split at folded
  · exact blockCode?_eq_none_of_head rfl _
  · exact blockCode?_eq_none_of_head rfl _
  · cases folded

/-- The digits of the block that is open behind a line, where those of one before it are given. -/
def openBehind (open? : Option Text) (line : Text) : Option Text :=
  match open? with
  | some code => if closesBlock code line then none else some code
  | none => blockCode? line

def blockLines (open? : Option Text) : List Text → List Text
  | [] => []
  | line :: rest =>
    let next := openBehind open? line
    if open?.isSome || next.isSome then line :: blockLines next rest else blockLines next rest

private theorem blockLines_append (open? : Option Text) (first second : List Text) :
    blockLines open? (first ++ second) =
      blockLines open? first ++ blockLines (first.foldl openBehind open?) second := by
  induction first generalizing open? with
  | nil => rfl
  | cons line first ih =>
    simp only [List.cons_append, blockLines, List.foldl_cons, ih]
    split <;> rfl

/-! ## Keeping the lines of blocks -/

namespace Draft

def keeping (draft : Draft) (kept : List Text) : Draft :=
  { draft with continuation := kept }

/-- Outside a block, a line that opens none has nothing to do with the lines that are kept. -/
theorem addField_keeping {line : Text} (plain : blockCode? line = none) (draft : Draft)
    (kept : List Text) :
    (draft.keeping kept).addField line = (draft.addField line).keeping kept ∧
      (draft.addField line).open? = draft.open? := by
  by_cases status : "HTTP".toList.isPrefixOf line = true
  · simp only [addField, if_pos status]
    exact ⟨rfl, trivial⟩
  · by_cases folded : isFolded line = true
    · simp only [addField, if_neg status, if_pos folded, keeping]
      cases draft.fields.extendLast? (Text.trim line) <;> exact ⟨rfl, rfl⟩
    · simp only [addField, if_neg status, if_neg folded, plain, keeping]
      cases Text.cutFirst? ':' line <;> exact ⟨rfl, rfl⟩

theorem addField_of_opening {line code : Text} (opens : blockCode? line = some code)
    (draft : Draft) :
    draft.addField line =
      { draft with open? := some code, continuation := draft.continuation ++ [line] } := by
  have status : ¬ "HTTP".toList.isPrefixOf line = true := fun status => by
    rw [blockCode?_of_status status] at opens
    cases opens
  have folded : ¬ isFolded line = true := fun folded => by
    rw [blockCode?_of_folded folded] at opens
    cases opens
  simp only [addField, if_neg status, if_neg folded, opens]

/-- A line does the same to a draft that has kept others, and is kept or not for itself. -/
theorem add_keeping (draft : Draft) (kept : List Text) (line : Text) :
    (draft.keeping kept).add line =
        (draft.add line).keeping (kept ++ blockLines draft.open? [line]) ∧
      (draft.add line).open? = openBehind draft.open? line := by
  obtain ⟨statusLine, fields, open?, before, journal⟩ := draft
  cases open? with
  | some code => simp [Draft.add, keeping, blockLines, openBehind]
  | none =>
    cases opens : blockCode? line with
    | some code =>
      simp [Draft.add, keeping, addField_of_opening opens, blockLines, openBehind, opens]
    | none =>
      obtain ⟨framed, closed⟩ :=
        addField_keeping opens ⟨statusLine, fields, none, before, journal⟩ kept
      have nothing : blockLines none [line] = [] := by simp [blockLines, openBehind, opens]
      rw [nothing, List.append_nil]
      exact ⟨framed, closed.trans opens.symm⟩

theorem stage_eq_fieldLine_iff {draft : Draft} : draft.stage = .fieldLine ↔ draft.open? = none := by
  unfold stage
  cases draft.open? <;> simp

theorem addTexts_append (draft : Draft) (first second : List Text) :
    draft.addTexts (first ++ second) = (draft.addTexts first).addTexts second :=
  List.foldl_append

theorem addTexts_keeping (draft : Draft) (kept texts : List Text) :
    (draft.keeping kept).addTexts texts =
      (draft.addTexts texts).keeping (kept ++ blockLines draft.open? texts) := by
  induction texts generalizing draft kept with
  | nil => simp [addTexts, blockLines]
  | cons line texts ih =>
    obtain ⟨added, opened⟩ := add_keeping draft kept line
    have split : blockLines draft.open? (line :: texts) =
        blockLines draft.open? [line] ++ blockLines (draft.add line).open? texts := by
      rw [opened]
      exact blockLines_append draft.open? [line] texts
    rw [split, ← List.append_assoc]
    exact (congrArg (addTexts · texts) added).trans (ih (draft.add line) _)

/-- What is kept of some lines, behind what was kept before. -/
theorem continuation_addTexts (draft : Draft) (texts : List Text) :
    (draft.addTexts texts).continuation = draft.continuation ++ blockLines draft.open? texts :=
  congrArg continuation (addTexts_keeping draft draft.continuation texts)

private theorem add_of_inside {draft : Draft} {code line : Text} (opened : draft.open? = some code)
    (inside : ¬ EndsBlock code line) :
    draft.add line = draft.keeping (draft.continuation ++ [line]) := by
  have unclosed : closesBlock code line = false := by
    rw [← Bool.not_eq_true, closesBlock_iff]
    exact inside
  simp [Draft.add, keeping, opened, unclosed]

/-- The lines inside a block are kept, whatever they look like. -/
theorem addTexts_of_inside {draft : Draft} {code : Text} (opened : draft.open? = some code)
    {texts : List Text} (inside : ∀ line ∈ texts, ¬ EndsBlock code line) :
    draft.addTexts texts = draft.keeping (draft.continuation ++ texts) := by
  induction texts generalizing draft with
  | nil => simp [addTexts, keeping]
  | cons line texts ih =>
    rw [List.forall_mem_cons] at inside
    have step := @ih (draft.keeping (draft.continuation ++ [line])) opened inside.2
    rw [addTexts, List.foldl_cons, add_of_inside opened inside.1]
    refine step.trans ?_
    simp [keeping]

end Draft

/-! ## Blocks -/

structure Block where
  code : Text
  opening : Bytes
  inner : List Bytes
  closing : Bytes

namespace Block

def lines (block : Block) : List Bytes :=
  block.opening :: (block.inner ++ [block.closing])

def texts (block : Block) : List Text :=
  block.lines.map content

structure IsWellFormed (block : Block) : Prop where
  digits : ∃ a b c : Char, block.code = [a, b, c] ∧ a.isDigit ∧ b.isDigit ∧ c.isDigit
  opens : ∃ rest, content block.opening = block.code ++ '-' :: rest
  filled : ∀ line ∈ block.inner, isBlankLine line = false
  inside : ∀ line ∈ block.inner, ¬ EndsBlock block.code (content line)
  ends : EndsBlock block.code (content block.closing)

variable {block : Block}

theorem IsWellFormed.blockCode? (wellFormed : block.IsWellFormed) :
    blockCode? (content block.opening) = some block.code := by
  obtain ⟨a, b, c, code, digits⟩ := wellFormed.digits
  obtain ⟨rest, opening⟩ := wellFormed.opens
  rw [opening, code]
  exact blockCode?_of_digits digits rest

theorem IsWellFormed.filled_lines (wellFormed : block.IsWellFormed) :
    ∀ line ∈ block.lines, isBlankLine line = false := by
  obtain ⟨a, b, c, code, -⟩ := wellFormed.digits
  have opening : isBlankLine block.opening = false := by
    obtain ⟨rest, opening⟩ := wellFormed.opens
    simp [isBlankLine, opening]
  have closing : isBlankLine block.closing = false := by
    rcases wellFormed.ends with closing | ⟨rest, closing⟩ <;> simp [isBlankLine, closing, code]
  simp only [lines, List.mem_cons, List.mem_append, List.not_mem_nil, or_false]
  rintro line (rfl | member | rfl)
  · exact opening
  · exact wellFormed.filled line member
  · exact closing

/-- A block leaves nothing behind but its lines. -/
theorem IsWellFormed.addTexts (wellFormed : block.IsWellFormed) {draft : Draft}
    (closed : draft.open? = none) :
    draft.addTexts block.texts = draft.keeping (draft.continuation ++ block.texts) := by
  have inside : ∀ line ∈ block.inner.map content, ¬ EndsBlock block.code line := by
    rw [List.forall_mem_map]
    exact wellFormed.inside
  have closes : closesBlock block.code (content block.closing) = true :=
    closesBlock_iff.2 wellFormed.ends
  have opened : draft.addTexts [content block.opening] =
      { draft with
        open? := some block.code
        continuation := draft.continuation ++ [content block.opening] } := by
    simp only [Draft.addTexts, List.foldl_cons, List.foldl_nil, Draft.add, closed,
      Draft.addField_of_opening wellFormed.blockCode?]
  have texts : block.texts =
      [content block.opening] ++ (block.inner.map content ++ [content block.closing]) := by
    simp [Block.texts, lines]
  rw [texts, Draft.addTexts_append, Draft.addTexts_append, opened,
    Draft.addTexts_of_inside rfl inside]
  simp [Draft.addTexts, Draft.add, Draft.keeping, closes, closed]

end Block

/-! ## Blocks put in -/

structure Insertion where
  before : List Bytes
  block : Block

def plainLines (insertions : List Insertion) : List Bytes :=
  insertions.flatMap Insertion.before

def wholeLines (insertions : List Insertion) : List Bytes :=
  insertions.flatMap fun insertion => insertion.before ++ insertion.block.lines

/-- The stage of a reader that has taken in a status line and some lines behind it. -/
def stageBehind (status : Bytes) (lines : List Bytes) : Stage :=
  ((Draft.ofStatusLine (content status)).addTexts (lines.map content)).stage

def plainKept (insertions : List Insertion) : List Text :=
  insertions.flatMap fun insertion => blockLines none (insertion.before.map content)

/-- What is kept of all lines: at each place, the lines of the block that was put in there. -/
def wholeKept (insertions : List Insertion) : List Text :=
  insertions.flatMap fun insertion =>
    blockLines none (insertion.before.map content) ++ insertion.block.texts

variable {insertions : List Insertion}

private theorem addTexts_insertions {draft : Draft} (closed : draft.open? = none)
    (wellFormed : ∀ insertion ∈ insertions, insertion.block.IsWellFormed)
    (outside : ∀ before insertion after, insertions = before ++ insertion :: after →
      (draft.addTexts ((plainLines before ++ insertion.before).map content)).open? = none)
    (kept : List Text) :
    let plain := draft.addTexts ((plainLines insertions).map content)
    plain.open? = none ∧ plain.continuation = draft.continuation ++ plainKept insertions ∧
      (draft.keeping kept).addTexts ((wholeLines insertions).map content) =
        plain.keeping (kept ++ wholeKept insertions) := by
  -- The lines kept so far differ, so the one draft is the other with its own lines kept.
  induction insertions generalizing draft kept with
  | nil => simp [plainLines, wholeLines, plainKept, wholeKept, Draft.addTexts, closed]
  | cons insertion rest ih =>
    rw [List.forall_mem_cons] at wellFormed
    have here : (draft.addTexts (insertion.before.map content)).open? = none :=
      outside [] insertion rest rfl
    have onward : ∀ before other after, rest = before ++ other :: after →
        ((draft.addTexts (insertion.before.map content)).addTexts
          ((plainLines before ++ other.before).map content)).open? = none := by
      rintro before other after rfl
      have there := outside (insertion :: before) other after rfl
      simpa [plainLines, ← Draft.addTexts_append] using there
    obtain ⟨open?, continuation, whole⟩ := ih here wellFormed.2 onward
      (kept ++ blockLines none (insertion.before.map content) ++ insertion.block.texts)
    have plainSplit : (plainLines (insertion :: rest)).map content =
        insertion.before.map content ++ (plainLines rest).map content := by simp [plainLines]
    have wholeSplit : (wholeLines (insertion :: rest)).map content =
        insertion.before.map content ++
          (insertion.block.texts ++ (wholeLines rest).map content) := by
      simp [wholeLines, Block.texts]
    have begun : (draft.keeping kept).addTexts (insertion.before.map content) =
        (draft.addTexts (insertion.before.map content)).keeping
          (kept ++ blockLines none (insertion.before.map content)) := by
      rw [Draft.addTexts_keeping, closed]
    have added : ∀ kept : List Text,
        ((draft.addTexts (insertion.before.map content)).keeping kept).addTexts
            insertion.block.texts =
          (draft.addTexts (insertion.before.map content)).keeping
            (kept ++ insertion.block.texts) :=
      fun _ => wellFormed.1.addTexts here
    rw [plainSplit, wholeSplit, Draft.addTexts_append]
    refine ⟨open?, ?_, ?_⟩
    · rw [continuation, Draft.continuation_addTexts, closed, List.append_assoc]
      rfl
    · rw [Draft.addTexts_append, Draft.addTexts_append, begun, added]
      refine whole.trans ?_
      simp [wholeKept]

theorem filled_wholeLines (wellFormed : ∀ insertion ∈ insertions, insertion.block.IsWellFormed)
    (filled : ∀ line ∈ plainLines insertions, isBlankLine line = false) :
    ∀ line ∈ wholeLines insertions, isBlankLine line = false := by
  intro line member
  obtain ⟨insertion, listed, inside⟩ := List.mem_flatMap.1 member
  rcases List.mem_append.1 inside with before | within
  · exact filled line (List.mem_flatMap.2 ⟨insertion, listed, before⟩)
  · exact (wellFormed insertion listed).filled_lines line within

private theorem draftOf_append_of_filled {front : List Bytes}
    (filled : ∀ line ∈ front, isBlankLine line = false) (status : Bytes) (rest : List Bytes) :
    draftOf status (front ++ rest) =
      ((Draft.ofStatusLine (content status)).addTexts (front.map content)).addTexts
        ((fieldLines rest).map content) := by
  rw [draftOf, fieldLines_append_of_filled filled, List.map_append, Draft.addTexts_append]

private theorem draftOf_insertions {status : Bytes}
    (filled : ∀ line ∈ plainLines insertions, isBlankLine line = false)
    (wellFormed : ∀ insertion ∈ insertions, insertion.block.IsWellFormed)
    (outside : ∀ before insertion after, insertions = before ++ insertion :: after →
      stageBehind status (plainLines before ++ insertion.before) = .fieldLine)
    (rest : List Bytes) :
    let plain := draftOf status (plainLines insertions ++ rest)
    let last := blockLines none ((fieldLines rest).map content)
    plain.continuation = plainKept insertions ++ last ∧
      draftOf status (wholeLines insertions ++ rest) =
        plain.keeping (wholeKept insertions ++ last) := by
  have closed : ∀ before insertion after, insertions = before ++ insertion :: after →
      ((Draft.ofStatusLine (content status)).addTexts
        ((plainLines before ++ insertion.before).map content)).open? = none :=
    fun before insertion after split =>
      Draft.stage_eq_fieldLine_iff.1 (outside before insertion after split)
  obtain ⟨open?, continuation, whole⟩ := addTexts_insertions rfl wellFormed closed []
  have start : (Draft.ofStatusLine (content status)).keeping [] =
      Draft.ofStatusLine (content status) := rfl
  rw [start, List.nil_append] at whole
  rw [draftOf_append_of_filled filled,
    draftOf_append_of_filled (filled_wholeLines wellFormed filled), whole]
  dsimp only
  rw [Draft.continuation_addTexts, continuation, Draft.addTexts_keeping, open?]
  exact ⟨rfl, rfl⟩

/-- Any number of blocks in a head, each put in where the reader is not inside one, make no
difference to its status line, its code and its fields, nor to what is left behind it. Their
lines come between those that are kept anyway, each at its place. -/
theorem readHead_of_insertions {reader : Reader} {feed : Feed} {front rest : List Bytes}
    {status : Bytes} (preamble : Preamble front) (begins : BeginsHead status)
    (filled : ∀ line ∈ plainLines insertions, isBlankLine line = false)
    (wellFormed : ∀ insertion ∈ insertions, insertion.block.IsWellFormed)
    (outside : ∀ before insertion after, insertions = before ++ insertion :: after →
      stageBehind status (plainLines before ++ insertion.before) = .fieldLine)
    (timely : reader.feed.isTimely reader.limit 0 = true)
    (inTime : feed.isTimely reader.limit 0 = true)
    (whole : Feed.lines reader.feed.bytes = front ++ status :: (wholeLines insertions ++ rest))
    (plain : Feed.lines feed.bytes = front ++ status :: (plainLines insertions ++ rest)) :
    let long := reader.readHead
    let short := ({ reader with feed } : Reader).readHead
    let last := blockLines none ((fieldLines rest).map content)
    ∃ head other, long.1 = .ok head ∧ short.1 = .ok other ∧
      head = { other with continuation := wholeKept insertions ++ last } ∧
      other.continuation = plainKept insertions ++ last ∧
      long.2 = { short.2 with feed := long.2.feed } ∧
      long.2.feed.bytes = short.2.feed.bytes := by
  intro long short last
  have wholeFaces : reader.Faces (front ++ status :: (wholeLines insertions ++ rest)) :=
    ⟨timely, whole⟩
  have plainFaces : ({ reader with feed } : Reader).Faces
      (front ++ status :: (plainLines insertions ++ rest)) := ⟨inTime, plain⟩
  obtain ⟨first, read, left⟩ := readHead_of_begins preamble begins wholeFaces
  obtain ⟨second, same, right⟩ := readHead_of_begins preamble begins plainFaces
  obtain ⟨kept, drafts⟩ := draftOf_insertions filled wellFormed outside rest
  rw [behindBlank_append_of_filled (filled_wholeLines wellFormed filled)] at left
  rw [behindBlank_append_of_filled filled] at right
  rw [drafts] at read
  simp only [long, short, read, same]
  exact ⟨_, _, rfl, rfl, rfl, kept, rfl, left.trans right.symm⟩

/-- One block before a field, with lines like those of a head in it, and one between the field
and the line that continues it; the head has a block of its own. -/
theorem readHead_of_insertions_of_two :
    let sent (text : String) : Bytes := Text.utf8 text.toList
    let status := sent "HTTP/1.0 200 OK\r\n"
    let first : Block := ⟨"250".toList, sent "250-a\r\n",
      [sent "HTTP/1.0 500 No\r\n", sent " x\n", sent "B: 2\r\n", sent "2500\n"], sent "250 z\r\n"⟩
    let second : Block := ⟨"123".toList, sent "123-\n", [sent "250 z\n"], sent "123\n"⟩
    let insertions : List Insertion := [⟨[], first⟩, ⟨[sent "A: 1\r\n"], second⟩]
    let rest := [sent " more\n", sent "250-own\n", sent "250\n", sent "\r\n", sent "body"]
    let reader := Reader.start
      [.piece (status :: (wholeLines insertions ++ rest)).flatten] 0 []
    let plain := Reader.start [.piece (status :: (plainLines insertions ++ rest)).flatten] 0 []
    ∃ head other, reader.readHead.1 = .ok head ∧ plain.readHead.1 = .ok other ∧
      head.fields = other.fields ∧ other.fields = [⟨"a".toList, ["1 more".toList]⟩] ∧
      head.statusLine = "HTTP/1.0 200 OK".toList ∧
      other.continuation = ["250-own".toList, "250".toList] ∧
      head.continuation = first.texts ++ second.texts ++ other.continuation ∧
      reader.readHead.2.feed.bytes = sent "body" := by
  intro sent status first second insertions rest reader plain
  have firstFormed : first.IsWellFormed :=
    ⟨⟨'2', '5', '0', rfl, by decide⟩, ⟨"a".toList, by decide +kernel⟩, by decide +kernel,
      by decide +kernel, by decide +kernel⟩
  have secondFormed : second.IsWellFormed :=
    ⟨⟨'1', '2', '3', rfl, by decide⟩, ⟨[], by decide +kernel⟩, by decide +kernel,
      by decide +kernel, by decide +kernel⟩
  have wellFormed : ∀ insertion ∈ insertions, insertion.block.IsWellFormed := by
    simp only [insertions, List.forall_mem_cons]
    exact ⟨firstFormed, secondFormed, nofun⟩
  have outside : ∀ before insertion after, insertions = before ++ insertion :: after →
      stageBehind status (plainLines before ++ insertion.before) = .fieldLine := by
    intro before insertion after split
    rcases before with _ | ⟨other, _ | ⟨_, before⟩⟩
    · obtain ⟨rfl, -⟩ := List.cons.inj split
      decide +kernel
    · obtain ⟨rfl, onward⟩ := List.cons.inj split
      obtain ⟨rfl, -⟩ := List.cons.inj onward
      decide +kernel
    · simp [insertions] at split
  have inTime : plain.feed.isTimely reader.limit 0 = true := by decide +kernel
  obtain ⟨head, other, read, same, heads, kept, -, left⟩ := readHead_of_insertions .nil
    ⟨by decide +kernel, by decide +kernel⟩ (by decide +kernel) wellFormed outside
    (by decide +kernel) inTime (by decide +kernel : _ = [] ++ status :: (_ ++ rest))
    (by decide +kernel : _ = [] ++ status :: (_ ++ rest))
  have plainHead : plain.readHead.1 = .ok ⟨"HTTP/1.0 200 OK".toList, 200,
      [⟨"a".toList, ["1 more".toList]⟩], ["250-own".toList, "250".toList]⟩ := by decide +kernel
  cases same.symm.trans plainHead
  refine ⟨head, _, read, same, ?_, rfl, ?_, rfl, ?_, left.trans (by decide +kernel)⟩
  · rw [heads]
  · rw [heads]
  · rw [heads]
    decide +kernel

end Reader

end WebClient
