import WebClient.Proofs.OffsetSearch

/-!
# Frames and their insets

The frames of a text end at places in it, one behind the other, each directly behind the `>` of
a frame tag. Insets for the first of them cut the text at just these places. Their texts are put
in there, and nothing else changes: without them the parts make up the text again.
-/

set_option autoImplicit false

namespace WebClient.Text

variable {front rest before after text : Text}

private theorem trim_trim (text : Text) : trim (trim text) = trim text := by
  conv_lhs => rw [trim.eq_1 text, trim_trimEnd, trim_trimStart]

/-- Of two places in a text the first is in front of the other. -/
theorem prefix_of_byteLength_le (same : front ++ rest = before ++ after)
    (ordered : byteLength front ≤ byteLength before) : front <+: before := by
  have whole : front <+: before ++ after := ⟨rest, same⟩
  rcases List.prefix_or_prefix_of_prefix whole (List.prefix_append before after) with
    earlier | ⟨more, rfl⟩
  · exact earlier
  · obtain rfl : more = [] := by
      by_contra occupied
      have positive := byteLength_pos occupied
      rw [byteLength_append] at ordered
      omega
    rw [List.append_nil]

end WebClient.Text

namespace WebClient.Markup

variable {text : Text} {frame : Frame}

/-! ## Where frames end -/

def EndsFrameTag (text : Text) (offset : Nat) : Prop :=
  ∃ before name body after, text = before ++ (name ++ body) ++ '>' :: after ∧
    (Text.lower name = "<frame".toList ∨ Text.lower name = "<iframe".toList) ∧
    (∀ c ∈ body.head?, endsName c = true) ∧ '>' ∉ body ∧
    offset = Text.byteLength (before ++ (name ++ body) ++ ['>'])

private theorem named_of_opensFrame {inner after : Text}
    (opened : opensFrame (inner ++ '>' :: after) = true) :
    ∃ name body, inner = name ++ body ∧
      (Text.lower name = "<frame".toList ∨ Text.lower name = "<iframe".toList) ∧
      ∀ c ∈ body.head?, endsName c = true := by
  have spelled {name : Text} (absent : '>' ∉ name)
      (begins : ((Text.dropFolded? name (inner ++ '>' :: after)).bind List.head?).any endsName) :
      ∃ written body, inner = written ++ body ∧ Text.lower written = name ∧
        ∀ c ∈ body.head?, endsName c = true := by
    rw [Text.dropFolded?_append_mark rfl absent] at begins
    cases found : Text.dropFolded? name inner with
    | none =>
      rw [found] at begins
      cases begins
    | some body =>
      obtain ⟨written, whole, folded⟩ := Text.dropFolded?_eq_some_iff.1 found
      refine ⟨written, body, whole, folded, fun c first => ?_⟩
      rw [found, Option.map_some, Option.bind_some, List.head?_append,
        Option.mem_def.1 first] at begins
      exact begins
  rw [opensFrame_eq, Bool.or_eq_true] at opened
  rcases opened with begins | begins
  · obtain ⟨name, body, whole, folded, ended⟩ := spelled (by decide) begins
    exact ⟨name, body, whole, .inl folded, ended⟩
  · obtain ⟨name, body, whole, folded, ended⟩ := spelled (by decide) begins
    exact ⟨name, body, whole, .inr folded, ended⟩

private theorem trimmed_of_frameSource? {tag source : Text}
    (sourced : frameSource? tag = some source) : source ≠ [] ∧ Text.trim source = source := by
  unfold frameSource? at sourced
  split at sourced
  · rename_i value found
    dsimp only at sourced
    split at sourced
    · cases sourced
    · rename_i occupied
      cases sourced
      exact ⟨by simpa using occupied, Text.trim_trim value⟩
  · cases sourced

theorem Tag.frame?_eq_some_iff {tag : Tag} :
    tag.frame? = some frame ↔ tag.after ≠ [] ∧
      frameSource? (tag.inner ++ ['>']) = some frame.source ∧
      frame.tagEnd = Text.byteLength (tag.before ++ tag.inner ++ ['>']) := by
  obtain ⟨tagEnd, source⟩ := frame
  rw [Tag.frame?]
  split
  · simp_all
  · simp_all [and_comm, eq_comm]

theorem mem_frames_iff :
    frame ∈ frames text ↔ ∃ tag, Tag.IsOf opensFrame text tag ∧ tag.frame? = some frame := by
  rw [frames_eq_tags, List.mem_filterMap]
  exact exists_congr fun tag => and_congr_left fun _ => mem_tagsFrom_nil_iff rfl

theorem endsFrameTag_of_mem (member : frame ∈ frames text) : EndsFrameTag text frame.tagEnd := by
  obtain ⟨⟨before, inner, after⟩, is, found⟩ := mem_frames_iff.1 member
  obtain ⟨closed, -, place⟩ := Tag.frame?_eq_some_iff.1 found
  obtain ⟨rest, rfl⟩ := is.ended.resolve_left closed
  obtain ⟨name, body, rfl, named, ended⟩ := named_of_opensFrame is.opened
  refine ⟨before, name, body, rest, ?_, named, ended, ?_, place⟩
  · exact is.whole.trans (List.append_assoc ..).symm
  · exact fun member => is.unbroken (List.mem_append_right name member)

theorem pairwise_frames (text : Text) :
    (frames text).Pairwise fun left right => left.tagEnd < right.tagEnd := by
  rw [frames_eq_tags, List.pairwise_filterMap]
  refine (pairwise_tagsFrom opensFrame [] text).imp fun {left right} earlier => ?_
  intro first foundFirst second foundSecond
  obtain ⟨more, joined⟩ := earlier
  obtain ⟨-, -, placeFirst⟩ := Tag.frame?_eq_some_iff.1 foundFirst
  obtain ⟨-, -, placeSecond⟩ := Tag.frame?_eq_some_iff.1 foundSecond
  have positive : 0 < Text.byteLength ['>'] := by decide
  rw [placeFirst, placeSecond, ← joined]
  simp only [Text.byteLength_append]
  omega

/-! ## Cutting and splicing -/

/-- Parts of a text that follow one another and end where the frames of insets do; the first
part begins at `start`. -/
inductive Cuts : Nat → List Text → List Inset → Prop
  | nil {start : Nat} : Cuts start [] []
  | cons {start : Nat} {part : Text} {parts : List Text} {inset : Inset} {insets : List Inset}
      (ends : inset.frame.tagEnd = start + Text.byteLength part)
      (more : Cuts inset.frame.tagEnd parts insets) :
      Cuts start (part :: parts) (inset :: insets)

/-- Parts of a text with an inset behind each. -/
def withInsets (parts : List Text) (insets : List Inset) : Text :=
  (List.zipWith (fun part inset => part ++ inset.text) parts insets).flatten

/-- Puts insets in by slices of the text, each from the last cut to the next one. -/
def spliceBySlices? (text : Text) (start : Nat) : List Inset → Option Text
  | [] => Text.fromByte? start text
  | inset :: insets => do
    let part ← Text.slice? start inset.frame.tagEnd text
    let more ← spliceBySlices? text inset.frame.tagEnd insets
    return part ++ inset.text ++ more

section

variable {start : Nat} {front rest tail : Text} {parts : List Text} {insets : List Inset}

/-- A text is cut at places that follow one another. -/
theorem exists_cuts
    (places : ∀ inset ∈ insets, ∃ before after,
      front ++ rest = before ++ after ∧ Text.byteLength before = inset.frame.tagEnd)
    (sorted : insets.Pairwise fun left right => left.frame.tagEnd < right.frame.tagEnd)
    (behind : ∀ inset ∈ insets, Text.byteLength front ≤ inset.frame.tagEnd) :
    ∃ parts tail, rest = parts.flatten ++ tail ∧ Cuts (Text.byteLength front) parts insets := by
  induction insets generalizing front rest with
  | nil => exact ⟨[], rest, rfl, .nil⟩
  | cons inset insets ih =>
    rw [List.pairwise_cons] at sorted
    rw [List.forall_mem_cons] at places behind
    obtain ⟨before, after, whole, place⟩ := places.1
    obtain ⟨part, rfl⟩ := Text.prefix_of_byteLength_le whole (place ▸ behind.1)
    rw [List.append_assoc] at whole
    obtain rfl := List.append_cancel_left whole
    rw [← List.append_assoc] at places
    obtain ⟨parts, tail, rfl, cuts⟩ := ih places.2 sorted.2 fun later member =>
      place ▸ (sorted.1 later member).le
    refine ⟨part :: parts, tail, (List.append_assoc ..).symm, .cons ?_ (place ▸ cuts)⟩
    rw [← place, Text.byteLength_append]

private theorem spliceFrom_eq_withInsets (cuts : Cuts start parts insets) (tail : Text) :
    spliceFrom start (parts.flatten ++ tail) insets = withInsets parts insets ++ tail := by
  induction cuts with
  | nil => rfl
  | cons ends more ih =>
    rw [List.flatten_cons, List.append_assoc, spliceFrom, ends, Nat.add_sub_cancel_left,
      Text.splitAtByte_byteLength, ← ends]
    dsimp only
    rw [ih]
    simp [withInsets]

private theorem spliceBySlices?_eq_withInsets (cuts : Cuts start parts insets)
    (place : Text.byteLength front = start) (tail : Text) :
    spliceBySlices? (front ++ (parts.flatten ++ tail)) start insets =
      some (withInsets parts insets ++ tail) := by
  induction cuts generalizing front with
  | nil =>
    rw [← place]
    exact Text.fromByte?_byteLength front tail
  | @cons start part parts inset insets ends more ih =>
    have next : Text.byteLength (front ++ part) = inset.frame.tagEnd := by
      rw [Text.byteLength_append, place, ends]
    have later := ih next
    have slice := Text.slice?_append front part (parts.flatten ++ tail)
    rw [place, next] at slice
    rw [List.append_assoc] at later slice
    rw [spliceBySlices?, List.flatten_cons, List.append_assoc, slice, later]
    simp [withInsets]

theorem splice_eq_withInsets (cuts : Cuts 0 parts insets) (tail : Text) :
    splice (parts.flatten ++ tail) insets = withInsets parts insets ++ tail :=
  spliceFrom_eq_withInsets cuts tail

/-- The first frames of a text cut it where they end. -/
theorem exists_cuts_of_prefix (first : insets.map Inset.frame <+: frames text) :
    ∃ parts tail, text = parts.flatten ++ tail ∧ Cuts 0 parts insets := by
  have sorted := (pairwise_frames text).sublist first.sublist
  rw [List.pairwise_map] at sorted
  have places : ∀ inset ∈ insets, ∃ before after,
      [] ++ text = before ++ after ∧ Text.byteLength before = inset.frame.tagEnd := by
    intro inset member
    obtain ⟨before, name, body, after, whole, -, -, -, place⟩ :=
      endsFrameTag_of_mem (first.subset (List.mem_map_of_mem member))
    exact ⟨before ++ (name ++ body) ++ ['>'], after, by simp [whole], place.symm⟩
  exact exists_cuts places sorted fun _ _ => Nat.zero_le _

end

/-- Frames are found, and insets put in for the first of them, without loss. -/
theorem frames_splice_lossless (text : Text) :
    framesBySlices? text = some (frames text) ∧
    ((frames text).Pairwise fun left right => left.tagEnd < right.tagEnd) ∧
    (∀ frame, frame ∈ frames text ↔
      ∃ tag, Tag.IsOf opensFrame text tag ∧ tag.frame? = some frame) ∧
    (∀ frame ∈ frames text, EndsFrameTag text frame.tagEnd ∧
      frame.tagEnd ≤ Text.byteLength text ∧
      frame.source ≠ [] ∧ Text.trim frame.source = frame.source) ∧
    ∀ insets : List Inset, insets.map Inset.frame <+: frames text →
      spliceBySlices? text 0 insets = some (splice text insets) ∧
      ∃ parts tail, Cuts 0 parts insets ∧ text = parts.flatten ++ tail ∧
        splice text insets = withInsets parts insets ++ tail := by
  refine ⟨framesBySlices?_eq text, pairwise_frames text, fun frame => mem_frames_iff, ?_, ?_⟩
  · intro frame member
    have ends := endsFrameTag_of_mem member
    obtain ⟨tag, -, found⟩ := mem_frames_iff.1 member
    refine ⟨ends, ?_, trimmed_of_frameSource? (Tag.frame?_eq_some_iff.1 found).2.1⟩
    obtain ⟨before, name, body, after, rfl, -, -, -, place⟩ := ends
    rw [place, List.append_cons _ '>' after, Text.byteLength_append _ after]
    exact Nat.le_add_right _ _
  · intro insets first
    obtain ⟨parts, tail, rfl, cuts⟩ := exists_cuts_of_prefix first
    have spliced := splice_eq_withInsets cuts tail
    refine ⟨?_, parts, tail, cuts, rfl, spliced⟩
    rw [spliced]
    exact spliceBySlices?_eq_withInsets cuts (rfl : Text.byteLength [] = 0) tail

/-- Two frames in a text that has characters of several bytes. -/
theorem frames_splice_lossless_of_two :
    let text := "é<FRAME src=a>ü<iframe x src=' b '>€".toList
    let insets : List Inset :=
      [⟨⟨15, "a".toList⟩, "u".toList, "<frame src=c>".toList⟩,
        ⟨⟨37, "b".toList⟩, "v".toList, "ß".toList⟩]
    insets.map Inset.frame <+: frames text ∧
      spliceBySlices? text 0 insets = some
        ("é<FRAME src=a><!-- begin frame: u --><frame src=c><!-- end frame: u -->ü".toList ++
          "<iframe x src=' b '><!-- begin frame: v -->ß<!-- end frame: v -->€".toList) := by
  intro text insets
  have first : insets.map Inset.frame <+: frames text := by decide +kernel
  exact ⟨first, ((frames_splice_lossless _).2.2.2.2 _ first).1.trans (by decide +kernel)⟩

end WebClient.Markup
