import WebClient.Proofs.Utf8
import WebClient.Request

/-!
# Lines on the wire

What a receiver makes of some bytes that it reads in lines. A line ends at a
carriage return, at a line feed or at both together, so a text is one line exactly
if it has neither.
-/

set_option autoImplicit false

namespace WebClient

namespace Text

/-- Without a line ending, or a part of one. -/
def IsUnbroken (text : Text) : Prop :=
  '\r' ∉ text ∧ '\n' ∉ text

instance (text : Text) : Decidable text.IsUnbroken :=
  inferInstanceAs (Decidable (_ ∧ _))

@[simp] theorem isUnbroken_nil : IsUnbroken [] := by
  simp [IsUnbroken]

@[simp] theorem isUnbroken_cons {c : Char} {text : Text} :
    IsUnbroken (c :: text) ↔ (c ≠ '\r' ∧ c ≠ '\n') ∧ IsUnbroken text := by
  simp only [IsUnbroken, List.mem_cons, not_or, ne_eq, eq_comm]
  exact and_and_and_comm

@[simp] theorem isUnbroken_append {left right : Text} :
    IsUnbroken (left ++ right) ↔ IsUnbroken left ∧ IsUnbroken right := by
  simp only [IsUnbroken, List.mem_append, not_or]
  exact and_and_and_comm

end Text

namespace Lines

def isBreak (byte : UInt8) : Bool :=
  byte == 13 || byte == 10

def IsUnbroken (bytes : Bytes) : Prop :=
  13 ∉ bytes ∧ 10 ∉ bytes

@[simp] theorem isUnbroken_nil : IsUnbroken [] := by
  simp [IsUnbroken]

@[simp] theorem isUnbroken_cons {byte : UInt8} {bytes : Bytes} :
    IsUnbroken (byte :: bytes) ↔ isBreak byte = false ∧ IsUnbroken bytes := by
  have ends : isBreak byte = false ↔ ¬ byte = 13 ∧ ¬ byte = 10 := by
    simp [isBreak]
  rw [ends, eq_comm (a := byte), eq_comm (a := byte)]
  simp only [IsUnbroken, List.mem_cons, not_or]
  exact and_and_and_comm

theorem isUnbroken_utf8 (text : Text) : IsUnbroken text.utf8 ↔ text.IsUnbroken := by
  have carriage : '\r'.toNat < 128 := by decide
  have feed : '\n'.toNat < 128 := by decide
  exact and_congr (not_congr (Text.mem_utf8_iff carriage)) (not_congr (Text.mem_utf8_iff feed))

theorem isUnbroken_of_mem_concat {lines : List Bytes} (unbroken : ∀ line ∈ lines, IsUnbroken line) :
    ∀ line ∈ lines ++ [[]], IsUnbroken line := by
  intro line member
  rcases List.mem_append.1 member with written | last
  · exact unbroken line written
  · rw [List.mem_singleton.1 last]
    exact isUnbroken_nil

/-- The lines of some bytes, without their endings, and what follows the last one. -/
def split : Bytes → List Bytes × Bytes
  | [] => ([], [])
  | byte :: rest =>
    -- The line feed after a carriage return is the one that ends the line.
    if byte = 13 ∧ rest.head? = some 10 then split rest
    else if isBreak byte then ([] :: (split rest).1, (split rest).2)
    else match split rest with
      | ([], last) => ([], byte :: last)
      | (line :: more, last) => ((byte :: line) :: more, last)

private theorem isUnbroken_of_mem_split (bytes : Bytes) :
    (∀ line ∈ (split bytes).1, IsUnbroken line) ∧ IsUnbroken (split bytes).2 := by
  fun_induction split bytes with
  | case1 => simp
  | case2 byte rest paired ih => exact ih
  | case3 byte rest unpaired ends ih => simpa using ih
  | case4 byte rest unpaired inside last found ih =>
    rw [found] at ih
    simpa [inside] using ih
  | case5 byte rest unpaired inside line more last found ih =>
    rw [found] at ih
    simpa [inside] using ih

private theorem split_append_ending (ending : LineEnding) {line : Bytes}
    (unbroken : IsUnbroken line) (rest : Bytes) :
    split (line ++ Text.utf8 ending.text ++ rest) = (line :: (split rest).1, (split rest).2) := by
  induction line with
  | nil => cases ending <;> rfl
  | cons byte line ih =>
    rw [isUnbroken_cons] at unbroken
    have inside : byte ≠ 13 := by
      rintro rfl
      exact absurd unbroken.1 (by decide)
    simp only [List.cons_append, split, inside, false_and, if_false, unbroken.1, ih unbroken.2]
    rfl

private theorem split_flatMap_ending (ending : LineEnding) {lines : List Bytes}
    (unbroken : ∀ line ∈ lines, IsUnbroken line) :
    split (lines.flatMap fun line => line ++ Text.utf8 ending.text) = (lines, []) := by
  induction lines with
  | nil => rfl
  | cons line rest ih =>
    simp only [List.forall_mem_cons] at unbroken
    simp only [List.flatMap_cons]
    rw [split_append_ending ending unbroken.1, ih unbroken.2]

end Lines

namespace Request

theorem head_eq_flatMap (request : Request) (ending : LineEnding) :
    request.head ending = (request.headLines.map Text.utf8 ++ [[]]).flatMap
      fun line => line ++ Text.utf8 ending.text := by
  simp [head, Text.utf8, List.flatMap_assoc, List.flatMap_map]

theorem isUnbroken_utf8_headLines {request : Request}
    (unbroken : ∀ line ∈ request.headLines, line.IsUnbroken) :
    ∀ line ∈ request.headLines.map Text.utf8 ++ [[]], Lines.IsUnbroken line := by
  refine Lines.isUnbroken_of_mem_concat ?_
  rw [List.forall_mem_map]
  exact fun line listed => (Lines.isUnbroken_utf8 line).2 (unbroken line listed)

/-- A head is read as the lines it was made of exactly if each of them is one. -/
theorem split_head_iff (request : Request) (ending : LineEnding) :
    Lines.split (request.head ending) = (request.headLines.map Text.utf8 ++ [[]], []) ↔
      ∀ line ∈ request.headLines, line.IsUnbroken := by
  constructor
  · intro read line member
    have unbroken := (Lines.isUnbroken_of_mem_split (request.head ending)).1
    rw [read] at unbroken
    exact (Lines.isUnbroken_utf8 line).1
      (unbroken _ (List.mem_append_left _ (List.mem_map_of_mem member)))
  · intro unbroken
    rw [head_eq_flatMap]
    exact Lines.split_flatMap_ending ending (isUnbroken_utf8_headLines unbroken)

end Request

end WebClient
