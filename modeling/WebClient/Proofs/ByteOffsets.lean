import WebClient.Text.Cut
import WebClient.Text.Fold

/-!
# Offsets in bytes

A place in a text may be given as the number of UTF-8 bytes in front of it. Not every number
is a place: it may be too large, or lie inside a character. A slice from such a place, or up to
one, is not to be had. Small letters take as many bytes as capitals, so that a place in a text
is one in its copy in small letters.
-/

set_option autoImplicit false

namespace WebClient.Text

variable {text front rest : Text} {offset : Nat}

theorem byteLength_cons (c : Char) (text : Text) :
    byteLength (c :: text) = c.utf8Size + byteLength text := by
  rw [byteLength, utf8, List.flatMap_cons, List.length_append, String.length_utf8EncodeChar]
  rfl

@[simp] theorem byteLength_append (left right : Text) :
    byteLength (left ++ right) = byteLength left + byteLength right := by
  rw [byteLength, utf8_append, List.length_append]
  rfl

theorem byteLength_pos (nonempty : text ≠ []) : 0 < byteLength text := by
  obtain ⟨c, rest, rfl⟩ := List.exists_cons_of_ne_nil nonempty
  rw [byteLength_cons]
  exact Nat.add_pos_left c.utf8Size_pos _

private theorem utf8Size_toLower (c : Char) : c.toLower.utf8Size = c.utf8Size := by
  have ascii {c : Char} (low : c.toNat ≤ 127) : c.utf8Size = 1 :=
    Char.utf8Size_eq_one_iff.2 (UInt32.le_iff_toNat_le.2 low)
  by_cases upper : 65 ≤ c.toNat ∧ c.toNat ≤ 90
  · have code : c.toLower.toNat = c.toNat + 32 := by rw [toNat_toLower, if_pos upper]
    rw [ascii (by omega), ascii (by omega)]
  · have same : c.toLower = c := by rw [← Char.toNat_inj, toNat_toLower, if_neg upper]
    rw [same]

theorem byteLength_lower (text : Text) : byteLength (lower text) = byteLength text := by
  induction text with
  | nil => rfl
  | cons c text ih =>
    rw [lower, List.map_cons, byteLength_cons, byteLength_cons, utf8Size_toLower, ← lower, ih]

/-! ## Slices -/

theorem splitAtByte_byteLength (front rest : Text) :
    splitAtByte (byteLength front) (front ++ rest) = (front, rest) := by
  induction front with
  | nil =>
    cases rest with
    | nil => rfl
    | cons c rest =>
      have positive := c.utf8Size_pos
      have wide : ¬ c.utf8Size ≤ byteLength [] := Nat.not_le_of_lt positive
      rw [List.nil_append, splitAtByte, if_neg wide]
  | cons c front ih =>
    have fits : c.utf8Size ≤ c.utf8Size + byteLength front := Nat.le_add_right _ _
    rw [byteLength_cons, List.cons_append, splitAtByte, if_pos fits, Nat.add_sub_cancel_left, ih]

def cutAtByte? (offset : Nat) (text : Text) : Option (Text × Text) :=
  let (before, after) := splitAtByte offset text
  if byteLength before = offset then some (before, after) else none

def fromByte? (offset : Nat) (text : Text) : Option Text :=
  (cutAtByte? offset text).map Prod.snd

def upToByte? (offset : Nat) (text : Text) : Option Text :=
  (cutAtByte? offset text).map Prod.fst

/-- The text between two offsets, if both are places and the first is not behind the last. -/
def slice? (first last : Nat) (text : Text) : Option Text :=
  (upToByte? last text).bind (fromByte? first)

theorem cutAtByte?_eq_some_iff :
    cutAtByte? offset text = some (front, rest) ↔
      text = front ++ rest ∧ byteLength front = offset := by
  constructor
  · intro cut
    unfold cutAtByte? at cut
    dsimp only at cut
    split at cut
    · rename_i place
      cases cut
      exact ⟨(splitAtByte_append offset text).symm, place⟩
    · cases cut
  · rintro ⟨rfl, rfl⟩
    simp [cutAtByte?, splitAtByte_byteLength]

@[simp] theorem cutAtByte?_byteLength (front rest : Text) :
    cutAtByte? (byteLength front) (front ++ rest) = some (front, rest) :=
  cutAtByte?_eq_some_iff.2 ⟨rfl, rfl⟩

@[simp] theorem fromByte?_byteLength (front rest : Text) :
    fromByte? (byteLength front) (front ++ rest) = some rest := by
  rw [fromByte?, cutAtByte?_byteLength, Option.map_some]

@[simp] theorem upToByte?_byteLength (front rest : Text) :
    upToByte? (byteLength front) (front ++ rest) = some front := by
  rw [upToByte?, cutAtByte?_byteLength, Option.map_some]

theorem slice?_append (front part rest : Text) :
    slice? (byteLength front) (byteLength (front ++ part)) (front ++ part ++ rest) = some part := by
  rw [slice?, upToByte?_byteLength, Option.bind_some, fromByte?_byteLength]

end WebClient.Text
