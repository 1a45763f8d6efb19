import WebClient.Text

/-!
# ASCII within UTF-8

In UTF-8 an ASCII character is the one byte of its code, and no byte of any other
character is below 128. So an ASCII byte is found exactly where its character is.
-/

set_option autoImplicit false

namespace WebClient.Text

theorem utf8EncodeChar_of_ascii {c : Char} (ascii : c.toNat < 128) :
    String.utf8EncodeChar c = [UInt8.ofNat c.toNat] := by
  have small : c.val.toNat ≤ 127 := Nat.le_of_lt_succ ascii
  simp only [String.utf8EncodeChar, if_pos small]
  rfl

private theorem le_of_mem_utf8EncodeChar {c : Char} (beyond : 128 ≤ c.toNat) {byte : UInt8}
    (member : byte ∈ String.utf8EncodeChar c) : 128 ≤ byte.toNat := by
  have large : ¬ c.val.toNat ≤ 127 := Nat.not_le_of_lt beyond
  simp only [String.utf8EncodeChar, if_neg large] at member
  -- Every byte of a longer form is a remainder with a mark of at least 128 on it.
  split at member
  · simp only [List.mem_cons, List.not_mem_nil, or_false] at member
    rcases member with rfl | rfl <;> simp <;> omega
  · split at member
    · simp only [List.mem_cons, List.not_mem_nil, or_false] at member
      rcases member with rfl | rfl | rfl <;> simp <;> omega
    · simp only [List.mem_cons, List.not_mem_nil, or_false] at member
      rcases member with rfl | rfl | rfl | rfl <;> simp <;> omega

theorem mem_utf8EncodeChar_iff {mark c : Char} (ascii : mark.toNat < 128) :
    UInt8.ofNat mark.toNat ∈ String.utf8EncodeChar c ↔ c = mark := by
  have code : (UInt8.ofNat mark.toNat).toNat = mark.toNat :=
    UInt8.toNat_ofNat_of_lt' (Nat.lt_trans ascii (by decide))
  by_cases small : c.toNat < 128
  · have same : (UInt8.ofNat c.toNat).toNat = c.toNat :=
      UInt8.toNat_ofNat_of_lt' (Nat.lt_trans small (by decide))
    rw [utf8EncodeChar_of_ascii small, List.mem_singleton, ← UInt8.toNat_inj, code, same,
      Char.toNat_inj]
    exact eq_comm
  · constructor
    · intro member
      have large := le_of_mem_utf8EncodeChar (Nat.le_of_not_lt small) member
      omega
    · rintro rfl
      exact absurd ascii small

theorem mem_utf8_iff {mark : Char} (ascii : mark.toNat < 128) {text : Text} :
    UInt8.ofNat mark.toNat ∈ utf8 text ↔ mark ∈ text := by
  simp only [utf8, List.mem_flatMap, mem_utf8EncodeChar_iff ascii, exists_eq_right]

/-- An ASCII character is in the bytes as often as in the text. -/
theorem count_utf8 {mark : Char} (ascii : mark.toNat < 128) (text : Text) :
    (utf8 text).count (UInt8.ofNat mark.toNat) = text.count mark := by
  induction text with
  | nil => rfl
  | cons c rest ih =>
    have whole : utf8 (c :: rest) = String.utf8EncodeChar c ++ utf8 rest := rfl
    rw [whole, List.count_append, ih, List.count_cons, Nat.add_comm]
    by_cases same : c = mark
    · rw [same, utf8EncodeChar_of_ascii ascii]
      simp
    · have absent := mt (mem_utf8EncodeChar_iff ascii).1 same
      rw [List.count_eq_zero.2 absent]
      simp [same]

end WebClient.Text
