import WebClient.Text

/-!
# Blank characters

The blank characters are those with the Unicode property `White_Space`.
Trimming, splitting into words and the tests of the markup scanner all use this
one class.
-/

set_option autoImplicit false

namespace WebClient.Text

/-- The Unicode property `White_Space`. -/
def isBlank (c : Char) : Bool :=
  let point := c.toNat
  (9 ≤ point && point ≤ 13) || point == 0x20 || point == 0x85 || point == 0xA0
    || point == 0x1680 || (0x2000 ≤ point && point ≤ 0x200A) || point == 0x2028
    || point == 0x2029 || point == 0x202F || point == 0x205F || point == 0x3000

def trimStart (text : Text) : Text :=
  text.dropWhile isBlank

def trimEnd (text : Text) : Text :=
  (text.reverse.dropWhile isBlank).reverse

def trim (text : Text) : Text :=
  trimEnd (trimStart text)

def words (text : Text) : List Text :=
  (text.splitOnP isBlank).filter fun run => !run.isEmpty

theorem infix_trim (text : Text) : trim text <:+: text := by
  have inner : trimStart text <:+ text := List.dropWhile_suffix _
  have outer : trimEnd (trimStart text) <+: trimStart text := by
    rw [trimEnd, ← List.reverse_suffix, List.reverse_reverse]
    exact List.dropWhile_suffix _
  exact outer.isInfix.trans inner.isInfix

theorem trimStart_concat {text : Text} {blank : Char} (isBlank : Text.isBlank blank = true) :
    trimStart (text ++ [blank]) =
      trimStart text ++ (if (trimStart text).isEmpty then [] else [blank]) := by
  induction text with
  | nil => simp [trimStart, isBlank]
  | cons c rest ih =>
    by_cases white : Text.isBlank c = true
    · simpa [trimStart, white] using ih
    · simp [trimStart, white]

theorem trim_concat {text : Text} {blank : Char} (isBlank : Text.isBlank blank = true) :
    trim (text ++ [blank]) = trim text := by
  unfold trim
  rw [trimStart_concat isBlank]
  split
  · rw [List.append_nil]
  · simp [trimEnd, isBlank]

theorem trim_cons {text : Text} {blank : Char} (isBlank : Text.isBlank blank = true) :
    trim (blank :: text) = trim text := by
  simp [trim, trimStart, isBlank]

end WebClient.Text
