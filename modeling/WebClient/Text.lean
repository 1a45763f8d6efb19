/-!
# Text and bytes

Everything the client reads as characters is a `Text`, a list of Unicode
characters; everything it puts on or takes off a channel is a list of bytes.
Two conversions connect them: `Text.utf8` writes text, and `Text.latin1` reads
bytes one character per byte, so it never fails and never merges bytes.
-/

set_option autoImplicit false

namespace WebClient

abbrev Text := List Char

abbrev Bytes := List UInt8

namespace Text

def utf8 (text : Text) : Bytes :=
  text.flatMap String.utf8EncodeChar

/-- Bytes read as ISO-8859-1: one character for every byte. -/
def latin1 (bytes : Bytes) : Text :=
  bytes.map fun byte => Char.ofNat byte.toNat

def byteLength (text : Text) : Nat :=
  text.utf8.length

/-- The longest beginning of at most `count` UTF-8 bytes, and what follows it.
No character is ever divided. -/
def splitAtByte (count : Nat) : Text → Text × Text
  | [] => ([], [])
  | c :: rest =>
    if c.utf8Size ≤ count then
      let (before, after) := splitAtByte (count - c.utf8Size) rest
      (c :: before, after)
    else
      ([], c :: rest)

@[simp] theorem latin1_nil : latin1 [] = [] := rfl

theorem length_latin1 (bytes : Bytes) : (latin1 bytes).length = bytes.length := by
  simp [latin1]

theorem utf8_append (left right : Text) : utf8 (left ++ right) = utf8 left ++ utf8 right := by
  simp [utf8]

theorem latin1_append (left right : Bytes) :
    latin1 (left ++ right) = latin1 left ++ latin1 right := by
  simp [latin1]

theorem splitAtByte_append (count : Nat) (text : Text) :
    (splitAtByte count text).1 ++ (splitAtByte count text).2 = text := by
  induction text generalizing count with
  | nil => rfl
  | cons c rest ih =>
    by_cases fits : c.utf8Size ≤ count
    · simp [splitAtByte, fits, ih]
    · simp [splitAtByte, fits]

end Text

end WebClient
