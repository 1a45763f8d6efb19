import WebClient.Identity.Octets

/-!
# Nested elements

Certificates and keys are written as elements nested in one another: a tag byte,
a length in its shortest form, and a content that in some elements consists of
elements again. No content has more than 65535 bytes.
-/

set_option autoImplicit false

namespace WebClient.Der

structure Element where
  tag : UInt8
  content : Bytes
  deriving DecidableEq, Repr

def booleanTag : UInt8 := 0x01
def integerTag : UInt8 := 0x02
def bitsTag : UInt8 := 0x03
def bytesTag : UInt8 := 0x04
def nameTag : UInt8 := 0x06
def sequenceTag : UInt8 := 0x30

/-- The tags that number the parts of a sequence from zero on, for parts that consist
of elements. -/
def partTag (index : UInt8) : UInt8 := 0xA0 + index

/-- The tags that number the parts of a sequence which have the content of some element
of a known kind. -/
def plainPartTag (index : UInt8) : UInt8 := 0x80 + index

/-! ## Reading -/

/-- A length and what follows it. Lengths from 128 on have a byte count in front,
and no needless zeros. -/
def length? : Bytes → Option (Nat × Bytes)
  | [] => none
  | first :: rest =>
    if first < 128 then some (first.toNat, rest)
    else
      let count := first.toNat - 128
      let value := Octets.number (rest.take count)
      if count = 0 ∨ 2 < count ∨ rest.length < count ∨ value < 128 ∨ rest.head? = some 0 then none
      else some (value, rest.drop count)

/-- The first element and what follows it. Tags of more than one byte are not known. -/
def next? : Bytes → Option (Element × Bytes)
  | [] => none
  | tag :: rest =>
    match length? rest with
    | none => none
    | some (length, body) =>
      if tag % 32 = 31 ∨ body.length < length then none
      else some (⟨tag, body.take length⟩, body.drop length)

theorem length_of_length? {bytes rest : Bytes} {value : Nat}
    (read : length? bytes = some (value, rest)) : rest.length ≤ bytes.length := by
  cases bytes with
  | nil => simp [length?] at read
  | cons first more =>
    simp only [length?] at read
    split at read
    · simp only [Option.some.injEq, Prod.mk.injEq] at read
      simp [← read.2]
    · split at read
      · cases read
      · simp only [Option.some.injEq, Prod.mk.injEq] at read
        simp only [← read.2, List.length_drop, List.length_cons]
        omega

theorem length_of_next? {bytes rest : Bytes} {element : Element}
    (read : next? bytes = some (element, rest)) : rest.length < bytes.length := by
  cases bytes with
  | nil => simp [next?] at read
  | cons tag more =>
    simp only [next?] at read
    split at read
    · cases read
    · rename_i length body found
      have shorter := length_of_length? found
      split at read
      · cases read
      · cases read; simp; omega

def elements? (bytes : Bytes) : Option (List Element) :=
  if bytes.isEmpty then some []
  else
    match _read : next? bytes with
    | none => none
    | some (element, rest) => (elements? rest).map (element :: ·)
termination_by bytes.length
decreasing_by exact length_of_next? _read

/-- The content of the one element, with that tag, that some bytes are. -/
def only? (tag : UInt8) (bytes : Bytes) : Option Bytes :=
  match next? bytes with
  | some (element, []) => if element.tag = tag then some element.content else none
  | _ => none

def sequence? (bytes : Bytes) : Option (List Element) :=
  (only? sequenceTag bytes).bind elements?

namespace Element

/-- The number that an integer is, if it is not negative. There is no needless zero in
front of it. -/
def natural? (element : Element) : Option Nat :=
  if element.tag = integerTag then
    match element.content with
    | [] => none
    | [byte] => if byte < 128 then some byte.toNat else none
    | first :: second :: rest =>
      if first < 128 ∧ (first ≠ 0 ∨ 128 ≤ second) then
        some (Octets.number (first :: second :: rest))
      else none
  else none

end Element

/-- The bytes in the content of a bit string. The byte in front of them tells how many
bits of the last one do not count, of which there must be none. -/
def bits? (content : Bytes) : Option Bytes :=
  match content with
  | 0 :: bits => some bits
  | _ => none

/-! ## Writing -/

def lengthBytes (length : Nat) : Bytes :=
  let digits := Octets.digits length
  if length < 128 then digits else UInt8.ofNat (128 + digits.length) :: digits

def write (tag : UInt8) (content : Bytes) : Bytes :=
  tag :: lengthBytes content.length ++ content

/-- The written form of a natural number. A zero in front keeps it from being read as
a negative one. -/
def writeNatural (value : Nat) : Bytes :=
  let digits := Octets.digits value
  write integerTag (if digits.head?.any (128 ≤ ·) then 0 :: digits else digits)

end WebClient.Der
