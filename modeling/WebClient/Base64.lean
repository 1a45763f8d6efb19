import WebClient.Text

/-!
# Base64

Three bytes are written as four characters, six bits each; a group of fewer bytes
is filled up with `=`. Reading is more generous than writing: it passes over blanks
and line ends, does without some or all of the `=` at the end, and leaves bits that
belong to no byte aside.
-/

set_option autoImplicit false

namespace WebClient.Base64

def alphabet : Text :=
  "ABCDEFGHIJKLMNOPQRSTUVWXYZabcdefghijklmnopqrstuvwxyz0123456789+/".toList

def digit (value : Nat) : Char :=
  alphabet.getD (value % 64) '='

def encode : Bytes → Text
  | [] => []
  | [a] => [digit (a.toNat / 4), digit (a.toNat * 16), '=', '=']
  | [a, b] =>
    [digit (a.toNat / 4), digit (a.toNat * 16 + b.toNat / 16), digit (b.toNat * 4), '=']
  | a :: b :: c :: rest =>
    digit (a.toNat / 4) :: digit (a.toNat * 16 + b.toNat / 16) ::
      digit (b.toNat * 4 + c.toNat / 64) :: digit c.toNat :: encode rest

def value? (c : Char) : Option Nat :=
  alphabet.findIdx? (· == c)

def isIgnored (c : Char) : Bool :=
  c == ' ' || ('\t' ≤ c && c ≤ '\r')

/-- The bytes of groups of four times six bits, the last of which may be shorter. One
six alone makes no byte. -/
def bytes? : List Nat → Option Bytes
  | [] => some []
  | [_] => none
  | [a, b] => some [UInt8.ofNat (a * 4 + b / 16)]
  | [a, b, c] => some [UInt8.ofNat (a * 4 + b / 16), UInt8.ofNat (b * 16 + c / 4)]
  | a :: b :: c :: d :: rest =>
    (bytes? rest).map fun bytes =>
      UInt8.ofNat (a * 4 + b / 16) :: UInt8.ofNat (b * 16 + c / 4) ::
        UInt8.ofNat (c * 64 + d) :: bytes

/-- Whether so many `=` may follow so many characters that are none. Characters are
read in eights, and only the last eight may be filled up. -/
def isFilled (characters marks : Nat) : Bool :=
  marks ≤ (8 - characters % 8) % 8

def decode? (text : Text) : Option Bytes :=
  let text := text.filter fun c => !isIgnored c
  let data := text.takeWhile (· != '=')
  let marks := text.dropWhile (· != '=')
  if marks.all (· == '=') && isFilled data.length marks.length then
    (data.mapM value?).bind bytes?
  else none

end WebClient.Base64
