import WebClient.Text

/-!
# Numbers as bytes

Numbers that are written byte by byte, the most significant byte first.
-/

set_option autoImplicit false

namespace WebClient.Octets

def number (bytes : Bytes) : Nat :=
  bytes.foldl (fun value byte => 256 * value + byte.toNat) 0

/-- The bytes of a number, without zeros in front. Zero has one byte. -/
def digits (value : Nat) : Bytes :=
  if value < 256 then [UInt8.ofNat value] else digits (value / 256) ++ [UInt8.ofNat value]

def fixed : Nat → Nat → Bytes
  | 0, _ => []
  | size + 1, value => fixed size (value / 256) ++ [UInt8.ofNat value]

end WebClient.Octets
