import WebClient.Identity.Group
import WebClient.Identity.Sha512

/-!
# Ed25519

The public half of a key is a multiple of a fixed point on the curve
`y² - x² = 1 + d x² y²`. The number of copies comes from a digest of the secret.
-/

set_option autoImplicit false

namespace WebClient.Ed25519

abbrev Field :=
  Fin 0x7fffffffffffffffffffffffffffffffffffffffffffffffffffffffffffffed

/-- The `d` of the equation. -/
def coefficient : Field :=
  -121665 * inverse 121666

abbrev Point := Field × Field

def base : Point :=
  (0x216936d3cd6e53fec0a4e231fdd6dc5c692cc7609525a7b2c9562d608f25d51a,
    0x6666666666666666666666666666666666666666666666666666666666666658)

def add (first second : Point) : Point :=
  let (x₁, y₁) := first
  let (x₂, y₂) := second
  let product := coefficient * (x₁ * x₂) * (y₁ * y₂)
  ((x₁ * y₂ + x₂ * y₁) * inverse (1 + product), (y₁ * y₂ + x₁ * x₂) * inverse (1 - product))

/-- How many copies a secret stands for: a multiple of eight with 255 bits. -/
def copies (secret : Bytes) : Nat :=
  let number := Octets.number ((Sha512.digest secret).take 32).reverse
  (1 <<< 254) + number % (1 <<< 254) / 8 * 8

/-- A point in writing: its second coordinate, the least significant byte first, with
the parity of the first one in the bit that is left. -/
def write (point : Point) : Bytes :=
  (Octets.fixed 32 ((point.1.val % 2) <<< 255 + point.2.val)).reverse

def public? (secret : Bytes) : Option Bytes :=
  if secret.length = 32 then some (write (repeated add (copies secret) base)) else none

end WebClient.Ed25519
