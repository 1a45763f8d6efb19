import WebClient.Identity.Der
import WebClient.Identity.Group

/-!
# Elliptic curves

The points of a curve `y² = x³ + a x + b` over a prime field form a group: three
points on one line add up to nothing. A secret number gives a public point, the
multiple of a fixed point by that number.
-/

set_option autoImplicit false

namespace WebClient

/-- A curve, as far as it matters for points that are known to lie on it. -/
structure Curve where
  prime : Nat
  /-- The `a` of the equation. -/
  linear : Fin prime
  base : Fin prime × Fin prime
  /-- How many multiples there are. -/
  order : Nat
  size : Nat
  name : Bytes

namespace Curve

def p256 : Curve where
  prime := 0xffffffff00000001000000000000000000000000ffffffffffffffffffffffff
  linear := -3
  base :=
    (0x6b17d1f2e12c4247f8bce6e563a440f277037d812deb33a0f4a13945d898c296,
      0x4fe342e2fe1a7f9b8ee7eb4a7c0f9e162bce33576b315ececbb6406837bf51f5)
  order := 0xffffffff00000000ffffffffffffffffbce6faada7179e84f3b9cac2fc632551
  size := 32
  name := Der.write Der.nameTag [0x2A, 0x86, 0x48, 0xCE, 0x3D, 0x03, 0x01, 0x07]

abbrev prime384 : Nat :=
  0xfffffffffffffffffffffffffffffffffffffffffffffffffffffffffffffffeffffffff0000000000000000ffffffff

def p384 : Curve where
  prime := prime384
  linear := -3
  base :=
    (.ofNat prime384 (0xaa87ca22be8b05378eb1c71ef320ad746e1d3b628ba79b98 <<< 192
        + 0x59f741e082542a385502f25dbf55296c3a545e3872760ab7),
      .ofNat prime384 (0x3617de4a96262c6f5d9e98bf9292dc29f8f41dbd289a147c <<< 192
        + 0xe9da3113b5f0b8c00a60b1ce1d7e819d7a431d7c90ea0e5f))
  order :=
    0xffffffffffffffffffffffffffffffffffffffffffffffff <<< 192
      + 0xc7634d81f4372ddf581a0db248b0a77aecec196accc52973
  size := 48
  name := Der.write Der.nameTag [0x2B, 0x81, 0x04, 0x00, 0x22]

/-- A point, or nothing, which is what opposite points add up to. -/
abbrev Point (curve : Curve) := Option (Fin curve.prime × Fin curve.prime)

/-- The sum of two points: the opposite of the third point on their line. The line of
a point with itself is the tangent. -/
def add (curve : Curve) : Point curve → Point curve → Point curve
  | none, other => other
  | point, none => point
  | some (x₁, y₁), some (x₂, y₂) =>
    let meet (slope : Fin curve.prime) : Point curve :=
      let x := slope * slope - x₁ - x₂
      some (x, slope * (x₁ - x) - y₁)
    if x₁ ≠ x₂ then meet ((y₂ - y₁) * inverse (x₂ - x₁))
    else if y₁ = y₂ ∧ y₁.val ≠ 0 then
      meet ((x₁ * x₁ + x₁ * x₁ + x₁ * x₁ + curve.linear) * inverse (y₁ + y₁))
    else none

def write (curve : Curve) (point : Fin curve.prime × Fin curve.prime) : Bytes :=
  4 :: Octets.fixed curve.size point.1 ++ Octets.fixed curve.size point.2

/-- The public point for a secret number, in writing. The number has all its bytes, is
not zero, and is less than the number of multiples. -/
def public? (curve : Curve) (secret : Bytes) : Option Bytes :=
  let number := Octets.number secret
  if secret.length = curve.size ∧ 0 < number ∧ number < curve.order then
    (repeated curve.add number (some curve.base)).map curve.write
  else none

end Curve

end WebClient
