import WebClient.Identity.Der

/-!
# RSA keys

A private RSA key consists of a modulus with a public and a private exponent, and of
the two primes of the modulus, with an exponent for each and the inverse of the
second by the first. A key is sound if these fit together as far as is easily
checked; whether the primes are primes is not asked.
-/

set_option autoImplicit false

namespace WebClient

structure Rsa where
  modulus : Nat
  publicExponent : Nat
  privateExponent : Nat
  first : Nat
  second : Nat
  firstExponent : Nat
  secondExponent : Nat
  inverse : Nat
  deriving DecidableEq, Repr

namespace Rsa

def bitLength (value : Nat) : Nat :=
  if value = 0 then 0 else value.log2 + 1

def isOdd (value : Nat) : Bool :=
  value % 2 == 1

/-- A modulus has 2048 bits, when its bits are rounded up to bytes, to 4096 bits. -/
def isModulus (value : Nat) : Bool :=
  isOdd value && 2048 ≤ (bitLength value + 7) / 8 * 8 && bitLength value ≤ 4096

/-- A public exponent is odd, from `2 ^ 16 + 1` on, and has at most 33 bits. -/
def isPublicExponent (value : Nat) : Bool :=
  isOdd value && 65537 ≤ value && bitLength value ≤ 33

def halfLength (key : Rsa) : Nat :=
  (bitLength key.modulus + 1) / 2

/-- A prime has half the bits of the modulus, and their number is a multiple of 512. -/
def isFactor (key : Rsa) (value : Nat) : Bool :=
  isOdd value && bitLength value == key.halfLength && key.halfLength % 512 == 0

def isExponentBy (prime value : Nat) : Bool :=
  isOdd value && value < prime

def isSound (key : Rsa) : Bool :=
  isModulus key.modulus && isPublicExponent key.publicExponent
    && key.isFactor key.first && key.isFactor key.second
    && key.first * key.second % key.modulus == 0
    && isOdd key.privateExponent && key.halfLength < bitLength key.privateExponent
    && key.privateExponent < key.modulus
    && key.inverse < key.first && key.inverse * key.second % key.first == 1
    && isExponentBy key.first key.firstExponent && isExponentBy key.second key.secondExponent

def read? (bytes : Bytes) : Option Rsa :=
  match (Der.sequence? bytes).bind fun elements => elements.mapM Der.Element.natural? with
  | some [0, modulus, publicExponent, privateExponent, first, second, firstExponent,
      secondExponent, inverse] =>
    some ⟨modulus, publicExponent, privateExponent, first, second, firstExponent,
      secondExponent, inverse⟩
  | _ => none

def public? (bytes : Bytes) : Option Bytes :=
  match read? bytes with
  | none => none
  | some key =>
    if key.isSound then
      some (Der.write Der.sequenceTag
        (Der.writeNatural key.modulus ++ Der.writeNatural key.publicExponent))
    else none

end Rsa

end WebClient
