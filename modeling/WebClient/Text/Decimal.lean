import WebClient.Text

/-!
# Unsigned decimal numbers

A number is written as an optional single `+` and one or more ASCII digits.
Reading one is always bounded: a number above the bound is refused, never
clipped or wrapped.
-/

set_option autoImplicit false

namespace WebClient.Text

def digitsValue (digits : Text) : Nat :=
  digits.foldl (fun value digit => 10 * value + (digit.toNat - 48)) 0

def dropPlus : Text → Text
  | '+' :: rest => rest
  | text => text

/-- The number written by the whole text, if it is at most `bound`. -/
def decimal? (bound : Nat) (text : Text) : Option Nat :=
  let digits := dropPlus text
  if digits.isEmpty || !digits.all Char.isDigit then none
  else
    let value := digitsValue digits
    if value ≤ bound then some value else none

def ofNat (value : Nat) : Text :=
  Nat.toDigits 10 value

def max16 : Nat := 0xFFFF

def max32 : Nat := 0xFFFFFFFF

def max64 : Nat := 0xFFFFFFFFFFFFFFFF

end WebClient.Text
