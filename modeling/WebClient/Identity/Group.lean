/-!
# Repeated combination

Powers of a number, and multiples of a point on a curve, are many copies of one
thing put together. By going through the bits of the count this takes few steps.
-/

set_option autoImplicit false

namespace WebClient

/-- So many copies of an element, but at least one, put together by an operation for
which it does not matter how they are grouped. -/
def repeated {α : Type} (combine : α → α → α) (count : Nat) (element : α) : α :=
  if count ≤ 1 then element
  else
    let others := repeated combine (count / 2) (combine element element)
    if count % 2 = 1 then combine element others else others
termination_by count
decreasing_by omega

/-- The inverse of a residue by a prime number, which is a power of it. -/
def inverse {prime : Nat} (value : Fin prime) : Fin prime :=
  repeated (· * ·) (prime - 2) value

end WebClient
