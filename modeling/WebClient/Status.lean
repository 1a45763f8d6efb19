import WebClient.Text.Blank
import WebClient.Text.Decimal

/-!
# Status codes

The code of a response is the second word of its status line, if that is exactly
three ASCII digits. A few codes have a class of their own; all others are unknown.
-/

set_option autoImplicit false

namespace WebClient

inductive Status
  | ok
  | created
  | noContent
  | movedPermanently
  | found
  | badRequest
  | unauthorized
  | forbidden
  | notFound
  | serverError
  | unknown
  deriving DecidableEq, Repr

namespace Status

def ofCode (code : Nat) : Status :=
  match code with
  | 200 => ok
  | 201 => created
  | 204 => noContent
  | 301 => movedPermanently
  | 302 => found
  | 400 => badRequest
  | 401 => unauthorized
  | 403 => forbidden
  | 404 => notFound
  | code => if 500 ≤ code ∧ code ≤ 599 then serverError else unknown

def isRedirect : Status → Bool
  | movedPermanently | found => true
  | _ => false

def code? (line : Text) : Option Nat :=
  match (Text.words line)[1]? with
  | some word =>
    if word.length = 3 ∧ word.all Char.isDigit then some (Text.digitsValue word) else none
  | none => none

/-- Whether a code asks for another place to be looked at. -/
def isElsewhere (code : Nat) : Bool :=
  300 ≤ code && code < 400

end Status

end WebClient
