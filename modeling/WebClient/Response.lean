import WebClient.Fields
import WebClient.Request
import WebClient.Status

/-!
# Responses

A response is a head, with the place it refers elsewhere to, and a body that was
kept as text, counted into a sink, or not read at all.
-/

set_option autoImplicit false

namespace WebClient

structure Head where
  statusLine : Text
  /-- The code of the status line, zero if it has none. -/
  code : Nat
  fields : Fields
  continuation : List Text
  deriving DecidableEq, Repr

/-- What became of the body. -/
inductive Content
  | unread
  | text (text : Text)
  | copied (count : Nat)
  deriving DecidableEq, Repr

structure Response where
  code : Nat
  statusLine : Text
  fields : Fields
  content : Content
  isTruncated : Bool
  deriving DecidableEq, Repr

namespace Response

def ofHead (head : Head) : Response :=
  ⟨head.code, head.statusLine, head.fields, .unread, false⟩

def headless : Response :=
  ⟨0, [], [], .unread, false⟩

def status (response : Response) : Status :=
  .ofCode response.code

/-- Where the response refers to: the first `Location`, if the code asks for
another place. -/
def location? (response : Response) : Option Text :=
  if Status.isElsewhere response.code then response.fields.get? "location".toList else none

def text (response : Response) : Text :=
  match response.content with
  | .text text => text
  | _ => []

def copied (response : Response) : Nat :=
  match response.content with
  | .copied count => count
  | _ => 0

end Response

/-- How the end of a body is known. -/
inductive Extent
  | untilClose
  | length (count : Nat)
  deriving DecidableEq, Repr

namespace Extent

def declared? (value : Text) : Option Nat :=
  Text.decimal? Text.max64 (Text.trim value)

def isBodiless (method : Method) (code : Nat) : Bool :=
  method == .head || code == 204 || code == 304

/-- The extent of the body that answers a method. A declared length that is no
number is ignored. -/
def select (method : Method) (code : Nat) (fields : Fields) : Extent :=
  if method = .shortGet then untilClose
  else if isBodiless method code then length 0
  else match (fields.get? "content-length".toList).bind declared? with
    | some count => length count
    | none => untilClose

def reports (method : Method) (code : Nat) (fields : Fields) : Journal :=
  if method = .shortGet ∨ isBodiless method code then []
  else match fields.get? "content-length".toList with
    | some value => if (declared? value).isNone then [.warning] else []
    | none => []

end Extent

end WebClient
