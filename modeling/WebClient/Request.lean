import WebClient.Feed

/-!
# Requests

A request has a method, the target as it is written on the request line, a fixed
set of optional fields, further fields in order, and a body. A body that comes
from a source has a length declared in advance.
-/

set_option autoImplicit false

namespace WebClient

/-- `shortGet` is a request line alone, without a version and without fields. -/
inductive Method
  | get
  | shortGet
  | post
  | head
  | put
  deriving DecidableEq, Repr

def Method.verb : Method → Text
  | .get | .shortGet => "GET".toList
  | .post => "POST".toList
  | .head => "HEAD".toList
  | .put => "PUT".toList

inductive Body
  | empty
  | bytes (bytes : Bytes)
  | source (feed : Feed) (length : Nat)
  deriving DecidableEq, Repr

namespace Body

def text (text : Text) : Body :=
  .bytes text.utf8

def length? : Body → Option Nat
  | empty => none
  | bytes data => some data.length
  | source _ length => some length

def isEmpty : Body → Bool
  | empty => true
  | _ => false

def describe : Body → Text
  | empty => "Empty".toList
  | bytes data => "Bytes(".toList ++ Text.ofNat data.length ++ " bytes)".toList
  | source _ length => "Stream(".toList ++ Text.ofNat length ++ " bytes)".toList

end Body

inductive LineEnding
  | crlf
  | lf
  deriving DecidableEq, Repr

def LineEnding.text : LineEnding → Text
  | .crlf => ['\r', '\n']
  | .lf => ['\n']

structure Request where
  method : Method
  /-- The path, or the whole URL when a proxy is asked. -/
  target : Text
  keepAlive : Bool
  referer : Option Text
  userAgent : Option Text
  host : Option Text
  accept : Option Text
  contentType : Option Text
  contentEncoding : Option Text
  authorization : Option Text
  extra : List (Text × Text)
  body : Body
  deriving DecidableEq, Repr

namespace Request

def plain (method : Method) (target : Text) : Request where
  method
  target
  keepAlive := false
  referer := none
  userAgent := none
  host := none
  accept := none
  contentType := none
  contentEncoding := none
  authorization := none
  extra := []
  body := .empty

def requestLine (request : Request) : Text :=
  match request.method with
  | .shortGet => request.method.verb ++ ' ' :: request.target
  | _ => request.method.verb ++ ' ' :: request.target ++ " HTTP/1.0".toList

def optional (name : String) (value : Option Text) : List (Text × Text) :=
  (value.map fun value => (name.toList, value)).toList

def fields (request : Request) : List (Text × Text) :=
  match request.method with
  | .shortGet => []
  | _ =>
    [("Connection".toList, if request.keepAlive then "Keep-Alive".toList else "close".toList)]
      ++ optional "Referer" request.referer
      ++ optional "User-Agent" request.userAgent
      ++ optional "Host" request.host
      ++ optional "Accept" request.accept
      ++ optional "Content-type" request.contentType
      ++ optional "Content-encoding" request.contentEncoding
      ++ optional "Authorization" (request.authorization.map ("Basic ".toList ++ ·))
      ++ request.extra
      ++ optional "Content-length" (request.body.length?.map Text.ofNat)

def headLines (request : Request) : List Text :=
  request.requestLine :: request.fields.map fun (name, value) => name ++ ": ".toList ++ value

def head (request : Request) (ending : LineEnding) : Bytes :=
  Text.utf8 ((request.headLines.flatMap fun line => line ++ ending.text) ++ ending.text)

end Request

end WebClient
