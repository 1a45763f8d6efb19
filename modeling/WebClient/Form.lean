import WebClient.Text.Cut

/-!
# Form parameters

Parameters are written as `name=value` joined by `&`. In both parts ASCII
letters, digits and `- _ . *` stand for themselves, a space is written `+`, and
every other UTF-8 byte is a percent sign with two capital hexadecimal digits.
-/

set_option autoImplicit false

namespace WebClient.Form

abbrev Params := List (Text × Text)

/-- A byte that stands for itself. -/
def isPlain (byte : UInt8) : Bool :=
  let c := Char.ofNat byte.toNat
  c.isAlphanum || c == '-' || c == '_' || c == '.' || c == '*'

def hexDigit (value : Nat) : Char :=
  if value < 10 then Char.ofNat (48 + value) else Char.ofNat (55 + value)

def encodeByte (byte : UInt8) : Text :=
  if isPlain byte then [Char.ofNat byte.toNat]
  else if byte = 0x20 then ['+']
  else ['%', hexDigit (byte.toNat / 16), hexDigit (byte.toNat % 16)]

def encodeComponent (text : Text) : Text :=
  (Text.utf8 text).flatMap encodeByte

def encode (params : Params) : Text :=
  List.intercalate ['&'] <| params.map fun (name, value) =>
    encodeComponent name ++ '=' :: encodeComponent value

/-- A URL with a query added, after `&` if it already has one. -/
def appendQuery (url query : Text) : Text :=
  if query.isEmpty then url
  else if '?' ∈ url then url ++ '&' :: query
  else url ++ '?' :: query

/-- The parameters written in a text, taken as they stand. Empty pieces count
for nothing; a piece without `=` is a name with an empty value. -/
def split (raw : Text) : Params :=
  ((raw.splitOn '&').filter fun piece => !piece.isEmpty).map fun piece =>
    match Text.cutFirst? '=' piece with
    | some pair => pair
    | none => (piece, [])

end WebClient.Form
