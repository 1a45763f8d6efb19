import WebClient.Base64
import WebClient.Text.Cut

/-!
# Armoured sections

A file of armoured sections is read line by line. A section opens with a line
`-----BEGIN label-----`, holds Base64, and is closed by a line that starts with
`-----END label-----`. Lines outside sections count for nothing. Sections of a
kind that is not known are passed over, also when their content is no Base64.
-/

set_option autoImplicit false

namespace WebClient.Pem

inductive Kind
  | certificate
  | publicKey
  | pkcs1Key
  | pkcs8Key
  | sec1Key
  | revocationList
  | signingRequest
  | helloConfig
  deriving DecidableEq, Repr

def Kind.ofLabel? (label : Text) : Option Kind :=
  (List.find? (fun entry => entry.1.toList == label) [
    ("CERTIFICATE", Kind.certificate), ("PUBLIC KEY", .publicKey),
    ("RSA PRIVATE KEY", .pkcs1Key), ("PRIVATE KEY", .pkcs8Key), ("EC PRIVATE KEY", .sec1Key),
    ("X509 CRL", .revocationList), ("CERTIFICATE REQUEST", .signingRequest),
    ("ECHCONFIG", .helloConfig)]).map Prod.snd

structure Section where
  kind : Kind
  content : Bytes
  deriving DecidableEq, Repr

/-- What the lines of a file amount to, one after the other: sections, and breaches
of the form. Nothing more is read after a breach. -/
inductive Item
  | found (found : Section)
  | broken
  deriving DecidableEq, Repr

/-- Lines, each of them ended by a line feed or a carriage return. -/
def lines (text : Text) : List Text :=
  text.splitOnP fun c => c == '\n' || c == '\r'

inductive Line
  | opening (label : Text)
  | malformed
  | other
  deriving DecidableEq, Repr

/-- What a line is. One that opens a section ends with exactly five hyphens, among
which and after which there may be spaces; the label is what stands before them. -/
def classify (line : Text) : Line :=
  match "-----BEGIN ".toList.isPrefixOf? line with
  | none => .other
  | some rest =>
    let closing := (rest.reverse.takeWhile fun c => c == '-' || c == ' ').reverse
    let hyphens := closing.dropWhile (· == ' ')
    if hyphens.count '-' = 5 then .opening (rest.take (rest.length - hyphens.length))
    else .malformed

def closes (label line : Text) : Bool :=
  ("-----END ".toList ++ label ++ "-----".toList).isPrefixOf line

/-- Reads lines inside the section of a label, whose content so far is given, or
outside any section. -/
def items (label : Option Text) (content : Text) : List Text → List Item
  | [] => if label.isSome then [.broken] else []
  | line :: rest =>
    match classify line, label with
    | .opening label, _ => items (some label) content rest
    | .malformed, _ => [.broken]
    | .other, none => items none content rest
    | .other, some name =>
      if closes name line then
        match Kind.ofLabel? name, Base64.decode? content with
        | none, _ => items none [] rest
        | some kind, some bytes => .found ⟨kind, bytes⟩ :: items none [] rest
        | some _, none => [.broken]
      else items label (content ++ line) rest

def read (file : Bytes) : List Item :=
  items none [] (lines (Text.latin1 file))

end WebClient.Pem
