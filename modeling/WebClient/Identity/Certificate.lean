import WebClient.Identity.Der

/-!
# Certificates

A certificate states a public key, among other things. To be taken at all it has to
be of the third version, to name twice in the same way how it is signed, and to
have no extension that is critical and not known. What its parts say besides the
key is not looked at.
-/

set_option autoImplicit false

namespace WebClient.Certificate

structure Extension where
  name : Bytes
  isCritical : Bool
  value : Bytes
  deriving DecidableEq, Repr

/-- An extension: its name, whether it is critical, and its value. -/
def extension? (element : Der.Element) : Option Extension :=
  if element.tag = Der.sequenceTag then
    match Der.elements? element.content with
    | some [name, value] =>
      if name.tag = Der.nameTag ∧ value.tag = Der.bytesTag then
        some ⟨name.content, false, value.content⟩
      else none
    | some [name, critical, value] =>
      if name.tag = Der.nameTag ∧ critical.tag = Der.booleanTag ∧ value.tag = Der.bytesTag then
        match critical.content with
        | [0xFF] => some ⟨name.content, true, value.content⟩
        | [0x00] => some ⟨name.content, false, value.content⟩
        | _ => none
      else none
    | _ => none
  else none

namespace Extension

/-- The names of the extensions that are known and have a sequence as value: other
names of the subject, basic constraints, constraints on names, where revocations are
published, and purposes of the key. -/
def sequences : List Bytes :=
  [[0x55, 0x1D, 0x11], [0x55, 0x1D, 0x13], [0x55, 0x1D, 0x1E], [0x55, 0x1D, 0x1F],
    [0x55, 0x1D, 0x25]]

def usage : Bytes :=
  [0x55, 0x1D, 0x0F]

def isKnown (extension : Extension) : Bool :=
  extension.name == usage || sequences.contains extension.name

/-- Whether the extension can be taken: it is known and its value has the right form,
or it may be passed over. -/
def isAcceptable (extension : Extension) : Bool :=
  if sequences.contains extension.name then
    (Der.only? Der.sequenceTag extension.value).isSome
  else extension.name == usage || !extension.isCritical

end Extension

/-- Whether extensions can be taken together. None of those that are known comes
twice. -/
def areAcceptable (extensions : List Extension) : Bool :=
  let known := (extensions.filter Extension.isKnown).map Extension.name
  extensions.all Extension.isAcceptable && known.eraseDups.length == known.length

def isTrailer : List Der.Element → Bool
  | [] => true
  | [part] =>
    part.tag == Der.partTag 3
      && ((Der.sequence? part.content).bind fun extensions =>
        extensions.mapM extension?).any areAcceptable
  | _ => false

def thirdVersion : Bytes :=
  Der.writeNatural 2

def signedKey? (signedPart : List Der.Element) (signedWith : Der.Element) : Option Bytes :=
  match signedPart with
  | version :: serial :: signing :: issuer :: validity :: subject :: key :: trailer =>
    if version = ⟨Der.partTag 0, thirdVersion⟩ ∧ serial.tag = Der.integerTag
        ∧ signing = signedWith
        ∧ (∀ part ∈ [issuer, validity, subject, key], part.tag = Der.sequenceTag)
        ∧ isTrailer trailer then
      some (Der.write key.tag key.content)
    else none
  | _ => none

def sizeLimit : Nat := 65534

def key? (certificate : Bytes) : Option Bytes :=
  match Der.only? Der.sequenceTag certificate with
  | none => none
  | some content =>
    match Der.elements? content with
    | some [signedPart, signedWith, signature] =>
      if content.length ≤ sizeLimit ∧ signedPart.tag = Der.sequenceTag
          ∧ signedWith.tag = Der.sequenceTag ∧ signature.tag = Der.bitsTag
          ∧ (Der.bits? signature.content).isSome then
        (Der.elements? signedPart.content).bind fun parts => signedKey? parts signedWith
      else none
    | _ => none

end WebClient.Certificate
