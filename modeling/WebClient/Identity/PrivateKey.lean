import WebClient.Identity.Curve
import WebClient.Identity.Ed25519
import WebClient.Identity.Pem
import WebClient.Identity.Rsa

/-!
# Private keys

A private key is written on its own, if the section that holds it says of which kind
it is, or wrapped together with the name of its kind. RSA keys, keys on the curves
P-256 and P-384 and Ed25519 keys are known. Of each the public half can be had, in
the form in which a certificate states it.
-/

set_option autoImplicit false

namespace WebClient.PrivateKey

def rsa : Bytes :=
  Der.write Der.nameTag [0x2A, 0x86, 0x48, 0x86, 0xF7, 0x0D, 0x01, 0x01, 0x01] ++ [0x05, 0x00]

def onCurve (curve : Curve) : Bytes :=
  Der.write Der.nameTag [0x2A, 0x86, 0x48, 0xCE, 0x3D, 0x02, 0x01] ++ curve.name

def ed25519 : Bytes :=
  Der.write Der.nameTag [0x2B, 0x65, 0x70]

/-- A public key as a certificate states it: how it is announced, and its bits. -/
def publicKey (announced bits : Bytes) : Bytes :=
  Der.write Der.sequenceTag
    (Der.write Der.sequenceTag announced ++ Der.write Der.bitsTag (0 :: bits))

/-- A private key wrapped together with what announces its kind. -/
structure Wrapped where
  version : Nat
  announced : Bytes
  secret : Bytes
  trailer : List Der.Element

/-- Takes a wrapped key apart. A part with attributes is passed over. -/
def unwrap? (key : Bytes) : Option Wrapped :=
  match Der.sequence? key with
  | some (version :: announced :: secret :: trailer) =>
    let trailer := match trailer with
      | part :: rest => if part.tag = Der.partTag 0 then rest else trailer
      | [] => []
    if announced.tag = Der.sequenceTag ∧ secret.tag = Der.bytesTag then
      version.natural?.map fun version => ⟨version, announced.content, secret.content, trailer⟩
    else none
  | _ => none

def secret? (announced : Bytes) (wrapped : Wrapped) : Option Bytes :=
  if wrapped.version = 0 ∧ wrapped.announced = announced ∧ wrapped.trailer = [] then
    some wrapped.secret
  else none

def rsaPublic? (key : Bytes) : Option Bytes :=
  (Rsa.public? key).map (publicKey rsa)

def heldBits? : List Der.Element → Option Bytes
  | [part] =>
    if part.tag = Der.partTag 1 then
      (Der.only? Der.bitsTag part.content).bind Der.bits?
    else none
  | _ => none

/-- The public half of a key on a curve. It stands behind the secret number, and has
to be the one that belongs to it. In between the curve may be named again. -/
def curvePublic? (curve : Curve) (key : Bytes) : Option Bytes :=
  match Der.sequence? key with
  | some (version :: secret :: rest) =>
    let parts := match rest with
      | part :: others => if part = ⟨Der.partTag 0, curve.name⟩ then others else rest
      | [] => []
    if version.natural? = some 1 ∧ secret.tag = Der.bytesTag then
      match curve.public? secret.content, heldBits? parts with
      | some half, some stated =>
        if half = stated then some (publicKey (onCurve curve) half) else none
      | _, _ => none
    else none
  | _ => none

/-- The public half that stands behind the secret of an Ed25519 key. It is held either
by the part itself or by a bit string in it. -/
def statedHalf? (trailer : List Der.Element) : Option Bytes :=
  match trailer with
  | [part] =>
    if part.tag = Der.plainPartTag 1 then Der.bits? part.content else heldBits? trailer
  | _ => none

/-- The public half of a wrapped Ed25519 key. The second version of the wrapping has
the public half behind the secret, and it has to be the one that belongs to it. -/
def ed25519Public? (wrapped : Wrapped) : Option Bytes :=
  if wrapped.announced = ed25519 then
    match (Der.only? Der.bytesTag wrapped.secret).bind Ed25519.public? with
    | none => none
    | some half =>
      if (wrapped.version = 0 ∧ wrapped.trailer = [])
          ∨ (wrapped.version = 1 ∧ statedHalf? wrapped.trailer = some half) then
        some (publicKey ed25519 half)
      else none
  else none

def wrappedPublic? (key : Bytes) : Option Bytes :=
  match unwrap? key with
  | none => none
  | some wrapped =>
    (secret? rsa wrapped).bind rsaPublic?
      <|> (secret? (onCurve .p256) wrapped).bind (curvePublic? .p256)
      <|> (secret? (onCurve .p384) wrapped).bind (curvePublic? .p384)
      <|> ed25519Public? wrapped

def public? (armoured : Pem.Section) : Option Bytes :=
  match armoured.kind with
  | .pkcs1Key => rsaPublic? armoured.content
  | .sec1Key => curvePublic? .p256 armoured.content <|> curvePublic? .p384 armoured.content
  | .pkcs8Key => wrappedPublic? armoured.content
  | _ => none

end WebClient.PrivateKey
