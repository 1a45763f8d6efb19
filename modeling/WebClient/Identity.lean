import WebClient.Config
import WebClient.Files
import WebClient.Identity.Certificate
import WebClient.Identity.PrivateKey

/-!
# Client identities

A client may show a certificate of its own when a secure channel is made. The
certificate and its key come from two files of armoured sections, and the key has
to be the one that the certificate is for.
-/

set_option autoImplicit false

namespace WebClient

/-- A certificate chain, the client's own certificate first, and its private key. -/
structure Identity where
  chain : List Bytes
  key : Pem.Section
  deriving DecidableEq, Repr

namespace Identity

def agrees (identity : Identity) : Bool :=
  match identity.chain.head?.bind Certificate.key?, PrivateKey.public? identity.key with
  | some certified, some half => certified == half
  | _, _ => false

def certificates? (items : List Pem.Item) : Option (List Bytes) :=
  if items.contains .broken then none
  else some <| items.filterMap fun
    | .found found => if found.kind = .certificate then some found.content else none
    | .broken => none

/-- The first private key of a file. There is none behind a breach of the form. -/
def key? : List Pem.Item → Option Pem.Section
  | [] => none
  | .broken :: _ => none
  | .found found :: rest =>
    match found.kind with
    | .pkcs1Key | .pkcs8Key | .sec1Key => some found
    | _ => key? rest

/-- The certificates at a path. A directory is there to be read, but has no form. -/
def loadChain (files : Files) (path : Text) : Except SecurityFault (List Bytes) :=
  match files.find path with
  | .error _ => .error (.unreadableCertificate path)
  | .ok .directory => .error (.unparsableCertificate path)
  | .ok (.file content) =>
    match certificates? (Pem.read content) with
    | none => .error (.unparsableCertificate path)
    | some [] => .error (.noCertificate path)
    | some chain => .ok chain

/-- The identity in a pair of files. The certificate is looked at first. -/
def load (files : Files) (paths : IdentityFiles) : Except SecurityFault Identity :=
  match loadChain files paths.certificate with
  | .error fault => .error fault
  | .ok chain =>
    match (files.content? paths.key).bind fun content => key? (Pem.read content) with
    | none => .error (.unreadableKey paths.key)
    | some key =>
      let identity : Identity := ⟨chain, key⟩
      if identity.agrees then .ok identity else .error .identityRejected

end Identity

end WebClient
