import WebClient.Text.Decimal

/-!
# Why a request failed

A failure is recorded by its cause; `Failure.message` is the one place where
causes get their wording. `Level` grades what the client reports about its own
work, from routine detail to outright failure.
-/

set_option autoImplicit false

namespace WebClient

inductive Level
  | detail
  | notice
  | warning
  | error
  deriving DecidableEq, Repr

/-- The reports made so far, in order. Only their levels are kept. -/
abbrev Journal := List Level

/-- A fault of a channel or file that is not corruption. -/
inductive IoFault
  | connectionReset
  | closedWithoutNotice
  | notFound
  | notDirectory
  | isDirectory
  | nameTooLong
  | nulInName
  | sourceEnded (copied declared : Nat)
  | channelClosed (peer : Text)
  | reported (detail : Text)
  deriving DecidableEq, Repr

/-- Evidence that received bytes are not the bytes that were sent. -/
inductive Corruption
  | undecryptable
  | reported (detail : Text)
  deriving DecidableEq, Repr

inductive ReadFault
  | corrupt (cause : Corruption)
  | io (fault : IoFault)
  deriving DecidableEq, Repr

inductive ConnectFault
  | refused
  | unresolved
  | unusableName
  /-- The tunnel could not be asked for. -/
  | interrupted (fault : IoFault)
  deriving DecidableEq, Repr

/-- Why no secure channel was made. Paths and hosts are as configured or asked for. -/
inductive SecurityFault
  | handshakeFailed (host : Text)
  | handshakeTimedOut (host : Text)
  | invalidName (host : Text)
  | unreadableCertificate (path : Text)
  | unparsableCertificate (path : Text)
  | noCertificate (path : Text)
  | unreadableKey (path : Text)
  | identityRejected
  deriving DecidableEq, Repr

inductive Malformation
  | closedBeforeStatusLine
  | endedInsideContinue
  | bodyEnded (received declared : Nat)
  deriving DecidableEq, Repr

/-- Why one request, or one stage of it, failed. Times are in milliseconds. -/
inductive Failure
  | invalidUrl (url : Text)
  | connect (host : Text) (port : UInt16) (fault : ConnectFault)
  | security (fault : SecurityFault)
  | timeout (subject : Text) (limit : Nat)
  | malformed (cause : Malformation)
  | budgetSpent (url : Text) (limit : Nat)
  | corrupt (cause : Corruption)
  | io (fault : IoFault)
  deriving DecidableEq, Repr

def IoFault.message : IoFault → Text
  | .connectionReset => "Connection reset by peer (os error 104)".toList
  | .closedWithoutNotice => "peer closed without close_notify".toList
  | .notFound => "No such file or directory (os error 2)".toList
  | .notDirectory => "Not a directory (os error 20)".toList
  | .isDirectory => "Is a directory (os error 21)".toList
  | .nameTooLong => "File name too long (os error 36)".toList
  | .nulInName => "file name contained an unexpected NUL byte".toList
  | .sourceEnded copied declared =>
    "body source ended after ".toList ++ Text.ofNat copied ++ " of ".toList
      ++ Text.ofNat declared ++ " declared bytes".toList
  | .channelClosed peer => "connection to ".toList ++ peer ++ " is closed".toList
  | .reported detail => detail

def Corruption.message : Corruption → Text
  | .undecryptable => "cannot decrypt peer's message".toList
  | .reported detail => detail

def ConnectFault.message : ConnectFault → Text
  | .refused => "Connection refused (os error 111)".toList
  | .unresolved => "failed to lookup address information: Name or service not known".toList
  | .unusableName => IoFault.nulInName.message
  | .interrupted fault => fault.message

def SecurityFault.message : SecurityFault → Text
  | .handshakeFailed host => "handshake with ".toList ++ host ++ " failed".toList
  | .handshakeTimedOut host => "handshake with ".toList ++ host ++ " timed out".toList
  | .invalidName host => "invalid host name: ".toList ++ host
  | .unreadableCertificate path => "cannot read certificate ".toList ++ path
  | .unparsableCertificate path => "cannot parse certificate ".toList ++ path
  | .noCertificate path => "no certificate found in ".toList ++ path
  | .unreadableKey path => "cannot load private key ".toList ++ path
  | .identityRejected => "client certificate rejected".toList

def Malformation.message : Malformation → Text
  | .closedBeforeStatusLine => "connection closed before status line".toList
  | .endedInsideContinue => "stream ended inside 100 Continue block".toList
  | .bodyEnded received declared =>
    "body ended after ".toList ++ Text.ofNat received ++ " of ".toList
      ++ Text.ofNat declared ++ " declared bytes".toList

namespace Failure

def message : Failure → Text
  | invalidUrl url => "invalid URL: ".toList ++ url
  | connect host port fault =>
    "cannot connect to ".toList ++ host ++ ':' :: Text.ofNat port.toNat ++ ": ".toList
      ++ fault.message
  | security fault => "TLS: ".toList ++ fault.message
  | timeout subject limit =>
    "timed out after ".toList ++ Text.ofNat limit ++ " ms reading ".toList ++ subject
  | malformed cause => "malformed response: ".toList ++ cause.message
  | budgetSpent url limit =>
    "recursion limit ".toList ++ Text.ofNat limit ++ " reached, not fetching ".toList ++ url
  | corrupt cause => "response stream corrupted: ".toList ++ cause.message
  | io fault => fault.message

def ofReadFault : ReadFault → Failure
  | .corrupt cause => corrupt cause
  | .io fault => io fault

/-- Corruption is the one failure after which nothing received is kept. -/
def isCorrupt : Failure → Bool
  | corrupt _ => true
  | _ => false

def isTimeout : Failure → Bool
  | timeout .. => true
  | _ => false

def level : Failure → Level
  | connect .. | security _ | corrupt _ => .error
  | _ => .warning

end Failure

instance decidableEqExcept {ε α : Type} [DecidableEq ε] [DecidableEq α] :
    DecidableEq (Except ε α)
  | .ok left, .ok right => decidable_of_iff (left = right) (by simp)
  | .error left, .error right => decidable_of_iff (left = right) (by simp)
  | .ok _, .error _ => isFalse nofun
  | .error _, .ok _ => isFalse nofun

/-- Outside a response stream even corrupt data is an ordinary fault, told by its own words. -/
def ReadFault.asIoFault : ReadFault → IoFault
  | .corrupt cause => .reported cause.message
  | .io fault => fault

end WebClient
