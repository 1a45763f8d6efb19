import WebClient.Request
import WebClient.Text.Blank
import WebClient.Text.Fold

/-!
# Configuration

Everything the client lets its user choose, with the defaults, and how a set of
named options changes them. An option whose value makes no sense is ignored.
-/

set_option autoImplicit false

namespace WebClient

/-- Which server certificates are accepted. -/
inductive Trust
  | everyone
  | knownRoots
  deriving DecidableEq, Repr

def Trust.name : Trust → Text
  | .everyone => "insecure-trust-all".toList
  | .knownRoots => "webpki".toList

/-- A proxy. It is asked for whole URLs, or to open a tunnel for `https`. -/
structure Proxy where
  host : Text
  port : UInt16
  deriving DecidableEq, Repr

structure IdentityFiles where
  certificate : Text
  key : Text
  deriving DecidableEq, Repr

structure Config where
  /-- The limit of connecting, of asking for a tunnel, of the handshake and of every read, in
  milliseconds; zero for none. -/
  timeout : Nat
  recursionLimit : Nat
  autoRedirect : Bool
  loadFrames : Bool
  allowCookies : Bool
  allowForeignCookies : Bool
  lineEnding : LineEnding
  keepAlive : Bool
  userAgent : Text
  accept : Text
  contentType : Text
  sendReferer : Bool
  sendUserAgent : Bool
  sendHost : Bool
  sendAccept : Bool
  sendContentType : Bool
  proxy : Option Proxy
  basicAuth : Option (Text × Text)
  identity : Option IdentityFiles
  trust : Trust
  /-- The longest text, in UTF-8 bytes, that is searched for refresh tags and frames. -/
  scanLimit : Nat
  extraFields : List (Text × Text)
  deriving DecidableEq, Repr

namespace Config

def initial : Config where
  timeout := 30000
  recursionLimit := 5
  autoRedirect := true
  loadFrames := true
  allowCookies := true
  allowForeignCookies := false
  lineEnding := .crlf
  keepAlive := false
  userAgent := "Sonda/0.1.0".toList
  accept := "*/*".toList
  contentType := "application/x-www-form-urlencoded".toList
  sendReferer := true
  sendUserAgent := true
  sendHost := true
  sendAccept := true
  sendContentType := true
  proxy := none
  basicAuth := none
  identity := none
  trust := .everyone
  scanLimit := 65536
  extraFields := []

/-- Named options. Of several with one name the last counts. -/
abbrev Options := List (Text × Text)

def option? (options : Options) (name : String) : Option Text :=
  (options.reverse.find? fun (key, _) => key == name.toList).map Prod.snd

def number? (options : Options) (bound : Nat) (name : String) : Option Nat :=
  (option? options name).bind fun value => Text.decimal? bound (Text.trim value)

def switch? (value : Text) : Option Bool :=
  let word := Text.lower (Text.trim value)
  if word ∈ ["true".toList, "yes".toList, "on".toList, "1".toList] then some true
  else if word ∈ ["false".toList, "no".toList, "off".toList, "0".toList] then some false
  else none

def flag? (options : Options) (name : String) : Option Bool :=
  (option? options name).bind switch?

def lineEnding? (value : Text) : Option LineEnding :=
  let word := Text.lower (Text.trim value)
  if word = "crlf".toList then some .crlf
  else if word = "lf".toList then some .lf
  else none

def proxy? (options : Options) : Option Proxy := do
  let host ← option? options "http.proxyhost"
  let port ← number? options Text.max16 "http.proxyport"
  return ⟨host, UInt16.ofNat port⟩

/-- The files of the client identity, for which both are needed. -/
def identity? (options : Options) : Option IdentityFiles := do
  let certificate ← option? options "http.certfile"
  let key ← option? options "http.keyfile"
  return ⟨certificate, key⟩

def ofOptions (options : Options) : Config :=
  { initial with
    timeout := (number? options Text.max64 "http.timeout").getD initial.timeout
    recursionLimit :=
      (number? options Text.max32 "http.recursionlimit").getD initial.recursionLimit
    autoRedirect := (flag? options "http.autoredirect").getD initial.autoRedirect
    loadFrames := (flag? options "http.loadframes").getD initial.loadFrames
    allowCookies := (flag? options "http.allowcookies").getD initial.allowCookies
    allowForeignCookies :=
      (flag? options "http.allowforeigncookies").getD initial.allowForeignCookies
    keepAlive := (flag? options "http.keepalive").getD initial.keepAlive
    userAgent := (option? options "http.useragent").getD initial.userAgent
    accept := (option? options "http.accept").getD initial.accept
    contentType := (option? options "http.contenttype").getD initial.contentType
    lineEnding := ((option? options "http.lineending").bind lineEnding?).getD initial.lineEnding
    proxy := proxy? options
    identity := identity? options
    scanLimit := (number? options Text.max64 "http.metascanlimit").getD initial.scanLimit }

end Config

end WebClient
