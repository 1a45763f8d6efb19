import WebClient.Base64
import WebClient.Config
import WebClient.Cookie.Jar
import WebClient.Multipart
import WebClient.Response
import WebClient.Target

/-!
# Sessions

A session is what the client keeps from one call to the next: its configuration,
the cookies, some counts, and how the last response and the last failure were.
From it follows the request that a call makes for a target.
-/

set_option autoImplicit false

namespace WebClient

structure Session where
  config : Config
  /-- There is no jar if cookies are not allowed. -/
  jar : Option Jar
  draws : Multipart.Draws
  /-- The time at which cookies are held against their expiry, in Unix seconds. -/
  now : Int
  /-- The connections over which a request was sent, or begun to be sent. -/
  requestsSent : Nat
  /-- The body bytes taken off all connections. -/
  bytesReceived : Nat
  /-- The code of the last response whose head was read. -/
  lastStatus : Option Nat
  lastFailure : Option Failure
  journal : Journal
  deriving DecidableEq, Repr

namespace Session

def start (config : Config) (draws : Multipart.Draws) (now : Int) : Session where
  config
  jar := if config.allowCookies then some (.empty config.allowForeignCookies) else none
  draws
  now
  requestsSent := 0
  bytesReceived := 0
  lastStatus := none
  lastFailure := none
  journal := []

def report (session : Session) (reports : Journal) : Session :=
  { session with journal := session.journal ++ reports }

def fail (session : Session) (failure : Failure) : Session :=
  { session with lastFailure := some failure }.report [failure.level]

/-- The target as it stands on the request line. A proxy is asked for the whole
URL, unless it gives a tunnel. -/
def requestTarget (config : Config) (target : Target) : Text :=
  if config.proxy.isSome ∧ target.scheme = .http then target.url else target.path

def credentials (user password : Text) : Text :=
  Base64.encode (user ++ ':' :: password).utf8

def cookieField? (session : Session) (target : Target) : Option Text :=
  session.jar.bind fun jar => jar.field? session.now target.host target.pathOnly

def request (session : Session) (method : Method) (target : Target) (referer : Option Text) :
    Request :=
  let config := session.config
  { Request.plain method (requestTarget config target) with
    keepAlive := config.keepAlive
    referer := if config.sendReferer then referer else none
    userAgent := if config.sendUserAgent then some config.userAgent else none
    host := if config.sendHost then some target.authority else none
    accept := if config.sendAccept then some config.accept else none
    authorization := config.basicAuth.map fun (user, password) => credentials user password
    extra := config.extraFields ++ Request.optional "Cookie" (session.cookieField? target) }

/-- Gives a request a body and its content type. Without a body it stays as it is. -/
def attach (session : Session) (request : Request) (body : Body) (contentType : Option Text) :
    Request :=
  if body.isEmpty then request
  else
    { request with
      contentType := if session.config.sendContentType then contentType else none
      body }

def absorb (session : Session) (target : Target) (fields : Fields) : Session :=
  match session.jar with
  | none => session
  | some jar =>
    let values := fields.getAll "set-cookie".toList
    { session with
      jar := some (values.foldl (fun jar raw => (jar.add raw target.host target.pathOnly).1) jar)
      journal := session.journal ++ values.flatMap Cookie.reports }

def receive (session : Session) (target : Target) (response : Response) : Session :=
  { session with lastStatus := some response.code }.absorb target response.fields

end Session

end WebClient
