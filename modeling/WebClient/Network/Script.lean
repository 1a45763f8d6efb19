import WebClient.Address
import WebClient.Network
import WebClient.Response

/-!
# Scripted networks

A script lists the hosts of a network and what they answer, so that the client
can be run without any other. Every connection is recorded with what came in on
it.

A host that takes requests waits for a whole one: through the first blank line,
and as many bytes after it as its first `Content-length` says. It then answers
with the first route that matches and is not used up. A host that takes requests
in the clear also serves as a proxy for tunnels: a first line that begins with
`o` asks for one.
-/

set_option autoImplicit false

namespace WebClient.Script

structure Endpoint where
  host : Text
  place : Text
  /-- Channels have to be made secure before anything else. -/
  isSecure : Bool
  /-- Nothing is ever answered. -/
  isSilent : Bool
  isUnreachable : Bool
  refusesTunnels : Bool
  deriving DecidableEq, Repr

inductive Ending
  | close
  | stall
  | reset
  /-- The end of a secure channel without notice. -/
  | abrupt
  | corrupt
  deriving DecidableEq, Repr

/-- A rule for answering. It applies to requests for all places, verbs and targets
that it does not restrict. -/
structure Route where
  place? : Option Text
  verb? : Option Text
  target? : Option Text
  /-- How often it can still be used, if that is limited. -/
  uses? : Option Nat
  reply : Bytes
  ending : Ending
  /-- Milliseconds between the answer and the end. -/
  hold : Nat
  deriving DecidableEq, Repr

/-- What came in on a connection. -/
inductive Heard
  | bytes (bytes : Bytes)
  | failedHandshake
  | strayHandshake
  deriving DecidableEq, Repr

structure Record where
  place : Text
  heard : Heard
  isSecure : Bool
  tunnel? : Option Bytes
  deriving DecidableEq, Repr

/-- The connection that is up, at the host's end. -/
structure Line where
  endpoint : Endpoint
  isSecure : Bool
  tunnel? : Option Bytes
  received : Bytes
  failure? : Option Heard
  answer? : Option Feed
  deriving DecidableEq, Repr

structure Peers where
  endpoints : List Endpoint
  routes : List Route
  line? : Option Line
  records : List Record
  deriving DecidableEq, Repr

def Peers.start (endpoints : List Endpoint) (routes : List Route) : Peers :=
  ⟨endpoints, routes, none, []⟩

def cutHead? : Bytes → Option (Bytes × Bytes)
  | [] => none
  | 10 :: 10 :: rest => some ([10, 10], rest)
  | 13 :: 10 :: 13 :: 10 :: rest => some ([13, 10, 13, 10], rest)
  | byte :: rest => (cutHead? rest).map fun (head, body) => (byte :: head, body)

def headLines (head : Bytes) : List Text :=
  ((Text.latin1 head).splitOn '\n').map fun line =>
    if line.getLast? = some '\r' then line.dropLast else line

def announced (head : Bytes) : Nat :=
  let length? (line : Text) : Option Text := do
    let (name, value) ← Text.cutFirst? ':' line
    if Text.lower (Text.trim name) = "content-length".toList then some (Text.trim value) else none
  (((headLines head).findSome? length?).bind (Text.decimal? Text.max64)).getD 0

def request? (received : Bytes) : Option (Bytes × Bytes) :=
  match cutHead? received with
  | none => none
  | some (head, rest) =>
    let length := announced head
    if rest.length < length then none else some (head, rest.take length)

def Route.applies (route : Route) (place : Text) (words : List Text) : Bool :=
  route.uses? != some 0
    && route.place?.all (· == place)
    && route.verb?.all (fun verb => words[0]? == some verb)
    && route.target?.all (fun target => words[1]? == some target)

def Route.use (route : Route) : Route :=
  { route with uses? := route.uses?.map (· - 1) }

def choose? (place : Text) (words : List Text) : List Route → Option (Route × List Route)
  | [] => none
  | route :: rest =>
    if route.applies place words then some (route, route.use :: rest)
    else (choose? place words rest).map fun (chosen, rest) => (chosen, route :: rest)

def unrouted : Bytes :=
  Text.utf8 "HTTP/1.0 404 Not Found\r\nContent-Length: 8\r\n\r\nno route".toList

def Ending.feed (ending : Ending) (isSecure : Bool) : Feed :=
  match ending, isSecure with
  | .stall, _ => [.silence]
  | .reset, _ => [.fault (.io .connectionReset)]
  | .abrupt, true => [.fault (.io .closedWithoutNotice)]
  | .corrupt, true => [.pause 100, .fault (.corrupt .undecryptable)]
  | _, _ => []

def Route.feed (route : Route) (isSecure : Bool) : Feed :=
  .piece route.reply :: .pause route.hold :: route.ending.feed isSecure

/-- What a host that wants secure channels says to anything else. -/
def alert : Bytes := [0x15, 0x03, 0x03, 0x00, 0x02, 0x02, 0x32]

def answer (peers : Peers) (line : Line) (head body : Bytes) : Peers :=
  let words := ((headLines head).headD []).splitOn ' '
  let (feed, routes) := match choose? line.endpoint.place words peers.routes with
    | some (route, routes) => (route.feed line.isSecure, routes)
    | none => ([.piece unrouted], peers.routes)
  { peers with
    routes
    line? := some { line with received := head ++ body, answer? := some feed } }

def hear (peers : Peers) (line : Line) (bytes : Bytes) : Peers :=
  let received := line.received ++ bytes
  let waiting : Peers := { peers with line? := some { line with received } }
  if line.endpoint.isSilent then peers
  else if line.endpoint.isSecure && !line.isSecure then waiting
  else if !line.isSecure && received.head? == some 111 then
    match Feed.cutLine? received with
    | some (tunnel, rest) =>
      { peers with line? := some { line with tunnel? := some tunnel, received := rest } }
    | none => waiting
  else
    match request? received with
    | some (head, body) => answer peers { line with received } head body
    | none => waiting

def write (peers : Peers) (bytes : Bytes) : Peers × Option IoFault :=
  match peers.line? with
  | some line => if line.answer?.isSome then (peers, none) else (hear peers line bytes, none)
  | none => (peers, some .connectionReset)

def tunnel (peers : Peers) (line : Bytes) : Peers × Tunnelling :=
  match write peers line with
  | (peers, none) => (peers, .taken)
  | (peers, some fault) => (peers, .failed fault)

def Line.fresh (endpoint : Endpoint) : Line :=
  ⟨endpoint, false, none, [], none, none⟩

/-- Dials a host: one that is listed answers, one whose name is known refuses. No
host is ever listed under an address of the sixth version, or under a name that
cannot be used. -/
def dial (peers : Peers) (host : Text) (port : UInt16) : Peers × Dialling :=
  let place := host ++ ':' :: Text.ofNat port.toNat
  if !Address.isUsable host then (peers, .failed .unusableName)
  else if Address.isIpv6 host then (peers, .failed .refused)
  else
    match peers.endpoints.find? fun endpoint => endpoint.place == place with
    | some endpoint =>
      if endpoint.isUnreachable then
        ({ peers with records := peers.records ++ [⟨place, .bytes [], false, none⟩] }, .unanswered)
      else ({ peers with line? := some (.fresh endpoint) }, .connected)
    | none =>
      if Address.isIpv4 host || peers.endpoints.any (fun endpoint => endpoint.host == host) then
        (peers, .failed .refused)
      else (peers, .failed .unresolved)

/-- What a handshake leads to at the host's end: what it leaves to record, or
nothing if a channel comes about. No host here has a certificate from a known root. -/
def Line.shake (line : Line) (trust : Trust) : Option Heard :=
  let trusted := if trust = .everyone then none else some .failedHandshake
  if line.endpoint.isSecure then
    if line.received.isEmpty then trusted else some .failedHandshake
  else
    match line.tunnel? with
    | some _ => if line.endpoint.refusesTunnels then some (.bytes []) else trusted
    | none => some .strayHandshake

def secure (peers : Peers) (_host : Text) (trust : Trust) (_identity : Option Identity) :
    Peers × Handshake :=
  match peers.line? with
  | none => (peers, .failed)
  | some line =>
    if line.endpoint.isSilent then (peers, .unanswered)
    else
      match line.shake trust with
      | none =>
        ({ peers with line? := some { line with isSecure := true, received := [] } }, .established)
      | some heard => ({ peers with line? := some { line with failure? := some heard } }, .failed)

def incoming (peers : Peers) : Feed :=
  match peers.line? with
  | none => []
  | some line =>
    match line.answer? with
    | some feed => feed
    | none =>
      if line.endpoint.isSecure && !line.isSecure && !line.received.isEmpty then [.piece alert]
      else [.silence]

def Line.record (line : Line) : Record where
  place := line.endpoint.place
  heard := match line.failure? with
    | some heard => heard
    | none =>
      if line.endpoint.isSecure && !line.isSecure && !line.endpoint.isSilent then .failedHandshake
      else if line.tunnel?.isSome && !line.isSecure then .failedHandshake
      else .bytes line.received
  isSecure := line.isSecure
  tunnel? := line.tunnel?

def hangUp (peers : Peers) : Peers :=
  match peers.line? with
  | none => peers
  | some line => { peers with line? := none, records := peers.records ++ [line.record] }

def network : Network Peers where
  dial := dial
  tunnel := tunnel
  channel := { write := write, flush := fun peers => (peers, none) }
  secure := secure
  incoming := incoming
  hangUp := hangUp

end WebClient.Script
