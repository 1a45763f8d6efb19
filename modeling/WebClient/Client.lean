import WebClient.Connection
import WebClient.Request.Sending
import WebClient.Response.Intake
import WebClient.Session

/-!
# One request and its response

The client opens a connection, sends the request, reads the response and gives
the connection up, whatever happens in between. A body that ends early is kept as
far as it came, and the failure is taken note of; only after corruption nothing
is kept.
-/

set_option autoImplicit false

namespace WebClient

/-- A session, and the outside that it acts on. -/
structure Client (σ : Type) where
  session : Session
  outside : Outside σ

namespace Client

variable {σ τ : Type}

def start (session : Session) (peers : σ) (files : Files) : Client σ :=
  ⟨session, .start peers files⟩

def report (client : Client σ) (reports : Journal) : Client σ :=
  { client with session := client.session.report reports }

def fail (client : Client σ) (failure : Failure) : Client σ :=
  { client with session := client.session.fail failure }

def ask (client : Client σ) (target : Target) (request : Request) : Client σ where
  session := { client.session with requestsSent := client.session.requestsSent + 1 }
  outside := client.outside.note (.asked target request)

def receive (client : Client σ) (target : Target) (response : Response) : Client σ where
  session := client.session.receive target response
  outside := client.outside.note (.answered target response)

def take (client : Client σ) (before after : Reader) : Client σ where
  session := { client.session with bytesReceived := client.session.bytesReceived + after.received }
  outside := client.outside.note (.took before.feed after.feed)

def conclude (client : Client σ) (response : Response) (read : Reader.BodyRead Content) :
    Client σ × Except Failure Response :=
  match read.failure with
  | none => (client, .ok { response with content := read.value })
  | some failure =>
    if failure.isCorrupt then (client, .error failure)
    else
      (client.fail failure, .ok { response with content := read.value, isTruncated := true })

def listen (network : Network σ) (client : Client σ) (target : Target) (method : Method)
    (intake : Intake τ) (state : τ) : Client σ × τ × Except Failure Response :=
  let reader :=
    Reader.start (client.outside.incoming network) client.session.config.timeout target.url
  match reader.readResponse method with
  | (.error failure, reader) => (client.report reader.journal, state, .error failure)
  | (.ok response, reader) =>
    let client := (client.report reader.journal).receive target response
    let extent := Extent.select method response.code response.fields
    let client := client.report (Extent.reports method response.code response.fields)
    let (read, after, state) := reader.readContent response extent intake state
    let (client, outcome) := (client.take reader after).conclude response read
    (client, state, outcome)

def converse (network : Network σ) (client : Client σ) (target : Target) (request : Request)
    (intake : Intake τ) (state : τ) : Client σ × τ × Except Failure Response :=
  let client := client.ask target request
  match request.send client.session.config.lineEnding (Outside.channel network) client.outside with
  | (outside, .error failure) => ({ client with outside }, state, .error failure)
  | (outside, .ok _) => listen network { client with outside } target request.method intake state

/-- Sends a request over a connection of its own, and reads the response. -/
def exchange (network : Network σ) (client : Client σ) (target : Target) (request : Request)
    (intake : Intake τ) (state : τ) : Client σ × τ × Except Failure Response :=
  let client := client.report [.detail]
  match Connection.connect network client.session.config target client.outside with
  | (outside, .error failure) => ({ client with outside }, state, .error failure)
  | (outside, .ok _) =>
    let (client, state, outcome) :=
      converse network { client with outside } target request intake state
    ({ client with outside := client.outside.hangUp network }, state, outcome)

end Client

end WebClient
