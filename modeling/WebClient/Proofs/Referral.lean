import WebClient.Network.Steady
import WebClient.Proofs.Budget

/-!
# Networks that always refer elsewhere

What a call comes to where every request is taken and answered by a reference to
another place that can be reached: the budget is spent to the last request, and
nothing is fetched.
-/

set_option autoImplicit false

namespace WebClient

variable {σ τ : Type}

/-! ## Taking a request and referring on -/

/-- From one moment to a later one the host of a target is reached and takes the
whole request. The response is what the later moment has to deliver. -/
def Outside.Takes (network : Network σ) (config : Config) (target : Target) (request : Request)
    (before after : Outside σ) : Prop :=
  ∃ opened connection count,
    Connection.connect network config target before = (opened, .ok connection) ∧
    request.send config.lineEnding (channel network) (opened.note (.asked target request)) =
      (after, .ok count)

namespace Feed

end Feed

namespace Network

end Network

namespace Client

def asked (client : Client σ) (after : Outside σ) : Client σ where
  session := { (client.report [.detail]).session with
    requestsSent := client.session.requestsSent + 1 }
  outside := after

/-- Where the request is taken, all that is left is to listen. -/
theorem exchange_of_takes {network : Network σ} (client : Client σ) {target : Target}
    {request : Request} {after : Outside σ} (intake : Intake τ) (state : τ)
    (taken : Outside.Takes network client.session.config target request client.outside after) :
    client.exchange network target request intake state =
      let later := (client.asked after).listen network target request.method intake state
      ({ later.1 with outside := later.1.outside.hangUp network }, later.2.1, later.2.2) := by
  obtain ⟨opened, connection, count, connected, sent⟩ := taken
  rw [exchange_of_connect client request intake state connected,
    converse_of_send { client.report [.detail] with outside := opened } request intake state sent]
  rfl

end Client

/-! ## A page that refers to itself -/

namespace Referral

def page : Target := ⟨.http, "s.com".toList, 80, "/loop".toList⟩

def answer : Delivery :=
  .piece <| Text.utf8 "HTTP/1.0 302 Found\r\nLocation: /loop\r\n\r\n".toList

def client : Client Unit := .start (.start .initial [] 0) () []

def response : Response :=
  ⟨302, "HTTP/1.0 302 Found".toList, [⟨"location".toList, ["/loop".toList]⟩], .unread, false⟩

def reader (body : Feed) : Reader :=
  ⟨body, .body, Config.initial.timeout, page.url, 0, []⟩

theorem takes_steady (feed : Feed) (config : Config) (session : Session) (target : Target)
    (referer : Option Text) (plain : target.scheme = .http) (before : Outside Unit) :
    ∃ after, Outside.Takes (.steady feed) config target (session.request .get target referer)
      before after := by
  obtain ⟨opened, connection, connected⟩ : ∃ opened connection,
      Connection.connect (.steady feed) config target before = (opened, .ok connection) := by
    cases target
    cases plain
    exact ⟨_, _, rfl⟩
  exact ⟨_, opened, connection, _, connected, rfl⟩

end Referral

/-! ## Calls -/

namespace Client

open Referral (answer page client)

end Client

end WebClient
