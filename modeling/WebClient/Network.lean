import WebClient.Feed
import WebClient.Identity
import WebClient.Output

/-!
# Networks

A network is whatever the client can reach, described by what becomes of dialling,
of asking for a tunnel, of writing, of a handshake and of hanging up, and by what the
other end will deliver. Nothing is assumed about it: dialling, asking for a tunnel and
a handshake may succeed, fail or not be answered within the client's limit.

A client without a limit would wait for ever where no answer comes. For such a client
only those networks stand for something real that answer each time.
-/

set_option autoImplicit false

namespace WebClient

inductive Dialling
  | connected
  | failed (fault : ConnectFault)
  | unanswered
  deriving DecidableEq, Repr

/-- What becomes of the line that asks a proxy for a tunnel. -/
inductive Tunnelling
  | taken
  | failed (fault : IoFault)
  | unanswered
  deriving DecidableEq, Repr

inductive Handshake
  | established
  | failed
  | unanswered
  deriving DecidableEq, Repr

/-- A network whose state is a `σ`. All but `dial` concern the connection that was
made last. -/
structure Network (σ : Type) where
  dial : σ → Text → UInt16 → σ × Dialling
  tunnel : σ → Bytes → σ × Tunnelling
  channel : Output σ
  secure : σ → Text → Trust → Option Identity → σ × Handshake
  /-- What the other end will deliver, after all that it was sent. -/
  incoming : σ → Feed
  hangUp : σ → σ

end WebClient
