import WebClient.Network

/-!
# Networks that are asked for

The client decides what to do by pure functions; to act on a real network, it is
run on the answers that are known so far. Where they end, the first step that needs
another answer is kept as a question. Once the question has been answered, the
client is run again, and with the same answers it comes to the same questions. When
no question is left, the run is the one that took place.

Handshakes always fail here, so there are no secure channels.
-/

set_option autoImplicit false

namespace WebClient.Replay

inductive Question
  | dial (host : Text) (port : UInt16)
  /-- Send some bytes over the connection made last, and listen to its end. -/
  | exchange (bytes : Bytes)
  deriving DecidableEq, Repr

inductive Answer
  | dialled (outcome : Dialling)
  | heard (feed : Feed)
  deriving DecidableEq, Repr

structure Peers where
  answers : List Answer
  question? : Option Question
  unsent : Bytes
  feed : Feed
  deriving DecidableEq, Repr

def Peers.start (answers : List Answer) : Peers :=
  ⟨answers, none, [], []⟩

def Peers.ask (peers : Peers) (question : Question) : Peers :=
  { peers with answers := [], question? := some (peers.question?.getD question) }

def dial (peers : Peers) (host : Text) (port : UInt16) : Peers × Dialling :=
  match peers.answers with
  | .dialled outcome :: rest =>
    ({ peers with answers := rest, unsent := [], feed := [] }, outcome)
  | _ => (peers.ask (.dial host port), .unanswered)

def Peers.hold (peers : Peers) (bytes : Bytes) : Peers :=
  { peers with unsent := peers.unsent ++ bytes }

def flush (peers : Peers) : Peers × Option IoFault :=
  match peers.answers with
  | .heard feed :: rest => ({ peers with answers := rest, unsent := [], feed }, none)
  | _ => (peers.ask (.exchange peers.unsent), none)

def network : Network Peers where
  dial := dial
  tunnel := fun peers line => (peers.hold line, .taken)
  channel := { write := fun peers bytes => (peers.hold bytes, none), flush := flush }
  secure := fun peers _ _ _ => (peers, .failed)
  incoming := Peers.feed
  hangUp := id

end WebClient.Replay
