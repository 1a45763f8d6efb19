import WebClient.Network
import WebClient.Response
import WebClient.Target

/-!
# What lies outside the client

A client acts on a network and reads files. Whatever it does on the network is
noted as an event, so that the events of a call tell which hosts were tried, what
was written to them, which requests and responses were exchanged, and that every
connection was given up in the end.
-/

set_option autoImplicit false

namespace WebClient

/-- What a client did on the network. -/
inductive Event
  | dialled (host : Text) (port : UInt16)
  | connected
  | wrote (bytes : Bytes)
  | shook (host : Text)
  | opened
  | asked (target : Target) (request : Request)
  | answered (target : Target) (head : Response)
  | took (before after : Feed)
  | hungUp
  deriving DecidableEq, Repr

/-- A network, with what its other end is doing, and files. -/
structure Outside (σ : Type) where
  peers : σ
  files : Files
  events : List Event

namespace Outside

variable {σ : Type}

def start (peers : σ) (files : Files) : Outside σ :=
  ⟨peers, files, []⟩

def note (outside : Outside σ) (event : Event) : Outside σ :=
  { outside with events := outside.events ++ [event] }

def dial (network : Network σ) (outside : Outside σ) (host : Text) (port : UInt16) :
    Outside σ × Dialling :=
  let outside := outside.note (.dialled host port)
  match network.dial outside.peers host port with
  | (peers, .connected) => ({ outside with peers }.note .connected, .connected)
  | (peers, outcome) => ({ outside with peers }, outcome)

/-- Asks for a tunnel, with a note of the line if it was taken. -/
def tunnel (network : Network σ) (outside : Outside σ) (line : Bytes) :
    Outside σ × Tunnelling :=
  match network.tunnel outside.peers line with
  | (peers, .taken) => ({ outside with peers }.note (.wrote line), .taken)
  | (peers, outcome) => ({ outside with peers }, outcome)

/-- Where bytes for the other end go, with a note of each write. -/
def channel (network : Network σ) : Output (Outside σ) where
  write outside bytes :=
    match network.channel.write outside.peers bytes with
    | (peers, none) => ({ outside with peers }.note (.wrote bytes), none)
    | (peers, some fault) => ({ outside with peers }, some fault)
  flush outside :=
    match network.channel.flush outside.peers with
    | (peers, outcome) => ({ outside with peers }, outcome)

def secure (network : Network σ) (outside : Outside σ) (host : Text) (trust : Trust)
    (identity : Option Identity) : Outside σ × Handshake :=
  let outside := outside.note (.shook host)
  match network.secure outside.peers host trust identity with
  | (peers, outcome) => ({ outside with peers }, outcome)

def incoming (network : Network σ) (outside : Outside σ) : Feed :=
  network.incoming outside.peers

def hangUp (network : Network σ) (outside : Outside σ) : Outside σ :=
  { outside with peers := network.hangUp outside.peers }.note .hungUp

@[simp] theorem events_note (outside : Outside σ) (event : Event) :
    (outside.note event).events = outside.events ++ [event] := rfl

@[simp] theorem peers_note (outside : Outside σ) (event : Event) :
    (outside.note event).peers = outside.peers := rfl

@[simp] theorem files_note (outside : Outside σ) (event : Event) :
    (outside.note event).files = outside.files := rfl

@[simp] theorem events_hangUp (network : Network σ) (outside : Outside σ) :
    (outside.hangUp network).events = outside.events ++ [.hungUp] := rfl

/-- Trying a host is noted, and that it answered; nothing else is noted. -/
theorem events_dial (network : Network σ) (outside : Outside σ) (host : Text) (port : UInt16) :
    (outside.dial network host port).1.events = outside.events ++ .dialled host port ::
      (if (outside.dial network host port).2 = .connected then [.connected] else []) := by
  cases answer : network.dial outside.peers host port with
  | mk peers outcome => cases outcome <;> simp [dial, answer, note]

end Outside

end WebClient
