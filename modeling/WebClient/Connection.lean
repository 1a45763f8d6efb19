import WebClient.Address
import WebClient.Outside

/-!
# Connections

Each request has a connection of its own, to the target or to the proxy. For a
secure target a proxy is first asked for a tunnel; then the client's identity is
loaded, the host's name checked, and the handshake done. A connection that cannot
be made ready is given up. Dialling, the line for the tunnel and the handshake are each
done under the limit of the configuration; where that is zero, they are waited for as long
as it takes, and a network that leaves one unanswered stands for nothing real.

A connection that is open can be written to and read from. What was read off the
channel and not handed out yet stays with the connection, and goes with it.
-/

set_option autoImplicit false

namespace WebClient

structure Connection where
  peer : Text
  /-- What is still to be read, once reading has begun. -/
  pending : Option Feed
  isOpen : Bool
  deriving DecidableEq, Repr

namespace Connection

variable {σ : Type}

def address (config : Config) (target : Target) : Text × UInt16 :=
  match config.proxy with
  | some proxy => (proxy.host, proxy.port)
  | none => (target.host, target.port)

def peerName (host : Text) (port : UInt16) : Text :=
  host ++ ':' :: Text.ofNat port.toNat

def tunnelLine (config : Config) (target : Target) : Text :=
  "open ".toList ++ peerName target.host target.port ++ config.lineEnding.text

def askTunnel (network : Network σ) (config : Config) (target : Target) (outside : Outside σ) :
    Outside σ × Option Failure :=
  match config.proxy with
  | none => (outside, none)
  | some proxy =>
    match outside.tunnel network (tunnelLine config target).utf8 with
    | (outside, .taken) => (outside, none)
    | (outside, .failed fault) =>
      (outside, some (.connect proxy.host proxy.port (.interrupted fault)))
    | (outside, .unanswered) =>
      (outside, some (.timeout (peerName proxy.host proxy.port) config.timeout))

def identity? (config : Config) (files : Files) : Except SecurityFault (Option Identity) :=
  match config.identity with
  | none => .ok none
  | some paths => (Identity.load files paths).map some

def shake (network : Network σ) (config : Config) (host : Text) (outside : Outside σ) :
    Outside σ × Option Failure :=
  match identity? config outside.files with
  | .error fault => (outside, some (.security fault))
  | .ok identity =>
    if !Address.isServerName host then (outside, some (.security (.invalidName host)))
    else
      match outside.secure network host config.trust identity with
      | (outside, .established) => (outside, none)
      | (outside, .failed) => (outside, some (.security (.handshakeFailed host)))
      | (outside, .unanswered) => (outside, some (.security (.handshakeTimedOut host)))

def prepare (network : Network σ) (config : Config) (target : Target) (outside : Outside σ) :
    Outside σ × Option Failure :=
  match target.scheme with
  | .http => (outside, none)
  | .https =>
    match askTunnel network config target outside with
    | (outside, none) => shake network config target.host outside
    | (outside, some failure) => (outside, some failure)

def connect (network : Network σ) (config : Config) (target : Target) (outside : Outside σ) :
    Outside σ × Except Failure Connection :=
  let (host, port) := address config target
  match outside.dial network host port with
  | (outside, .failed fault) => (outside, .error (.connect host port fault))
  | (outside, .unanswered) => (outside, .error (.timeout (peerName host port) config.timeout))
  | (outside, .connected) =>
    match prepare network config target outside with
    | (outside, some failure) => (outside.hangUp network, .error failure)
    | (outside, none) => (outside.note .opened, .ok ⟨peerName host port, none, true⟩)

/-- The failure of using a connection that is no longer open. -/
def closedFailure (connection : Connection) : Failure :=
  .io (.channelClosed connection.peer)

def write (network : Network σ) (connection : Connection) (bytes : Bytes) (outside : Outside σ) :
    Outside σ × Option Failure :=
  if !connection.isOpen then (outside, some connection.closedFailure)
  else
    match (Outside.channel network).send [.write bytes, .flush] outside with
    | (outside, fault) => (outside, fault.map .io)

/-- Reads through the next line feed or to the end, without any time limit, so for feeds that
bring no silence. At the end there is nothing to read. -/
def readLine (network : Network σ) (connection : Connection) (outside : Outside σ) :
    Connection × Except Failure Bytes :=
  if !connection.isOpen then (connection, .error connection.closedFailure)
  else
    match (connection.pending.getD (outside.incoming network)).readLine 0 with
    | .line bytes rest => ({ connection with pending := some rest }, .ok bytes)
    | .ended => ({ connection with pending := some [] }, .ok [])
    | .faulted fault rest =>
      ({ connection with pending := some rest }, .error (.io fault.asIoFault))
    | .expired rest =>
      ({ connection with pending := some rest }, .error (.timeout connection.peer 0))

/-- Gives a connection up. Doing so again changes nothing. -/
def close (network : Network σ) (connection : Connection) (outside : Outside σ) :
    Outside σ × Connection :=
  if connection.isOpen then
    (outside.hangUp network, { connection with pending := none, isOpen := false })
  else (outside, connection)

end Connection

end WebClient
