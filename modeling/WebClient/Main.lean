import Std.Async.DNS
import Std.Async.TCP
import Std.Async.Timer
import WebClient.CommandLine
import WebClient.Network.Replay

/-!
# The command as a program

The outer layer: it answers what the command asks of the network, reads the files
that the command may want, and does what the command says at the end.
-/

set_option autoImplicit false

namespace WebClient.Program

open Std.Async
open Std.Net

def listed (bytes : ByteArray) : Bytes :=
  bytes.toList

abbrev Socket := Option TCP.Socket.Client

def connect (address : IPAddr) (port : UInt16) : IO Socket := do
  try
    let client ← TCP.Socket.Client.mk
    match address with
    | .v4 addr => (client.connect (.v4 ⟨addr, port⟩)).block
    | .v6 addr => (client.connect (.v6 ⟨addr, port⟩)).block
    return some client
  catch _ => return none

def dial (host : Text) (port : UInt16) : IO (Dialling × Socket) := do
  if !Address.isUsable host then return (.failed .unusableName, none)
  try
    let addresses ← (DNS.getAddrInfo (String.ofList host) "").block
    for address in addresses do
      if let some client ← connect address port then return (.connected, some client)
    return (.failed .refused, none)
  catch _ => return (.failed .unresolved, none)

def receive (client : TCP.Socket.Client) (limit : Nat) : IO (Option (Option ByteArray)) := do
  let size := UInt64.ofNat Feed.readSize
  if limit = 0 then return some (← (client.recv? size).block)
  let wait : Async (Option (Option ByteArray)) := do
    let patience ← Selector.sleep (.ofNat limit)
    Selectable.one #[
      .case (client.recvSelector size) fun data => return some data,
      .case patience fun _ => return none]
  wait.block

/-- Everything that a connection brings, until it ends or is silent for too long. -/
partial def listen (client : TCP.Socket.Client) (limit : Nat) (heard : Array Delivery) :
    IO Feed := do
  try
    match ← receive client limit with
    | some (some data) => listen client limit (heard.push (.piece (listed data)))
    | some none => return heard.toList
    | none => return (heard.push .silence).toList
  catch _ => return (heard.push (.fault (.io .connectionReset))).toList

def answer (question : Replay.Question) (socket : Socket) (limit : Nat) :
    IO (Replay.Answer × Socket) := do
  match question, socket with
  | .dial host port, _ =>
    let (outcome, socket) ← dial host port
    return (.dialled outcome, socket)
  | .exchange _, none => return (.heard [], none)
  | .exchange bytes, some client =>
    try
      (client.send ⟨bytes.toArray⟩).block
      return (.heard (← listen client limit #[]), none)
    catch _ => return (.heard [.fault (.io .connectionReset)], none)

partial def converse (run : List Replay.Answer → CommandLine.Run Replay.Peers)
    (answers : Array Replay.Answer) (socket : Socket) : IO (CommandLine.Run Replay.Peers) := do
  let result := run answers.toList
  match result.client.outside.peers.question? with
  | none => return result
  | some question =>
    let (answer, socket) ← answer question socket result.client.session.config.timeout
    converse run (answers.push answer) socket

def entry (path : Text) : IO Files := do
  try
    return [(path, listed (← IO.FS.readBinFile (String.ofList path)))]
  catch
    | .inappropriateType .. => return [(path ++ ['/'], [])]
    | _ => return []

/-- What is at a path and at each directory on the way there. -/
def surroundings (path : Text) : IO Files := do
  let mut files : Files := []
  for length in List.range (path.length + 1) do
    if length == path.length || path[length]? == some '/' then
      files := files ++ (← entry (path.take length))
  return files

def paths (arguments : List Text) : List Text :=
  match CommandLine.read arguments with
  | .options options =>
    ([.file, .outfile] : List CommandLine.Setting).filterMap options.setting?
  | _ => []

def finish (reply : CommandLine.Reply) : IO UInt32 := do
  match reply with
  | .help =>
    IO.print (String.ofList CommandLine.helpText)
    return 0
  | .version =>
    IO.print (String.ofList CommandLine.versionText)
    return 0
  | .misuse =>
    IO.eprint (String.ofList CommandLine.helpText)
    return 2
  | .finished status output errors =>
    IO.print (String.ofList output)
    IO.eprint (String.ofList errors)
    return UInt32.ofNat status

def run (arguments : List Text) : IO UInt32 := do
  let now := (← Std.Time.Timestamp.now).toSecondsSinceUnixEpoch.val
  let mut files : Files := []
  for path in paths arguments do
    files := files ++ (← surroundings path)
  let known := files
  let result ← converse
    (fun answers => CommandLine.run Replay.network (.start answers) known now arguments) #[] none
  for path in paths arguments do
    match result.client.outside.files.content? path with
    | some content =>
      if known.content? path ≠ some content then
        IO.FS.writeBinFile (String.ofList path) ⟨content.toArray⟩
    | none => pure ()
  finish result.reply

end WebClient.Program

def main (arguments : List String) : IO UInt32 :=
  WebClient.Program.run (arguments.map String.toList)
