import WebClient.Client.Call
import WebClient.CommandLine.Options
import WebClient.Text.Quoted

/-!
# The command

The command makes one call, and prints what comes of it or writes it to a file.
Nothing is printed of failures on the network but what the reports say; the command
itself fails only if it is misused, if a file cannot be written, or if nothing was
created by a `put`.
-/

set_option autoImplicit false

namespace WebClient.CommandLine

inductive Reply
  | help
  | version
  | misuse
  | finished (status : Nat) (output errors : Text)
  deriving DecidableEq, Repr

def versionText : Text :=
  "sonda 0.1.0\n".toList

def helpText : Text :=
  ("Hand-written HTTP/1.0 client\n\nUsage: sonda [OPTIONS] [VERB]\n\n"
    ++ "The verb is GET, POST, HEAD or PUT. Options:\n").toList
    ++ names.flatMap fun entry => "  -".toList ++ entry.1.toList ++ ['\n']

namespace Options

def threshold (options : Options) : Level :=
  if options.isOn .debug then .detail
  else if options.isOn .verbose then .notice
  else .warning

def config (options : Options) : Except Text Config :=
  let base := Config.initial
  let config : Config := { base with
    timeout := ((options.setting? .timeout).bind milliseconds?).getD base.timeout
    recursionLimit := ((options.setting? .recursionLimit).bind limit?).getD base.recursionLimit
    basicAuth := options.pairing? .authentication
    contentType := (options.setting? .contentType).getD base.contentType
    accept := (options.setting? .accept).getD base.accept
    userAgent := (options.setting? .userAgent).getD base.userAgent
    autoRedirect := !options.isOn .noAutoRedirect
    allowCookies := !options.isOn .noAllowCookies
    sendReferer := !options.isOn .noReferer
    sendUserAgent := !options.isOn .noUserAgent
    sendHost := !options.isOn .noHost
    sendAccept := !options.isOn .noAccept
    sendContentType := !options.isOn .noContentType
    lineEnding := if options.isOn .lineFeeds then .lf else base.lineEnding }
  match options.pairing? .proxy with
  | .none => .ok config
  | some (host, port) =>
    match Text.decimal? Text.max16 port with
    | some number => .ok { config with proxy := some ⟨host, UInt16.ofNat number⟩ }
    | .none => .error port

def params (options : Options) : Form.Params :=
  ((options.setting? .parameters).map Form.split).getD []

end Options

def levels : List Level := [.detail, .notice, .warning, .error]

def shown (threshold : Level) (journal : Journal) : List Level :=
  (levels.dropWhile fun level => level != threshold).filter journal.contains

def failed (cause : Text) : Reply :=
  .finished 1 [] ("error: ".toList ++ cause ++ ['\n'])

def printed (line : Text) : Reply :=
  .finished 0 (line ++ ['\n']) []

def fileFailure (action : String) (path : Text) (fault : IoFault) : Reply :=
  failed (action.toList ++ ' ' :: path ++ ": ".toList ++ fault.message)

variable {σ : Type}

def save (client : Client σ) (path : Text) (content : Bytes) : Except IoFault (Client σ) :=
  (client.outside.files.write path content).map fun files =>
    { client with outside := { client.outside with files } }

def emit (client : Client σ) (text : Text) (path : Option Text) : Client σ × Reply :=
  match path with
  | none => (client, printed text)
  | some path =>
    match save client path text.utf8 with
    | .ok client => (client, .finished 0 [] [])
    | .error fault => (client, fileFailure "cannot write" path fault)

def download (network : Network σ) (client : Client σ) (url path : Text) : Client σ × Reply :=
  match save client path [] with
  | .error fault => (client, fileFailure "cannot create" path fault)
  | .ok client =>
    let (client, sink, _) := client.download network url Sink.output .unlimited
    let client := client.report [.notice]
    match save client path sink.held with
    | .ok client => (client, .finished 0 [] [])
    | .error fault => (client, fileFailure "cannot write" path fault)

def fieldLines (fields : Fields) : Text :=
  Text.trimEnd <| fields.flatMap fun field =>
    field.values.flatMap fun value => field.name ++ ": ".toList ++ value ++ ['\n']

/-- Carries out a verb. There is no reply to a verb that is not known. -/
def carryOut? (network : Network σ) (options : Options) (client : Client σ) (verb url : Text) :
    Option (Client σ × Reply) :=
  let outfile := options.setting? .outfile
  let file := options.setting? .file
  let contentType := client.session.config.contentType
  match String.ofList verb with
  | "get" =>
    match outfile with
    | some path =>
      some (download network client (Form.appendQuery url (Form.encode options.params)) path)
    | none =>
      let (client, text) := client.getWith network url options.params
      some (emit client text none)
  | "post" =>
    let (client, text) := match file with
      | some path => client.postFile network url path contentType
      | none => client.post network url options.params
    some (emit client text outfile)
  | "head" =>
    let (client, fields) := client.head network url
    some (emit client (fieldLines fields) outfile)
  | "put" =>
    let (client, created) := match file with
      | some path => client.putFile network url path contentType
      | none =>
        client.put network url (Text.utf8 ((options.setting? .parameters).getD [])) contentType
    some (client, if created then printed "created".toList
      else .finished 1 "failed\n".toList [])
  | _ => none

/-- The reports at the end of a command that succeeded: the last failure is told
again. -/
def closing (client : Client σ) (reply : Reply) : Client σ :=
  match reply, client.session.lastFailure with
  | .finished 0 _ _, some _ => client.report [.detail]
  | _, _ => client

def runWith (network : Network σ) (peers : σ) (files : Files) (now : Int) (options : Options) :
    Client σ × Reply :=
  let start (config : Config) : Client σ := .start (.start config [] now) peers files
  match options.verb, options.setting? .url with
  | none, _ => (start .initial, .help)
  | some _, none => (start .initial, failed "-url is required".toList)
  | some verb, some url =>
    match options.config with
    | .error port => (start .initial, failed ("invalid proxy port: ".toList ++ port))
    | .ok config =>
      let verb := Text.lower verb
      match carryOut? network options (start config) verb url with
      | some (client, reply) => (closing client reply, reply)
      | none =>
        (start config, failed ("unknown verb ".toList ++ Text.quoted verb
          ++ ": expected GET, POST, HEAD or PUT".toList))

/-- What the command did: the client in the end, the reply, and the level from which
on reports are shown. -/
structure Run (σ : Type) where
  client : Client σ
  reply : Reply
  threshold : Level

def run (network : Network σ) (peers : σ) (files : Files) (now : Int) (arguments : List Text) :
    Run σ :=
  let idle : Client σ := .start (.start .initial [] now) peers files
  match read arguments with
  | .help => ⟨idle, .help, .warning⟩
  | .version => ⟨idle, .version, .warning⟩
  | .misuse => ⟨idle, .misuse, .warning⟩
  | .options options =>
    let (client, reply) := runWith network peers files now options
    ⟨client, reply, options.threshold⟩

end WebClient.CommandLine
