import WebClient.Client.Fetch
import WebClient.Form

/-!
# Calls

What can be asked of the client. A call never fails outright: what cannot be had
is empty, and the session knows the last failure. `Client.perform` carries out
any call.
-/

set_option autoImplicit false

namespace WebClient

inductive Call
  /-- The text at a URL, with its frames, wherever it has gone to. -/
  | get (url : Text)
  | getWith (url : Text) (params : Form.Params)
  /-- The text that answers a request line alone. -/
  | getShort (url : Text)
  | download (url : Text)
  | post (url : Text) (params : Form.Params)
  | postBytes (url : Text) (bytes : Bytes) (contentType : Text)
  | postFile (url path contentType : Text)
  | postMultipart (url : Text) (parts : Multipart.Parts) (types : Multipart.Types)
  | head (url : Text)
  | put (url : Text) (bytes : Bytes) (contentType : Text)
  | putFile (url path contentType : Text)
  deriving DecidableEq, Repr

inductive Outcome
  | text (text : Text)
  | fields (fields : Fields)
  | created (isCreated : Bool)
  | bytes (count : Nat) (bytes : Bytes)
  deriving DecidableEq, Repr

namespace Client

variable {σ τ : Type} (network : Network σ)

def budget (client : Client σ) : Budget :=
  .ofLimit client.session.config.recursionLimit

def get (client : Client σ) (url : Text) : Client σ × Text :=
  let client := client.report [.notice]
  let page := fetch network client url none client.budget
  (page.client.report [.notice], page.value)

def getWith (client : Client σ) (url : Text) (params : Form.Params) : Client σ × Text :=
  client.get network (Form.appendQuery url (Form.encode params))

/-- Sends one request, whose response is followed up by nothing. -/
def roundTrip (client : Client σ) (url : Text) (method : Method) (body : Body)
    (contentType : Option Text) : Client σ × Option Response :=
  match Target.parse url with
  | .error failure => (client.fail failure, none)
  | .ok target =>
    let session := client.session
    let request := session.attach (session.request method target none) body contentType
    match client.exchange network target request .text () with
    | (client, _, .ok response) => (client, some response)
    | (client, _, .error failure) => (client.fail failure, none)

def getShort (client : Client σ) (url : Text) : Client σ × Text :=
  let (client, response) := (client.report [.notice]).roundTrip network url .shortGet .empty none
  (client, (response.map Response.text).getD [])

/-- Copies what is at a URL to an output. The number is how many bytes of the last
response the output took. -/
def download (client : Client σ) (url : Text) (output : Output τ) (state : τ) :
    Client σ × τ × Nat :=
  let client := client.report [.notice]
  downloadFrom network client url none client.budget output state

def postBody (client : Client σ) (url : Text) (body : Body) (contentType : Text) :
    Client σ × Text :=
  let client := client.report [.notice]
  match Target.parse url with
  | .error failure => (client.fail failure, [])
  | .ok target =>
    match client.budget.enter? with
    | none => (client.fail (.budgetSpent url client.budget.limit), [])
    | some next =>
      let request := client.session.attach (client.session.request .post target none) body
        (some contentType)
      let page := follow network client target request next
      (page.client, page.value)

def post (client : Client σ) (url : Text) (params : Form.Params) : Client σ × Text :=
  client.postBody network url (.text (Form.encode params)) client.session.config.contentType

def postBytes (client : Client σ) (url : Text) (bytes : Bytes) (contentType : Text) :
    Client σ × Text :=
  client.postBody network url (.bytes bytes) contentType

def directoryLength : Nat := 4096

/-- What is at a path, to be sent piece by piece. A directory can be had as a body, but
not be read. -/
def fileBody (client : Client σ) (path : Text) : Except Failure Body :=
  match client.outside.files.find path with
  | .ok (.file content) => .ok (.source [.piece content] content.length)
  | .ok .directory => .ok (.source [.fault (.io .isDirectory)] directoryLength)
  | .error fault => .error (.io fault)

def postFile (client : Client σ) (url path contentType : Text) : Client σ × Text :=
  match client.fileBody path with
  | .ok body => client.postBody network url body contentType
  | .error failure => (client.fail failure, [])

/-- Posts a form with several parts. If the random numbers run out before there is
a boundary, nothing is done. -/
def postMultipart (client : Client σ) (url : Text) (parts : Multipart.Parts)
    (types : Multipart.Types) : Client σ × Text :=
  match Multipart.encode? parts types client.session.draws with
  | none => (client, [])
  | some (encoded, draws) =>
    postBody network { client with session := { client.session with draws } } url
      (.bytes encoded.body) encoded.contentType

def head (client : Client σ) (url : Text) : Client σ × Fields :=
  let (client, response) := (client.report [.notice]).roundTrip network url .head .empty none
  (client, (response.map Response.fields).getD [])

def isCreated (response : Option Response) : Bool :=
  response.any fun response => response.code == 201

def put (client : Client σ) (url : Text) (bytes : Bytes) (contentType : Text) : Client σ × Bool :=
  let (client, response) :=
    (client.report [.notice]).roundTrip network url .put (.bytes bytes) (some contentType)
  (client, isCreated response)

def putFile (client : Client σ) (url path contentType : Text) : Client σ × Bool :=
  let client := client.report [.notice]
  match client.fileBody path with
  | .error failure => (client.fail failure, false)
  | .ok body =>
    let (client, response) := client.roundTrip network url .put body (some contentType)
    (client, isCreated response)

def perform (client : Client σ) : Call → Client σ × Outcome
  | .get url => (client.get network url).map id .text
  | .getWith url params => (client.getWith network url params).map id .text
  | .getShort url => (client.getShort network url).map id .text
  | .download url =>
    let (client, sink, count) := client.download network url Sink.output .unlimited
    (client, .bytes count sink.held)
  | .post url params => (client.post network url params).map id .text
  | .postBytes url bytes contentType =>
    (client.postBytes network url bytes contentType).map id .text
  | .postFile url path contentType => (client.postFile network url path contentType).map id .text
  | .postMultipart url parts types =>
    (client.postMultipart network url parts types).map id .text
  | .head url => (client.head network url).map id .fields
  | .put url bytes contentType => (client.put network url bytes contentType).map id .created
  | .putFile url path contentType => (client.putFile network url path contentType).map id .created

end Client

end WebClient
