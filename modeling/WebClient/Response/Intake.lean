import WebClient.Response.Reader

/-!
# Taking a response in

The response to a request is taken in as its head and its body. The body goes into
a text or into an output; the answer to a short request may be a body without a
head.
-/

set_option autoImplicit false

namespace WebClient

/-- Where the body of a response goes. -/
inductive Intake (τ : Type)
  | text
  | output (output : Output τ)

namespace Reader

def readHeaded (reader : Reader) : Except Failure Response × Reader :=
  match reader.readHead with
  | (.ok head, reader) => (.ok (.ofHead head), reader)
  | (.error failure, reader) => (.error failure, reader)

/-- Reads the head of the response to a method. Only the answer to a short request
may do without one. -/
def readResponse (reader : Reader) (method : Method) : Except Failure Response × Reader :=
  match method with
  | .shortGet =>
    match reader.startsWithStatus with
    | (.ok true, reader) => reader.readHeaded
    | (.ok false, reader) => (.ok .headless, reader.skipHead)
    | (.error failure, reader) => (.error failure, reader)
  | _ => reader.readHeaded

variable {τ : Type}

/-- Reads the body of a response. An output gets nothing of a response that refers
elsewhere. -/
def readContent (reader : Reader) (response : Response) (extent : Extent) (intake : Intake τ)
    (state : τ) : BodyRead Content × Reader × τ :=
  match intake with
  | .text =>
    let (read, reader) := reader.readText extent
    (⟨.text read.value, read.failure⟩, reader, state)
  | .output output =>
    if response.location?.isSome then (⟨.unread, none⟩, reader, state)
    else
      let (read, reader, state) := reader.copyTo extent output state
      (⟨.copied read.value, read.failure⟩, reader, state)

end Reader

end WebClient
