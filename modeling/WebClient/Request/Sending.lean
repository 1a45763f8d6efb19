import WebClient.Output
import WebClient.Request

/-!
# Sending a request

A request is sent as its head, then its body, then a flush. Bytes in memory go
out in writes of at most 512; a source is copied read by read, up to the length
declared for it, and a source that ends before that is a fault. While a source
pauses, what has been written is flushed; a pause of no time is none.
-/

set_option autoImplicit false

namespace WebClient.Request

/-- The most that one write of a body in memory has. -/
def writeSize : Nat := 512

/-- The steps that copy a source. `copied` bytes have gone out, `wanted` are to
go, and `pending` tells whether any were written since the last flush. -/
def copySteps (declared copied : Nat) (wanted : Nat) (pending : Bool) : Feed → List SendStep
  | [] => if wanted = 0 then [.flush] else [.flush, .stop (.sourceEnded copied declared)]
  | delivery :: rest =>
    if wanted = 0 then [.flush]
    else match delivery with
      | .piece bytes =>
        if bytes.isEmpty then copySteps declared copied wanted pending rest
        else
          let part := bytes.take wanted
          .write part ::
            copySteps declared (copied + part.length) (wanted - part.length) true rest
      | .pause milliseconds =>
        if pending && milliseconds != 0 then .flush :: copySteps declared copied wanted false rest
        else copySteps declared copied wanted pending rest
      | .fault fault => [.stop fault.asIoFault]
      | .silence => [.stop (.sourceEnded copied declared)]

def bodySteps : Body → List SendStep
  | .empty => []
  | .bytes bytes => (Feed.runs (writeSize - 1) bytes).map .write
  | .source feed length => copySteps length 0 length false feed.divided

def steps (request : Request) (ending : LineEnding) : List SendStep :=
  .write (request.head ending) ::
    (match request.method with
      | .shortGet => []
      | _ => bodySteps request.body) ++ [.flush]

def bodyLength (request : Request) : Nat :=
  match request.method with
  | .shortGet => 0
  | _ => request.body.length?.getD 0

/-- Sends a request, and gives the number of body bytes sent. -/
def send {σ : Type} (request : Request) (ending : LineEnding) (output : Output σ) (state : σ) :
    σ × Except Failure Nat :=
  match output.send (request.steps ending) state with
  | (state, none) => (state, .ok request.bodyLength)
  | (state, some fault) => (state, .error (.io fault))

end WebClient.Request
