import WebClient.Failure

/-!
# Writing

Whatever takes bytes is described by an `Output`: a write takes all of its bytes
or none of them. `Sink` is the output that keeps what it takes; it may refuse
some writes and may fail to flush.
-/

set_option autoImplicit false

namespace WebClient

/-- How a thing of type `σ` takes bytes. A write or flush that fails gives the
fault, and a failed write has taken nothing. -/
structure Output (σ : Type) where
  write : σ → Bytes → σ × Option IoFault
  flush : σ → σ × Option IoFault

inductive SendStep
  | write (bytes : Bytes)
  | flush
  | stop (fault : IoFault)
  deriving DecidableEq, Repr

namespace Output

variable {σ : Type}

def send (output : Output σ) : List SendStep → σ → σ × Option IoFault
  | [], state => (state, none)
  | .stop fault :: _, state => (state, some fault)
  | .write bytes :: rest, state =>
    match output.write state bytes with
    | (state, none) => send output rest state
    | (state, some fault) => (state, some fault)
  | .flush :: rest, state =>
    match output.flush state with
    | (state, none) => send output rest state
    | (state, some fault) => (state, some fault)

end Output

/-- A place that keeps what is written to it. `accepts` is asked with what the
sink holds and with the bytes of a write. -/
structure Sink where
  accepts : Bytes → Bytes → Bool
  flushFails : Bool
  held : Bytes
  sizes : List Nat
  flushes : Nat

namespace Sink

def unlimited : Sink :=
  ⟨fun _ _ => true, false, [], [], 0⟩

def bounded (room : Nat) : Sink :=
  { unlimited with accepts := fun held bytes => held.length + bytes.length ≤ room }

def output : Output Sink where
  write sink bytes :=
    if sink.accepts sink.held bytes then
      ({ sink with held := sink.held ++ bytes, sizes := sink.sizes ++ [bytes.length] }, none)
    else (sink, some (.reported "no room".toList))
  flush sink :=
    ({ sink with flushes := sink.flushes + 1 },
      if sink.flushFails then some (.reported "bad flush".toList) else none)

end Sink

end WebClient
