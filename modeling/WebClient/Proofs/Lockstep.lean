import WebClient.Proofs.Attempts

/-!
# Clients in step

Two clients that do the same on equal networks stay equal in all but what they took
off the feeds: every step on the network depends on what was done before, and on
nothing that was read.
-/

set_option autoImplicit false

namespace WebClient

variable {σ : Type}

/-- The states that a network can come to from a given one, whatever is done on it. -/
inductive Network.Reaches (network : Network σ) (start : σ) : σ → Prop
  | start : Reaches network start start
  | dial {peers : σ} (reached : Reaches network start peers) (host : Text) (port : UInt16) :
    Reaches network start (network.dial peers host port).1
  | tunnel {peers : σ} (reached : Reaches network start peers) (line : Bytes) :
    Reaches network start (network.tunnel peers line).1
  | write {peers : σ} (reached : Reaches network start peers) (bytes : Bytes) :
    Reaches network start (network.channel.write peers bytes).1
  | flush {peers : σ} (reached : Reaches network start peers) :
    Reaches network start (network.channel.flush peers).1
  | secure {peers : σ} (reached : Reaches network start peers) (host : Text) (trust : Trust)
    (identity : Option Identity) :
    Reaches network start (network.secure peers host trust identity).1
  | hangUp {peers : σ} (reached : Reaches network start peers) :
    Reaches network start (network.hangUp peers)

def Event.isDeed : Event → Bool
  | took .. => false
  | _ => true

namespace Outside

/-- All that was done so far, in order: the hosts tried, the bytes written, the requests
and the heads of their responses. -/
def deeds (outside : Outside σ) : List Event :=
  outside.events.filter Event.isDeed

structure Lockstep (network : Network σ) (start : σ) (left right : Outside σ) : Prop where
  peers : right.peers = left.peers
  files : right.files = left.files
  deeds : right.deeds = left.deeds
  reached : network.Reaches start left.peers

namespace Lockstep

variable {network : Network σ} {start : σ} {left right : Outside σ}

theorem refl (outside : Outside σ) : Lockstep network outside.peers outside outside :=
  ⟨rfl, rfl, rfl, .start⟩

theorem note (lockstep : Lockstep network start left right) (event : Event) :
    Lockstep network start (left.note event) (right.note event) := by
  refine ⟨lockstep.peers, lockstep.files, ?_, lockstep.reached⟩
  have deeds := lockstep.deeds
  unfold Outside.deeds at deeds ⊢
  simp only [events_note, List.filter_append, deeds]

/-- Neither the data that was read nor how much of it has a part in it. -/
theorem took (lockstep : Lockstep network start left right) (before after above below : Feed) :
    Lockstep network start (left.note (.took before after)) (right.note (.took above below)) := by
  refine ⟨lockstep.peers, lockstep.files, ?_, lockstep.reached⟩
  have deeds := lockstep.deeds
  unfold Outside.deeds at deeds ⊢
  simp [Event.isDeed, deeds]

theorem move (lockstep : Lockstep network start left right) {peers : σ}
    (reached : network.Reaches start peers) :
    Lockstep network start { left with peers } { right with peers } :=
  ⟨rfl, lockstep.files, lockstep.deeds, reached⟩

theorem hangUp (lockstep : Lockstep network start left right) :
    Lockstep network start (left.hangUp network) (right.hangUp network) := by
  have moved := (lockstep.move lockstep.reached.hangUp).note .hungUp
  rw [Outside.hangUp, Outside.hangUp, lockstep.peers]
  exact moved

def Both {α : Type} (network : Network σ) (start : σ) (left right : Outside σ × α) : Prop :=
  ∃ outcome first second, left = (first, outcome) ∧ right = (second, outcome) ∧
    Lockstep network start first second

theorem both {α : Type} {outcome : α} (lockstep : Lockstep network start left right) :
    Both network start (left, outcome) (right, outcome) :=
  ⟨outcome, left, right, rfl, rfl, lockstep⟩

theorem dial (lockstep : Lockstep network start left right) (host : Text) (port : UInt16) :
    Both network start (left.dial network host port) (right.dial network host port) := by
  have reached := lockstep.reached.dial host port
  have tried := lockstep.note (.dialled host port)
  rcases answer : network.dial left.peers host port with ⟨peers, outcome⟩
  rw [answer] at reached
  simp only [Outside.dial, peers_note, lockstep.peers, answer]
  cases outcome with
  | connected => exact ((tried.move reached).note .connected).both
  | failed fault => exact (tried.move reached).both
  | unanswered => exact (tried.move reached).both

theorem tunnel (lockstep : Lockstep network start left right) (line : Bytes) :
    Both network start (left.tunnel network line) (right.tunnel network line) := by
  have reached := lockstep.reached.tunnel line
  rcases asked : network.tunnel left.peers line with ⟨peers, outcome⟩
  rw [asked] at reached
  simp only [Outside.tunnel, lockstep.peers, asked]
  cases outcome with
  | taken => exact ((lockstep.move reached).note (.wrote line)).both
  | failed fault => exact (lockstep.move reached).both
  | unanswered => exact (lockstep.move reached).both

theorem write (lockstep : Lockstep network start left right) (bytes : Bytes) :
    Both network start ((channel network).write left bytes)
      ((channel network).write right bytes) := by
  have reached := lockstep.reached.write bytes
  rcases taken : network.channel.write left.peers bytes with ⟨peers, fault⟩
  rw [taken] at reached
  simp only [channel, lockstep.peers, taken]
  cases fault with
  | none => exact ((lockstep.move reached).note (.wrote bytes)).both
  | some fault => exact (lockstep.move reached).both

theorem flush (lockstep : Lockstep network start left right) :
    Both network start ((channel network).flush left) ((channel network).flush right) := by
  have moved := lockstep.move lockstep.reached.flush
  simp only [channel, lockstep.peers]
  exact moved.both

theorem secure (lockstep : Lockstep network start left right) (host : Text) (trust : Trust)
    (identity : Option Identity) :
    Both network start (left.secure network host trust identity)
      (right.secure network host trust identity) := by
  have moved := (lockstep.note (.shook host)).move
    (lockstep.reached.secure host trust identity)
  simp only [Outside.secure, peers_note, lockstep.peers]
  exact moved.both

/-- However many steps are sent, and wherever sending stops. -/
theorem send (lockstep : Lockstep network start left right) (steps : List SendStep) :
    Both network start ((channel network).send steps left)
      ((channel network).send steps right) := by
  induction steps generalizing left right with
  | nil => exact lockstep.both
  | cons step rest ih =>
    cases step with
    | stop fault => exact lockstep.both
    | write bytes =>
      obtain ⟨fault, first, second, one, other, written⟩ := lockstep.write bytes
      simp only [Output.send, one, other]
      cases fault with
      | none => exact ih written
      | some fault => exact written.both
    | flush =>
      obtain ⟨fault, first, second, one, other, flushed⟩ := lockstep.flush
      simp only [Output.send, one, other]
      cases fault with
      | none => exact ih flushed
      | some fault => exact flushed.both

theorem send_request (lockstep : Lockstep network start left right) (request : Request)
    (ending : LineEnding) :
    Both network start (request.send ending (channel network) left)
      (request.send ending (channel network) right) := by
  obtain ⟨fault, first, second, one, other, sent⟩ := lockstep.send (request.steps ending)
  simp only [Request.send, one, other]
  cases fault with
  | none => exact sent.both
  | some fault => exact sent.both

end Lockstep

end Outside

namespace Connection

variable {network : Network σ} {start : σ} {left right : Outside σ}

open Outside (Lockstep)
open Outside.Lockstep (Both)

private theorem both_askTunnel (lockstep : Lockstep network start left right) (config : Config)
    (target : Target) :
    Both network start (askTunnel network config target left)
      (askTunnel network config target right) := by
  unfold askTunnel
  cases config.proxy with
  | none => exact lockstep.both
  | some proxy =>
    obtain ⟨outcome, first, second, one, other, asked⟩ :=
      lockstep.tunnel (tunnelLine config target).utf8
    simp only [one, other]
    cases outcome with
    | taken => exact asked.both
    | failed fault => exact asked.both
    | unanswered => exact asked.both

private theorem both_shake (lockstep : Lockstep network start left right) (config : Config)
    (host : Text) :
    Both network start (shake network config host left) (shake network config host right) := by
  unfold shake
  rw [lockstep.files]
  cases identity? config left.files with
  | error fault => exact lockstep.both
  | ok identity =>
    dsimp only
    split
    · exact lockstep.both
    · obtain ⟨outcome, first, second, one, other, secured⟩ :=
        lockstep.secure host config.trust identity
      simp only [one, other]
      cases outcome <;> exact secured.both

private theorem both_prepare (lockstep : Lockstep network start left right) (config : Config)
    (target : Target) :
    Both network start (prepare network config target left)
      (prepare network config target right) := by
  unfold prepare
  cases target.scheme with
  | http => exact lockstep.both
  | https =>
    obtain ⟨failure, first, second, one, other, asked⟩ := both_askTunnel lockstep config target
    simp only [one, other]
    cases failure with
    | none => exact both_shake asked config target.host
    | some failure => exact asked.both

/-- A connection is opened by both, or fails both for the same reason. -/
theorem both_connect (lockstep : Lockstep network start left right) (config : Config)
    (target : Target) :
    Both network start (connect network config target left)
      (connect network config target right) := by
  rcases place : address config target with ⟨host, port⟩
  obtain ⟨outcome, first, second, one, other, dialled⟩ := lockstep.dial host port
  simp only [connect, place, one, other]
  cases outcome with
  | failed fault => exact dialled.both
  | unanswered => exact dialled.both
  | connected =>
    obtain ⟨failure, before, beside, left_ready, right_ready, prepared⟩ :=
      both_prepare dialled config target
    simp only [left_ready, right_ready]
    cases failure with
    | some failure => exact prepared.hangUp.both
    | none => exact (prepared.note .opened).both

end Connection

namespace Client

/-- The same was done by both, and all that tells their sessions apart is how many bytes
of bodies were read. -/
structure Lockstep (network : Network σ) (start : σ) (left right : Client σ) : Prop where
  outside : Outside.Lockstep network start left.outside right.outside
  session : ∃ bytesReceived, right.session = { left.session with bytesReceived }

namespace Lockstep

variable {network : Network σ} {start : σ} {left right : Client σ}

theorem refl (client : Client σ) : Lockstep network client.outside.peers client client :=
  ⟨.refl client.outside, client.session.bytesReceived, rfl⟩

theorem config (lockstep : Lockstep network start left right) :
    right.session.config = left.session.config := by
  obtain ⟨count, same⟩ := lockstep.session
  rw [same]

/-- What is asked next does not depend on what was read. -/
theorem request (lockstep : Lockstep network start left right) (method : Method)
    (target : Target) (referer : Option Text) :
    right.session.request method target referer = left.session.request method target referer := by
  obtain ⟨count, same⟩ := lockstep.session
  rw [same]
  rfl

theorem move (lockstep : Lockstep network start left right) {first second : Outside σ}
    (outside : Outside.Lockstep network start first second) :
    Lockstep network start { left with outside := first } { right with outside := second } :=
  ⟨outside, lockstep.session⟩

theorem report (lockstep : Lockstep network start left right) (reports : Journal) :
    Lockstep network start (left.report reports) (right.report reports) := by
  obtain ⟨count, same⟩ := lockstep.session
  refine ⟨lockstep.outside, count, ?_⟩
  simp only [Client.report, same, Session.report]

theorem fail (lockstep : Lockstep network start left right) (failure : Failure) :
    Lockstep network start (left.fail failure) (right.fail failure) := by
  obtain ⟨count, same⟩ := lockstep.session
  refine ⟨lockstep.outside, count, ?_⟩
  simp only [Client.fail, same, Session.fail, Session.report]

theorem ask (lockstep : Lockstep network start left right) (target : Target)
    (request : Request) :
    Lockstep network start (left.ask target request) (right.ask target request) := by
  obtain ⟨count, same⟩ := lockstep.session
  refine ⟨lockstep.outside.note _, count, ?_⟩
  simp only [Client.ask, same]

theorem receive (lockstep : Lockstep network start left right) (target : Target)
    (response : Response) :
    Lockstep network start (left.receive target response) (right.receive target response) := by
  obtain ⟨count, same⟩ := lockstep.session
  refine ⟨lockstep.outside.note _, count, ?_⟩
  simp only [Client.receive, same, Session.receive, Session.absorb]
  cases left.session.jar <;> rfl

theorem take (lockstep : Lockstep network start left right) (before after above below : Reader) :
    Lockstep network start (left.take before after) (right.take above below) := by
  obtain ⟨count, same⟩ := lockstep.session
  refine ⟨lockstep.outside.took _ _ _ _, (right.take above below).session.bytesReceived, ?_⟩
  simp only [Client.take, same]

end Lockstep

end Client

end WebClient
