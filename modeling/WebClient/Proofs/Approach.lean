import WebClient.Proofs.Handover

/-!
# Making a connection ready

Which events it takes to have a connection ready for a target. One place is dialled; then,
for a secure target, the proxy is asked for a tunnel and the handshake is done, in this
order and for that target. A connection that cannot be had breaks off on the way.
-/

set_option autoImplicit false

namespace WebClient

variable {σ : Type}

theorem Outside.files_dial (network : Network σ) (outside : Outside σ) (host : Text)
    (port : UInt16) :
    (outside.dial network host port).1.files = outside.files := by
  rcases answer : network.dial outside.peers host port with ⟨peers, outcome⟩
  cases outcome <;> simp [dial, answer]

namespace Connection

def attempt (config : Config) (target : Target) : Event :=
  .dialled (address config target).1 (address config target).2

def overture (config : Config) (target : Target) : List Event :=
  match target.scheme with
  | .http => []
  | .https =>
    (if config.proxy.isSome then [.wrote (tunnelLine config target).utf8] else [])
      ++ [.shook target.host]

theorem handover_overture (config : Config) (target : Target) :
    ∀ event ∈ overture config target, event.isHandover = true := by
  unfold overture
  cases target.scheme <;> cases config.proxy <;> simp [Event.isHandover]

theorem handover_of_begins {config : Config} {target : Target} {handed : List Event}
    (begins : handed <+: overture config target) :
    ∀ event ∈ handed, event.isHandover = true :=
  fun event member => handover_overture config target event (begins.subset member)

inductive Approach (config : Config) (target : Target) : List Event → Bool → Prop
  | unreached : Approach config target [attempt config target] false
  | unready {handed : List Event} (secure : target.scheme = .https)
      (begins : handed <+: overture config target) :
      Approach config target (attempt config target :: .connected :: handed ++ [.hungUp]) false
  | ready :
      Approach config target
        (attempt config target :: .connected :: overture config target ++ [.opened]) true

/-- From one moment to a later one the events of a script came about, all of them if it is
done, and nothing else happened. -/
structure Plays (script : List Event) (before after : Outside σ) (isDone : Bool) : Prop where
  events : ∃ handed, after.events = before.events ++ handed ∧ handed <+: script ∧
    (isDone = true → handed = script)
  files : after.files = before.files

namespace Plays

variable {first second : List Event} {before between after : Outside σ} {isDone : Bool}

theorem all (grown : after.events = before.events ++ first) (files : after.files = before.files) :
    Plays first before after isDone :=
  ⟨⟨first, grown, List.prefix_rfl, fun _ => rfl⟩, files⟩

theorem nothing (same : after.events = before.events) (files : after.files = before.files) :
    Plays first before after false :=
  ⟨⟨[], by rw [same, List.append_nil], List.nil_prefix, nofun⟩, files⟩

theorem append (early : Plays first before between true)
    (late : Plays second between after isDone) : Plays (first ++ second) before after isDone := by
  obtain ⟨_, grown, -, whole⟩ := early.events
  obtain ⟨handed, more, begins, complete⟩ := late.events
  rw [whole rfl] at grown
  refine ⟨⟨first ++ handed, ?_, ?_, fun done => ?_⟩, late.files.trans early.files⟩
  · rw [more, grown, List.append_assoc]
  · exact (List.prefix_append_right_inj first).2 begins
  · rw [complete done]

theorem broken (early : Plays first before after false) :
    Plays (first ++ second) before after false := by
  obtain ⟨handed, grown, begins, -⟩ := early.events
  exact ⟨⟨handed, grown, begins.trans (List.prefix_append first second), nofun⟩, early.files⟩

end Plays

private theorem plays_askTunnel (network : Network σ) (config : Config) (target : Target)
    (outside : Outside σ) :
    Plays (if config.proxy.isSome then [.wrote (tunnelLine config target).utf8] else []) outside
      (askTunnel network config target outside).1
      (askTunnel network config target outside).2.isNone := by
  unfold askTunnel
  cases config.proxy with
  | none => exact .all (List.append_nil _).symm rfl
  | some proxy =>
    rcases asked : network.tunnel outside.peers (tunnelLine config target).utf8
      with ⟨peers, outcome⟩
    simp only [Outside.tunnel, asked]
    cases outcome with
    | taken => exact .all rfl rfl
    | failed fault => exact .nothing rfl rfl
    | unanswered => exact .nothing rfl rfl

private theorem plays_shake (network : Network σ) (config : Config) (host : Text)
    (outside : Outside σ) :
    Plays [.shook host] outside (shake network config host outside).1
      (shake network config host outside).2.isNone := by
  unfold shake
  cases identity? config outside.files with
  | error fault => exact .nothing rfl rfl
  | ok identity =>
    rcases shaken : network.secure outside.peers host config.trust identity with ⟨peers, outcome⟩
    simp only [Outside.secure, Outside.peers_note, shaken]
    split
    · exact .nothing rfl rfl
    · cases outcome <;> exact .all rfl rfl

private theorem plays_prepare (network : Network σ) (config : Config) (target : Target)
    (outside : Outside σ) :
    Plays (overture config target) outside (prepare network config target outside).1
      (prepare network config target outside).2.isNone := by
  unfold prepare overture
  cases target.scheme with
  | http => exact .all (List.append_nil _).symm rfl
  | https =>
    have asked := plays_askTunnel network config target outside
    rcases tunnel : askTunnel network config target outside with ⟨later, failure⟩
    rw [tunnel] at asked
    cases failure with
    | none => exact asked.append (plays_shake network config target.host later)
    | some failure => exact asked.broken

theorem secure_of_prepare {network : Network σ} {config : Config} {target : Target}
    {before after : Outside σ} {failure : Failure}
    (failed : prepare network config target before = (after, some failure)) :
    target.scheme = .https := by
  unfold prepare at failed
  split at failed
  · cases failed
  · assumption

theorem approach_connect (network : Network σ) (config : Config) (target : Target)
    (outside : Outside σ) :
    (connect network config target outside).1.files = outside.files ∧
      ∃ events, (connect network config target outside).1.events = outside.events ++ events ∧
        Approach config target events (connect network config target outside).2.isOk := by
  rcases place : address config target with ⟨host, port⟩
  have tried : attempt config target = .dialled host port := by rw [attempt, place]
  have dialled := outside.events_dial network host port
  have files := outside.files_dial network host port
  rcases answer : outside.dial network host port with ⟨reached, outcome⟩
  rw [answer, ← tried] at dialled
  rw [answer] at files
  simp only [connect, place, answer]
  cases outcome with
  | failed fault => exact ⟨files, _, dialled, .unreached⟩
  | unanswered => exact ⟨files, _, dialled, .unreached⟩
  | connected =>
    obtain ⟨⟨handed, grown, begins, whole⟩, same⟩ := plays_prepare network config target reached
    rcases readied : prepare network config target reached with ⟨ready, failure⟩
    rw [readied] at same whole
    rw [readied, dialled] at grown
    have events : ready.events =
        outside.events ++ (attempt config target :: .connected :: handed) := by
      simpa using grown
    cases failure with
    | some failure =>
      simp only [readied]
      exact ⟨same.trans files, _, by simp [events], .unready (secure_of_prepare readied) begins⟩
    | none =>
      simp only [readied]
      cases whole rfl
      exact ⟨same.trans files, _, by simp [events], .ready⟩

/-! ## What is in the way of a connection -/

section

variable (network : Network σ) (config : Config) (target : Target)

def IsReached (outside reached : Outside σ) : Prop :=
  outside.dial network (address config target).1 (address config target).2 = (reached, .connected)

/-- The way to a secure target is clear: the proxy, if there is one, has taken the line that
asks for a tunnel. -/
inductive IsTunnelled (outside : Outside σ) : Outside σ → Prop
  | direct {reached : Outside σ} (answers : IsReached network config target outside reached)
      (unproxied : config.proxy = none) : IsTunnelled outside reached
  | proxied {reached ready : Outside σ} {proxy : Proxy}
      (answers : IsReached network config target outside reached)
      (proxied : config.proxy = some proxy)
      (asked : reached.tunnel network (tunnelLine config target).utf8 = (ready, .taken)) :
      IsTunnelled outside ready

/-- What keeps a connection for a target from being ready, by the failure that comes of it. A
limit that expires does so as well as a fault, on each of the steps. -/
inductive Hindrance (outside : Outside σ) : Failure → Prop
  | unresolved {host : Text} {port : UInt16} {reached : Outside σ} {fault : ConnectFault}
      (place : address config target = (host, port))
      (dialled : outside.dial network host port = (reached, .failed fault)) :
      Hindrance outside (.connect host port fault)
  | unreached {host : Text} {port : UInt16} {reached : Outside σ}
      (place : address config target = (host, port))
      (dialled : outside.dial network host port = (reached, .unanswered)) :
      Hindrance outside (.timeout (peerName host port) config.timeout)
  | interrupted {reached later : Outside σ} {proxy : Proxy} {fault : IoFault}
      (answers : IsReached network config target outside reached)
      (secure : target.scheme = .https) (proxied : config.proxy = some proxy)
      (asked : reached.tunnel network (tunnelLine config target).utf8 = (later, .failed fault)) :
      Hindrance outside (.connect proxy.host proxy.port (.interrupted fault))
  | unheard {reached later : Outside σ} {proxy : Proxy}
      (answers : IsReached network config target outside reached)
      (secure : target.scheme = .https) (proxied : config.proxy = some proxy)
      (asked : reached.tunnel network (tunnelLine config target).utf8 = (later, .unanswered)) :
      Hindrance outside (.timeout (peerName proxy.host proxy.port) config.timeout)
  | unidentified {ready : Outside σ} {fault : SecurityFault}
      (clear : IsTunnelled network config target outside ready) (secure : target.scheme = .https)
      (unloaded : identity? config ready.files = .error fault) :
      Hindrance outside (.security fault)
  | unnamed {ready : Outside σ} {identity : Option Identity}
      (clear : IsTunnelled network config target outside ready) (secure : target.scheme = .https)
      (loaded : identity? config ready.files = .ok identity)
      (unnamed : Address.isServerName target.host = false) :
      Hindrance outside (.security (.invalidName target.host))
  | unshaken {ready later : Outside σ} {identity : Option Identity}
      (clear : IsTunnelled network config target outside ready) (secure : target.scheme = .https)
      (loaded : identity? config ready.files = .ok identity)
      (named : Address.isServerName target.host = true)
      (shaken : ready.secure network target.host config.trust identity = (later, .failed)) :
      Hindrance outside (.security (.handshakeFailed target.host))
  | unanswered {ready later : Outside σ} {identity : Option Identity}
      (clear : IsTunnelled network config target outside ready) (secure : target.scheme = .https)
      (loaded : identity? config ready.files = .ok identity)
      (named : Address.isServerName target.host = true)
      (shaken : ready.secure network target.host config.trust identity = (later, .unanswered)) :
      Hindrance outside (.security (.handshakeTimedOut target.host))

end

section

variable {network : Network σ} {config : Config} {target : Target} {outside reached : Outside σ}
  {failure : Failure}

theorem connect_of_prepare (answers : IsReached network config target outside reached)
    {ready : Outside σ} (unready : prepare network config target reached = (ready, some failure)) :
    connect network config target outside = (ready.hangUp network, .error failure) := by
  unfold IsReached at answers
  simp only [connect, answers, unready]

private theorem connect_of_shake {ready later : Outside σ} (secure : target.scheme = .https)
    (clear : IsTunnelled network config target outside ready)
    (unshaken : shake network config target.host ready = (later, some failure)) :
    connect network config target outside = (later.hangUp network, .error failure) := by
  cases clear with
  | direct answers unproxied =>
    exact connect_of_prepare answers
      (by simp only [prepare, secure, askTunnel, unproxied, unshaken])
  | proxied answers proxied asked =>
    exact connect_of_prepare answers
      (by simp only [prepare, secure, askTunnel, proxied, asked, unshaken])

/-- With something in the way no connection comes about. -/
theorem Hindrance.connect (hindered : Hindrance network config target outside failure) :
    ∃ later, connect network config target outside = (later, .error failure) := by
  cases hindered with
  | unresolved place dialled | unreached place dialled =>
    exact ⟨_, by simp only [Connection.connect, place, dialled]; rfl⟩
  | @interrupted reached later proxy fault answers secure proxied asked =>
    have unready : prepare network config target reached =
        (later, some (.connect proxy.host proxy.port (.interrupted fault))) := by
      simp only [prepare, secure, askTunnel, proxied, asked]
    exact ⟨_, connect_of_prepare answers unready⟩
  | @unheard reached later proxy answers secure proxied asked =>
    have unready : prepare network config target reached =
        (later, some (.timeout (peerName proxy.host proxy.port) config.timeout)) := by
      simp only [prepare, secure, askTunnel, proxied, asked]
    exact ⟨_, connect_of_prepare answers unready⟩
  | unidentified clear secure unloaded =>
    exact ⟨_, connect_of_shake secure clear (by simp only [shake, unloaded]; rfl)⟩
  | unnamed clear secure loaded unnamed =>
    exact ⟨_, connect_of_shake secure clear (by simp only [shake, loaded, unnamed]; rfl)⟩
  | unshaken clear secure loaded named outcome | unanswered clear secure loaded named outcome =>
    exact ⟨_, connect_of_shake secure clear (by simp only [shake, loaded, named, outcome]; rfl)⟩

private theorem hindrance_of_shake {ready later : Outside σ} (secure : target.scheme = .https)
    (clear : IsTunnelled network config target outside ready)
    (unshaken : shake network config target.host ready = (later, some failure)) :
    Hindrance network config target outside failure := by
  cases loaded : identity? config ready.files with
  | error fault =>
    simp only [shake, loaded, Prod.mk.injEq, Option.some_inj] at unshaken
    exact unshaken.2 ▸ .unidentified clear secure loaded
  | ok identity =>
    cases named : Address.isServerName target.host with
    | false =>
      simp [shake, loaded, named] at unshaken
      exact unshaken.2 ▸ .unnamed clear secure loaded named
    | true =>
      rcases outcome : ready.secure network target.host config.trust identity
        with ⟨after, _ | _ | _⟩ <;>
        simp [shake, loaded, named, outcome] at unshaken
      · exact unshaken.2 ▸ .unshaken clear secure loaded named outcome
      · exact unshaken.2 ▸ .unanswered clear secure loaded named outcome

private theorem hindrance_of_prepare (answers : IsReached network config target outside reached)
    {later : Outside σ} (unready : prepare network config target reached = (later, some failure)) :
    Hindrance network config target outside failure := by
  have secure := secure_of_prepare unready
  cases proxied : config.proxy with
  | none =>
    simp only [prepare, secure, askTunnel, proxied] at unready
    exact hindrance_of_shake secure (.direct answers proxied) unready
  | some proxy =>
    rcases asked : reached.tunnel network (tunnelLine config target).utf8
      with ⟨ready, _ | fault | _⟩ <;>
      simp only [prepare, secure, askTunnel, proxied, asked, Prod.mk.injEq, Option.some_inj]
        at unready
    · exact hindrance_of_shake secure (.proxied answers proxied asked) unready
    · exact unready.2 ▸ .interrupted answers secure proxied asked
    · exact unready.2 ▸ .unheard answers secure proxied asked

/-- Where no connection comes about, something is in the way. -/
theorem hindrance_of_connect {later : Outside σ}
    (failed : connect network config target outside = (later, .error failure)) :
    Hindrance network config target outside failure := by
  rcases place : address config target with ⟨host, port⟩
  rcases dialled : outside.dial network host port with ⟨reached, _ | fault | _⟩ <;>
    simp only [connect, place, dialled] at failed
  · have answers : IsReached network config target outside reached := by
      rw [IsReached, place, dialled]
    rcases readied : prepare network config target reached with ⟨ready, _ | cause⟩ <;>
      simp only [readied, Prod.mk.injEq, Except.error.injEq, reduceCtorEq, and_false] at failed
    exact failed.2 ▸ hindrance_of_prepare answers readied
  · simp only [Prod.mk.injEq, Except.error.injEq] at failed
    exact failed.2 ▸ .unresolved place dialled
  · simp only [Prod.mk.injEq, Except.error.injEq] at failed
    exact failed.2 ▸ .unreached place dialled

end

end Connection

end WebClient
