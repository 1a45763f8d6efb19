import WebClient.Proofs.RequestLog

/-!
# Going through a proxy

With a proxy nothing else is ever dialled. What goes over a connection to it is settled by
the scheme of the target: a request for its URL, or a tunnel and then a request for its path.
-/

set_option autoImplicit false

namespace WebClient

variable {σ : Type}

namespace Request

/-- On the wire a request begins with a line that asks for a text. -/
def AsksFor (request : Request) (ending : LineEnding) (text : Text) : Prop :=
  ((plain request.method text).requestLine ++ ending.text).utf8 <+: request.wire ending

private theorem asksFor_target (request : Request) (ending : LineEnding) :
    request.AsksFor ending request.target := by
  have line : (plain request.method request.target).requestLine = request.requestLine := rfl
  have first : request.requestLine ++ ending.text <+:
      (request.headLines.flatMap fun line => line ++ ending.text) ++ ending.text := by
    rw [headLines, List.flatMap_cons, List.append_assoc]
    exact List.prefix_append _ _
  rw [AsksFor, line, wire, head]
  exact (List.IsPrefix.flatMap first String.utf8EncodeChar).trans (List.prefix_append _ _)

end Request

@[simp] theorem Session.target_attach (session : Session) (request : Request) (body : Body)
    (contentType : Option Text) :
    (session.attach request body contentType).target = request.target := by
  unfold attach
  split <;> rfl

/-! ## Connections to a proxy -/

def Event.isTraffic : Event → Bool
  | wrote _ | shook _ | answered .. | took .. => true
  | _ => false

theorem Event.isTraffic_of_isHandover {event : Event} (handover : event.isHandover = true) :
    event.isTraffic = true := by
  cases event with
  | wrote | shook => rfl
  | _ => cases handover

namespace Connection

def tunnel (config : Config) (target : Target) : List Event :=
  [.wrote (tunnelLine config target).utf8, .shook target.host]

inductive Proxied (config : Config) (target : Target) : List Event → Prop
  | refused {made : List Event} (secure : target.scheme = .https)
      (begins : made <+: tunnel config target) : Proxied config target made
  | plain {request : Request} {made : List Event} (plain : target.scheme = .http)
      (asks : request.AsksFor config.lineEnding target.url)
      (traffic : ∀ event ∈ made, event.isTraffic = true)
      (begins : made.flatMap Event.handed <+: request.wire config.lineEnding) :
      Proxied config target (.opened :: .asked target request :: made)
  | tunnelled {request : Request} {made : List Event} (secure : target.scheme = .https)
      (asks : request.AsksFor config.lineEnding target.path)
      (traffic : ∀ event ∈ made, event.isTraffic = true)
      (begins : made.flatMap Event.handed <+: request.wire config.lineEnding) :
      Proxied config target (tunnel config target ++ .opened :: .asked target request :: made)

variable {config : Config} {proxy : Proxy} {target : Target}

private theorem attempt_of_proxy (configured : config.proxy = some proxy) (target : Target) :
    attempt config target = .dialled proxy.host proxy.port := by
  rw [attempt, address, configured]

private theorem overture_of_proxy (configured : config.proxy = some proxy) (target : Target) :
    overture config target = if target.scheme = .https then tunnel config target else [] := by
  unfold overture
  cases target.scheme with
  | http => rfl
  | https =>
    rw [configured]
    rfl

theorem isTraffic_of_begins {handed : List Event} (begins : handed <+: tunnel config target) :
    ∀ event ∈ handed, event.isTraffic = true := by
  intro event member
  have listed := begins.subset member
  simp only [tunnel, List.mem_cons, List.not_mem_nil, or_false] at listed
  rcases listed with rfl | rfl <;> rfl

end Connection

section

variable {config : Config} {proxy : Proxy} {streams : Bool} {target : Target} {request : Request}
  {answer? : Option Answer} {events : List Event}

/-- An exchange through a proxy dials it, and nothing else if it is not reached. Else what
happens is as the target calls for, until the connection is given up. -/
theorem Course.proxied (course : Course config streams target request answer? events)
    (configured : config.proxy = some proxy)
    (made : request.target = Session.requestTarget config target) :
    events = [.dialled proxy.host proxy.port] ∨
      ∃ between, events = .dialled proxy.host proxy.port :: .connected :: between ++ [.hungUp] ∧
        Connection.Proxied config target between := by
  have dialled := Connection.attempt_of_proxy configured target
  have script := Connection.overture_of_proxy configured target
  have asks := request.asksFor_target config.lineEnding
  rw [made, Session.requestTarget, configured] at asks
  cases course with
  | unopened approach =>
    cases approach with
    | unreached => exact .inl (congrArg ([·]) dialled)
    | unready secure begins =>
      rw [script, if_pos secure] at begins
      rw [dialled]
      exact .inr ⟨_, rfl, .refused secure begins⟩
  | @opened front sent answer? approach handover begins skips =>
    have traffic : ∀ event ∈ sent ++ Answer.events target answer?, event.isTraffic = true := by
      refine List.forall_mem_append.2
        ⟨fun event member => Event.isTraffic_of_isHandover (handover event member), ?_⟩
      cases answer? <;> simp [Answer.events, Event.isTraffic]
    have written : (sent ++ Answer.events target answer?).flatMap Event.handed <+:
        request.wire config.lineEnding := by
      cases answer? <;> simpa [Answer.events, Event.handed] using begins
    cases approach with
    | ready =>
      rw [script, dialled]
      cases scheme : target.scheme with
      | http =>
        rw [if_pos ⟨rfl, scheme⟩] at asks
        exact .inr ⟨_, by simp, .plain scheme asks traffic written⟩
      | https =>
        rw [if_neg (by simp [scheme])] at asks
        exact .inr ⟨_, by simp, .tunnelled scheme asks traffic written⟩

end

/-! ## Sessions with a proxy -/

/-- The events of exchanges of which each dials the proxy, and nothing else if it is not
reached. -/
inductive Confined (config : Config) (proxy : Proxy) : List Event → Prop
  | nil : Confined config proxy []
  | unreached {log : List Event} (past : Confined config proxy log) :
      Confined config proxy (log ++ [.dialled proxy.host proxy.port])
  | reached {log between : List Event} {target : Target} (past : Confined config proxy log)
      (fits : Connection.Proxied config target between) :
      Confined config proxy
        (log ++ .dialled proxy.host proxy.port :: .connected :: between ++ [.hungUp])

section

variable {config : Config} {proxy : Proxy} {target : Target} {request : Request}
  {log early late : List Event}

theorem Connection.Proxied.not_mem_dialled {between : List Event} {page : Target}
    (fits : Proxied config page between) (host : Text) (port : UInt16) :
    .dialled host port ∉ between := by
  have quiet {made : List Event} (traffic : ∀ event ∈ made, event.isTraffic = true) :
      .dialled host port ∉ made := fun member => by cases traffic _ member
  cases fits with
  | refused secure begins => exact quiet (isTraffic_of_begins begins)
  | plain insecure asks traffic written => simp [quiet traffic]
  | tunnelled secure asks traffic written =>
    simp [quiet traffic, quiet (isTraffic_of_begins List.prefix_rfl)]

/-- On a connection to a proxy a request comes first, or right after the tunnel. -/
theorem Connection.Proxied.of_asked {between : List Event} {page : Target}
    (fits : Proxied config page between) {first : Event} (other : first.isAsked = false)
    (split : first :: .connected :: between ++ [.hungUp] =
      early ++ .asked target request :: late) :
    (target.scheme = .http →
      early = [first, .connected, .opened] ∧ request.AsksFor config.lineEnding target.url) ∧
    (target.scheme = .https →
      early = [first, .connected] ++ tunnel config target ++ [.opened] ∧
        request.AsksFor config.lineEnding target.path) := by
  have front : .asked target request ≠ first := by
    rintro rfl
    cases other
  have quiet {made : List Event} (traffic : ∀ event ∈ made, event.isTraffic = true) :
      .asked target request ∉ made := fun member => by cases traffic _ member
  cases fits with
  | refused secure begins =>
    have listed : .asked target request ∈ first :: .connected :: between ++ [.hungUp] := by
      simp [split]
    simp [front, quiet (isTraffic_of_begins begins)] at listed
  | @plain sent made insecure asks traffic written =>
    have ahead : .asked target request ∉ [first, .connected, .opened] := by simp [front]
    have behind : .asked target request ∉ made ++ [.hungUp] := by simp [quiet traffic]
    obtain ⟨rfl, same, -⟩ :=
      (List.append_cons_inj_of_notMem ahead behind).1 (by simpa using split)
    cases same
    exact ⟨fun _ => ⟨rfl, asks⟩, fun secure => (by rw [insecure] at secure; cases secure)⟩
  | @tunnelled sent made secure asks traffic written =>
    have ahead :
        .asked target request ∉ [first, .connected] ++ tunnel config page ++ [.opened] := by
      simp [front, quiet (isTraffic_of_begins List.prefix_rfl)]
    have behind : .asked target request ∉ made ++ [.hungUp] := by simp [quiet traffic]
    obtain ⟨rfl, same, -⟩ :=
      (List.append_cons_inj_of_notMem ahead behind).1 (by simpa using split)
    cases same
    exact ⟨fun insecure => (by rw [secure] at insecure; cases insecure), fun _ => ⟨rfl, asks⟩⟩

namespace Confined

private theorem of_dialled (confined : Confined config proxy log) {host : Text} {port : UInt16}
    (listed : .dialled host port ∈ log) : host = proxy.host ∧ port = proxy.port := by
  induction confined with
  | nil => cases listed
  | unreached past ih =>
    rcases List.mem_append.1 listed with earlier | here
    · exact ih earlier
    · cases List.mem_singleton.1 here
      exact ⟨rfl, rfl⟩
  | reached past fits ih =>
    simp only [List.mem_append, List.mem_cons, Event.dialled.injEq, reduceCtorEq,
      fits.not_mem_dialled, List.not_mem_nil, or_false] at listed
    rcases listed with earlier | here
    · exact ih earlier
    · exact here

theorem of_asked (confined : Confined config proxy log)
    (split : log = early ++ .asked target request :: late) :
    (target.scheme = .http →
      (∃ front, early = front ++ [.dialled proxy.host proxy.port, .connected, .opened]) ∧
        request.AsksFor config.lineEnding target.url) ∧
    (target.scheme = .https →
      (∃ front, early = front ++ [.dialled proxy.host proxy.port, .connected,
        .wrote (Connection.tunnelLine config target).utf8, .shook target.host, .opened]) ∧
        request.AsksFor config.lineEnding target.path) := by
  induction confined generalizing late with
  | nil => simp at split
  | @unreached log past ih =>
    rcases split_of_append_eq split with ⟨rest, within⟩ | ⟨front, rfl, behind⟩
    · exact ih within
    · have listed : Event.asked target request ∈ [.dialled proxy.host proxy.port] := by
        simp [behind]
      cases List.mem_singleton.1 listed
  | @reached log between page past fits ih =>
    rw [List.append_assoc] at split
    rcases split_of_append_eq split with ⟨rest, within⟩ | ⟨front, rfl, behind⟩
    · exact ih within
    · obtain ⟨plain, tunnelled⟩ := fits.of_asked rfl behind
      constructor
      · intro insecure
        obtain ⟨rfl, asks⟩ := plain insecure
        exact ⟨⟨log, rfl⟩, asks⟩
      · intro secure
        obtain ⟨rfl, asks⟩ := tunnelled secure
        exact ⟨⟨log, rfl⟩, asks⟩

end Confined

end

theorem History.confined {start : Session} {log : List Event} (history : History start log)
    {proxy : Proxy} (configured : start.config.proxy = some proxy) :
    Confined start.config proxy log := by
  induction history with
  | nil => exact .nil
  | @exchange log events streams method target referer body contentType answer? past course ih =>
    have made : ((start.after log).attach ((start.after log).request method target referer) body
        contentType).target = Session.requestTarget start.config target := by
      rw [Session.target_attach, ← start.config_after log]
      rfl
    rcases course.proxied configured made with rfl | ⟨between, rfl, fits⟩
    · exact ih.unreached
    · rw [← List.append_assoc]
      exact ih.reached fits

/-- Whatever operations a client with a proxy carries out, and wherever it is referred to, it
dials nothing but the proxy. Over each connection to it goes a request for the URL of its
target and nothing before that, or for a secure target the line for a tunnel, the handshake,
and then a request for the path. -/
theorem Client.confined_of_operateAll (network : Network σ) (client : Client σ)
    (operations : List Operation) {proxy : Proxy}
    (configured : client.session.config.proxy = some proxy) :
    ∃ log,
      (client.operateAll network operations).outside.events = client.outside.events ++ log ∧
      Confined client.session.config proxy log ∧
      (∀ host port, .dialled host port ∈ log → host = proxy.host ∧ port = proxy.port) ∧
      ∀ early target request late, log = early ++ .asked target request :: late →
        (target.scheme = .http →
          (∃ front, early = front ++ [.dialled proxy.host proxy.port, .connected, .opened]) ∧
            request.AsksFor client.session.config.lineEnding target.url) ∧
        (target.scheme = .https →
          (∃ front, early = front ++ [.dialled proxy.host proxy.port, .connected,
            .wrote (Connection.tunnelLine client.session.config target).utf8,
            .shook target.host, .opened]) ∧
            request.AsksFor client.session.config.lineEnding target.path) := by
  obtain ⟨log, reaches, history⟩ := history_operateAll network client operations
  have confined := history.confined configured
  exact ⟨log, reaches.outside, confined, fun host port listed => confined.of_dialled listed,
    fun early target request late split => confined.of_asked split⟩

/-- A page that has moved from a plain to a secure place, and a short request: the line for the
tunnel is there once, and the proxy is asked for a URL, for a path and for a URL. -/
theorem Client.confined_of_operateAll_of_moved :
    let away := "HTTP/1.0 302 Found\r\nLocation: https://t.com/b\r\n\r\n"
    let feeds := [away, "HTTP/1.0 200 OK\r\n\r\nhi", "bye"].map fun text : String =>
      ([.piece (Text.utf8 text.toList)] : Feed)
    let config := { Config.initial with proxy := some ⟨"p.com".toList, 3128⟩ }
    let client := Client.start (.start config [] 0) feeds []
    let operations :=
      [.call (.get "http://s.com/a".toList), .call (.getShort "http://u.com/c".toList)]
    let events := (client.operateAll Network.inTurn operations).outside.events
    client.session.config.proxy = some ⟨"p.com".toList, 3128⟩ ∧
      events.countP Event.isAttempt = 3 ∧
      events.countP (· = .wrote (Text.utf8 "open t.com:443\r\n".toList)) = 1 ∧
      (events.filterMap Event.request?).map (fun asked => asked.2.target) =
        ["http://s.com/a".toList, "/b".toList, "http://u.com/c".toList] ∧
      ∀ host port, .dialled host port ∈ events → host = "p.com".toList ∧ port = 3128 := by
  intro away feeds config client operations events
  have configured : client.session.config.proxy = some ⟨"p.com".toList, 3128⟩ := rfl
  have attempts : events.countP Event.isAttempt = 3 := by decide +kernel
  have tunnels : events.countP (· = .wrote (Text.utf8 "open t.com:443\r\n".toList)) = 1 := by
    decide +kernel
  have asked : (events.filterMap Event.request?).map (fun asked => asked.2.target) =
      ["http://s.com/a".toList, "/b".toList, "http://u.com/c".toList] := by
    decide +kernel
  obtain ⟨log, grown, -, dialled, -⟩ :=
    confined_of_operateAll Network.inTurn client operations configured
  have logged : events = log := grown
  exact ⟨configured, attempts, tunnels, asked, fun host port listed =>
    dialled host port (logged ▸ listed)⟩

end WebClient
