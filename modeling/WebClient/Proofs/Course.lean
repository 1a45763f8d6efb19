import WebClient.Proofs.Approach
import WebClient.Proofs.BodyCount
import WebClient.Proofs.Exchange
import WebClient.Proofs.Handover
import WebClient.Proofs.WireBytes

/-!
# The course of an exchange

An exchange takes one of a few courses, each with events of its own: no connection comes
about, or one does, over which a request is sent, at most one response read and which is
given up. What a session keeps account of is what it makes of these events, whatever
becomes of the exchange.
-/

set_option autoImplicit false

namespace WebClient

variable {σ τ : Type}

/-! ## Sending -/

def Event.handed : Event → Bytes
  | wrote bytes => bytes
  | _ => []

namespace Outside

def handed (outside : Outside σ) : Bytes :=
  outside.events.flatMap Event.handed

private theorem appends_channel (network : Network σ) : (channel network).Appends handed where
  taken := by
    intro outside bytes later written
    rcases taken : network.channel.write outside.peers bytes with ⟨peers, fault⟩
    simp only [channel, taken] at written
    cases fault with
    | none =>
      cases written
      simp [handed, Event.handed]
    | some fault => cases written
  partly := by
    intro outside bytes later fault written
    rcases taken : network.channel.write outside.peers bytes with ⟨peers, outcome⟩
    simp only [channel, taken] at written
    cases outcome with
    | none => cases written
    | some fault =>
      cases written
      exact ⟨[], List.nil_prefix, (List.append_nil _).symm⟩
  flush _ := rfl

/-- However far sending a request gets, a beginning of the request is handed over. -/
theorem events_send (network : Network σ) (request : Request) (ending : LineEnding)
    (outside : Outside σ) :
    ∃ sent, (request.send ending (channel network) outside).1.events = outside.events ++ sent ∧
      (∀ event ∈ sent, event.isHandover = true) ∧
      sent.flatMap Event.handed <+: request.wire ending := by
  obtain ⟨⟨sent, grown, handover⟩, -⟩ := HandsOver.send_request network request ending outside
  obtain ⟨part, begins, held⟩ := Request.begins_of_send (appends_channel network) request ending
    outside
  have same : sent.flatMap Event.handed = part := by
    rw [handed, grown, List.flatMap_append] at held
    exact List.append_cancel_left held
  exact ⟨sent, grown, handover, same ▸ begins⟩

end Outside

/-! ## Answers -/

structure Answer where
  head : Response
  before : Feed
  after : Feed
  divided : before.bytes = before.taken after ++ after.bytes

namespace Answer

def body (answer : Answer) : Bytes :=
  answer.before.taken answer.after

def response (answer : Answer) : Response :=
  { answer.head with content := .text (Text.latin1 answer.body) }

def events (target : Target) : Option Answer → List Event
  | none => []
  | some answer => [.answered target answer.head, .took answer.before answer.after]

/-- A response to an answer has the same head, and its text if that was wanted. -/
structure Gives (answer : Answer) (intake : Intake τ) (response : Response) : Prop where
  code : response.code = answer.head.code
  fields : response.fields = answer.head.fields
  text : intake = .text → response.text = answer.response.text

def IsSkipped (answer : Answer) : Prop :=
  answer.head.location?.isSome = true → answer.after = answer.before

end Answer

def Intake.isOutput : Intake τ → Bool
  | text => false
  | output _ => true

/-- The events of an exchange, with the answer that came, if one did. Bodies that go to an
output are `streams`. -/
inductive Course (config : Config) (streams : Bool) (target : Target) (request : Request) :
    Option Answer → List Event → Prop
  | unopened {events : List Event} (approach : Connection.Approach config target events false) :
      Course config streams target request none events
  | opened {front sent : List Event} {answer? : Option Answer}
      (approach : Connection.Approach config target front true)
      (handover : ∀ event ∈ sent, event.isHandover = true)
      (begins : sent.flatMap Event.handed <+: request.wire config.lineEnding)
      (skips : streams = true → ∀ answer, answer? = some answer → answer.IsSkipped) :
      Course config streams target request answer?
        (front ++ .asked target request :: sent ++ Answer.events target answer? ++ [.hungUp])

/-! ## Sessions -/

namespace Session

def note (session : Session) : Event → Session
  | .opened => { session with requestsSent := session.requestsSent + 1 }
  | .answered target head => session.receive target head
  | .took before after =>
    { session with bytesReceived := session.bytesReceived + (before.taken after).length }
  | .dialled .. | .connected | .wrote _ | .shook _ | .asked .. | .hungUp => session

def after (session : Session) (events : List Event) : Session :=
  events.foldl note session

theorem after_append (session : Session) (early late : List Event) :
    session.after (early ++ late) = (session.after early).after late :=
  List.foldl_append

/-- A head changes nothing of a session but the jar, the last status and the reports. -/
theorem receive_eq (session : Session) (target : Target) (head : Response) :
    session.receive target head =
      { session with
        jar := (session.receive target head).jar
        lastStatus := some head.code
        journal := (session.receive target head).journal } := by
  unfold receive absorb
  dsimp only
  split <;> rfl

/-- What no event changes is the same after any of them. -/
theorem kept_after {α : Type} {part : Session → α}
    (kept : ∀ session event, part (note session event) = part session) (session : Session)
    (events : List Event) : part (session.after events) = part session := by
  induction events generalizing session with
  | nil => rfl
  | cons event rest ih => exact (ih (session.note event)).trans (kept session event)

theorem config_after (session : Session) (events : List Event) :
    (session.after events).config = session.config := by
  refine kept_after (fun session event => ?_) session events
  cases event with
  | answered target head => rw [note, receive_eq]
  | _ => rfl

theorem now_after (session : Session) (events : List Event) :
    (session.after events).now = session.now := by
  refine kept_after (fun session event => ?_) session events
  cases event with
  | answered target head => rw [note, receive_eq]
  | _ => rfl

/-- The two differ at most in their random numbers, their last failure and their reports. -/
structure Agrees (left right : Session) : Prop where
  config : left.config = right.config
  jar : left.jar = right.jar
  now : left.now = right.now
  requestsSent : left.requestsSent = right.requestsSent
  bytesReceived : left.bytesReceived = right.bytesReceived
  lastStatus : left.lastStatus = right.lastStatus

namespace Agrees

variable {first second third : Session}

theorem refl (session : Session) : Agrees session session := ⟨rfl, rfl, rfl, rfl, rfl, rfl⟩

theorem trans (left : Agrees first second) (right : Agrees second third) : Agrees first third :=
  ⟨left.config.trans right.config, left.jar.trans right.jar, left.now.trans right.now,
    left.requestsSent.trans right.requestsSent, left.bytesReceived.trans right.bytesReceived,
    left.lastStatus.trans right.lastStatus⟩

theorem receive (agrees : Agrees first second) (target : Target) (head : Response) :
    Agrees (first.receive target head) (second.receive target head) := by
  have jar := agrees.jar
  unfold Session.receive absorb
  dsimp only
  rw [jar]
  cases second.jar with
  | none => exact ⟨agrees.config, rfl, agrees.now, agrees.requestsSent, agrees.bytesReceived, rfl⟩
  | some stored =>
    exact ⟨agrees.config, rfl, agrees.now, agrees.requestsSent, agrees.bytesReceived, rfl⟩

theorem note (agrees : Agrees first second) (event : Event) :
    Agrees (first.note event) (second.note event) := by
  cases event with
  | opened =>
    exact { agrees with requestsSent := congrArg (· + 1) agrees.requestsSent }
  | answered target head => exact agrees.receive target head
  | took before after =>
    exact { agrees with bytesReceived := congrArg (· + _) agrees.bytesReceived }
  | dialled | connected | wrote | shook | asked | hungUp => exact agrees

theorem after (agrees : Agrees first second) (events : List Event) :
    Agrees (first.after events) (second.after events) := by
  induction events generalizing first second with
  | nil => exact agrees
  | cons event rest ih => exact ih (agrees.note event)

/-- A request depends on nothing else of the session. -/
theorem request (agrees : Agrees first second) (method : Method) (target : Target)
    (referer : Option Text) :
    first.request method target referer = second.request method target referer := by
  unfold Session.request cookieField?
  rw [agrees.config, agrees.jar, agrees.now]

theorem attach (agrees : Agrees first second) (request : Request) (body : Body)
    (contentType : Option Text) :
    first.attach request body contentType = second.attach request body contentType := by
  unfold Session.attach
  rw [agrees.config]

end Agrees

theorem after_of_handover (session : Session) {events : List Event}
    (handover : ∀ event ∈ events, event.isHandover = true) : session.after events = session := by
  induction events with
  | nil => rfl
  | cons event rest ih =>
    obtain ⟨here, later⟩ := List.forall_mem_cons.1 handover
    have same : session.note event = session := by
      cases event <;> first | rfl | cases here
    rw [after, List.foldl_cons, same]
    exact ih later

/-- A connection that is ready counts as a request. -/
theorem after_of_approach (session : Session) {config : Config} {target : Target}
    {events : List Event} {isReady : Bool}
    (approach : Connection.Approach config target events isReady) :
    session.after events =
      if isReady then { session with requestsSent := session.requestsSent + 1 } else session := by
  cases approach with
  | unreached => rfl
  | @unready handed secure begins =>
    have same : session.after handed = session :=
      session.after_of_handover (Connection.handover_of_begins begins)
    rw [after_append]
    exact congrArg (note · .hungUp) same
  | ready =>
    have same : session.after (Connection.overture config target) = session :=
      session.after_of_handover (Connection.handover_overture config target)
    rw [after_append]
    exact congrArg (note · .opened) same

end Session

namespace Client

/-- From one moment to a later one a client has gone through some events, and its session
is what comes of them. -/
structure Reaches (before after : Client σ) (events : List Event) : Prop where
  outside : after.outside.events = before.outside.events ++ events
  files : after.outside.files = before.outside.files
  session : after.session.Agrees (before.session.after events)

namespace Reaches

variable {first second third : Client σ} {early late : List Event}

theorem of_agrees (outside : second.outside = first.outside)
    (session : second.session.Agrees first.session) : Reaches first second [] := by
  refine ⟨?_, congrArg Outside.files outside, session⟩
  rw [outside, List.append_nil]

theorem refl (client : Client σ) : Reaches client client [] := of_agrees rfl (.refl _)

theorem trans (left : Reaches first second early) (right : Reaches second third late) :
    Reaches first third (early ++ late) := by
  constructor
  · rw [right.outside, left.outside, List.append_assoc]
  · exact right.files.trans left.files
  · rw [Session.after_append]
    exact right.session.trans (left.session.after late)

theorem report (client : Client σ) (reports : Journal) :
    Reaches client (client.report reports) [] :=
  of_agrees rfl ⟨rfl, rfl, rfl, rfl, rfl, rfl⟩

theorem fail (client : Client σ) (failure : Failure) : Reaches client (client.fail failure) [] :=
  of_agrees rfl ⟨rfl, rfl, rfl, rfl, rfl, rfl⟩

theorem conclude (client : Client σ) (response : Response) (read : Reader.BodyRead Content) :
    Reaches client (client.conclude response read).1 [] := by
  unfold Client.conclude
  cases read.failure with
  | none => exact refl client
  | some failure =>
    dsimp only
    split
    · exact refl client
    · exact fail client failure

theorem receive (client : Client σ) (target : Target) (response : Response) :
    Reaches client (client.receive target response) [.answered target response] :=
  ⟨rfl, rfl, .refl _⟩

theorem take (client : Client σ) {before after : Reader} {part : Bytes}
    (fresh : before.received = 0) (takes : before.Takes part after) :
    Reaches client (client.take before after) [.took before.feed after.feed] := by
  have count : after.received = (before.feed.taken after.feed).length := by
    rw [Feed.taken_eq takes.feed, takes.received, fresh, Nat.zero_add]
  refine ⟨rfl, rfl, rfl, rfl, rfl, rfl, ?_, rfl⟩
  exact congrArg (client.session.bytesReceived + ·) count

end Reaches

end Client

/-! ## Responses -/

theorem Reader.takes_readContent (reader : Reader) (response : Response) (extent : Extent)
    (intake : Intake τ) (state : τ) :
    ∃ part, reader.Takes part (reader.readContent response extent intake state).2.1 ∧
      (intake = .text →
        (reader.readContent response extent intake state).1.value = .text (Text.latin1 part)) ∧
      (intake.isOutput = true → response.location?.isSome = true →
        (reader.readContent response extent intake state).2.1 = reader) := by
  cases intake with
  | text =>
    obtain ⟨part, value, takes⟩ := takes_readTextFrom reader extent []
    exact ⟨part, takes, fun _ => congrArg Content.text value, nofun⟩
  | output output =>
    unfold readContent
    cases away : response.location?.isSome with
    | true => exact ⟨[], .refl reader, nofun, fun _ _ => rfl⟩
    | false =>
      obtain ⟨part, takes⟩ := takes_copyFrom output state reader extent 0
      exact ⟨part, takes, nofun, nofun⟩

namespace Client

variable (network : Network σ) (client : Client σ) (target : Target) (request : Request)
  (intake : Intake τ) (state : τ)

private theorem of_conclude {client : Client σ} {response given : Response}
    {read : Reader.BodyRead Content} (concluded : (client.conclude response read).2 = .ok given) :
    given.code = response.code ∧ given.fields = response.fields ∧ given.content = read.value := by
  unfold conclude at concluded
  split at concluded
  · cases concluded
    exact ⟨rfl, rfl, rfl⟩
  · split at concluded
    · cases concluded
    · cases concluded
      exact ⟨rfl, rfl, rfl⟩

structure Hears (before after : Client σ) (outcome : Except Failure Response)
    (answer? : Option Answer) : Prop where
  reaches : Reaches before after (Answer.events target answer?)
  skips : intake.isOutput = true → ∀ answer, answer? = some answer → answer.IsSkipped
  gives : ∀ response, outcome = .ok response →
    ∃ answer, answer? = some answer ∧ answer.Gives intake response

theorem hears_listen (method : Method) :
    ∃ answer?, Hears target intake client (client.listen network target method intake state).1
      (client.listen network target method intake state).2.2 answer? := by
  have fresh := Reader.received_readResponse
    (Reader.start (client.outside.incoming network) client.session.config.timeout target.url) method
  rcases read : (Reader.start (client.outside.incoming network) client.session.config.timeout
    target.url).readResponse method with ⟨outcome, reader⟩
  rw [read] at fresh
  cases outcome with
  | error failure =>
    rw [listen_of_error client intake state read]
    exact ⟨none, .report client _, nofun, nofun⟩
  | ok response =>
    rw [listen_of_response client intake state read]
    obtain ⟨part, takes, value, skips⟩ := Reader.takes_readContent reader response
      (Extent.select method response.code response.fields) intake state
    rcases body : reader.readContent response
      (Extent.select method response.code response.fields) intake state with ⟨read, after, later⟩
    rw [body] at takes value skips
    let answer : Answer :=
      ⟨response, reader.feed, after.feed, by rw [Feed.taken_eq takes.feed, takes.feed]⟩
    have heard : Reaches client (((client.report reader.journal).receive target response).report
        (Extent.reports method response.code response.fields)) [.answered target response] :=
      ((Reaches.report client _).trans (.receive _ target response)).trans (.report _ _)
    refine ⟨some answer, ?_, ?_, ?_⟩
    · exact (heard.trans (.take _ fresh takes)).trans (.conclude _ response read)
    · rintro output _ ⟨⟩ away
      exact congrArg Reader.feed (skips output away)
    · intro given concluded
      refine ⟨answer, rfl, ?_⟩
      have text : Text.latin1 part = Text.latin1 answer.body := by
        rw [Answer.body, Feed.taken_eq takes.feed]
      obtain ⟨code, fields, content⟩ := of_conclude concluded
      refine ⟨code, fields, fun wanted => ?_⟩
      rw [Response.text, content, value wanted, text]
      rfl

section

variable {client}

private theorem reaches_opened {config : Config} {front : List Event} {outside : Outside σ}
    (approach : Connection.Approach config target front true)
    (approached : outside.events = client.outside.events ++ front)
    (files : outside.files = client.outside.files) :
    Reaches client (ask { client.report [.detail] with outside } target request)
      (front ++ [.asked target request]) := by
  refine ⟨?_, files, ?_⟩
  · simp [ask, approached]
  · rw [Session.after_append, Session.after_of_approach client.session approach]
    exact ⟨rfl, rfl, rfl, rfl, rfl, rfl⟩

private theorem reaches_sent {sent : List Event} {outside : Outside σ}
    (handover : ∀ event ∈ sent, event.isHandover = true)
    (grown : outside.events = client.outside.events ++ sent)
    (files : outside.files = client.outside.files) :
    Reaches client { client with outside } sent := by
  refine ⟨grown, files, ?_⟩
  rw [client.session.after_of_handover handover]
  exact .refl _

private theorem reaches_hangUp (client : Client σ) :
    Reaches client { client with outside := client.outside.hangUp network } [.hungUp] :=
  ⟨rfl, rfl, .refl _⟩

end

/-- Every exchange takes one of the courses, and the session makes of it what it makes of
the events. -/
theorem course_exchange :
    ∃ answer? events,
      Course client.session.config intake.isOutput target request answer? events ∧
      Reaches client (client.exchange network target request intake state).1 events ∧
      ∀ response, (client.exchange network target request intake state).2.2 = .ok response →
        ∃ answer, answer? = some answer ∧ answer.Gives intake response := by
  obtain ⟨files, front, approached, approach⟩ :=
    Connection.approach_connect network client.session.config target client.outside
  rcases opened : Connection.connect network client.session.config target client.outside with
    ⟨outside, outcome⟩
  rw [opened] at files approached approach
  cases outcome with
  | error failure =>
    rw [exchange_of_connect_error client request intake state opened]
    refine ⟨none, front, .unopened approach, ⟨approached, files, ?_⟩, nofun⟩
    rw [client.session.after_of_approach approach]
    exact ⟨rfl, rfl, rfl, rfl, rfl, rfl⟩
  | ok connection =>
    rw [exchange_of_connect client request intake state opened]
    let begun : Client σ := { client.report [.detail] with outside }
    have asked : Reaches client (begun.ask target request) (front ++ [.asked target request]) :=
      reaches_opened target request approach approached files
    obtain ⟨sent, grown, handover, begins⟩ := Outside.events_send network request
      begun.session.config.lineEnding (begun.ask target request).outside
    have unchanged := (Outside.HandsOver.send_request network request
      begun.session.config.lineEnding (begun.ask target request).outside).files
    rcases taken : request.send begun.session.config.lineEnding (Outside.channel network)
      (begun.ask target request).outside with ⟨later, result⟩
    rw [taken] at grown unchanged
    have handed := asked.trans (reaches_sent handover grown unchanged)
    cases result with
    | error failure =>
      rw [converse_of_send_error begun request intake state taken]
      refine ⟨none, _, .opened approach handover begins nofun, ?_, nofun⟩
      simpa [Answer.events] using handed.trans (reaches_hangUp network _)
    | ok count =>
      rw [converse_of_send begun request intake state taken]
      obtain ⟨answer?, heard⟩ := hears_listen network
        { begun.ask target request with outside := later } target intake state request.method
      refine ⟨answer?, _, .opened approach handover begins heard.skips, ?_, heard.gives⟩
      simpa using (handed.trans heard.reaches).trans (reaches_hangUp network _)

end Client

end WebClient
