import WebClient.Client.Call
import WebClient.Proofs.Trail

/-!
# Operations in sequence

A client carries out one operation after another, each a call or a download to any output.
The events of an operation are a trail of its own, and those of a whole session a history:
one exchange after another, each with a request that the session of that moment makes.
-/

set_option autoImplicit false

namespace WebClient

variable {σ : Type}

inductive Operation : Type 1
  | call (call : Call)
  | downloadTo {τ : Type} (url : Text) (output : Output τ) (state : τ)

def Call.method : Call → Method
  | get _ | getWith .. | download _ => .get
  | getShort _ => .shortGet
  | post .. | postBytes .. | postFile .. | postMultipart .. => .post
  | head _ => .head
  | put .. | putFile .. => .put

def Call.following : Call → Following
  | get _ | getWith .. | post .. | postBytes .. | postFile .. | postMultipart .. => .page
  | download _ => .location
  | getShort _ | head _ | put .. | putFile .. => .nothing

namespace Operation

def method : Operation → Method
  | .call asked => asked.method
  | .downloadTo .. => .get

def following : Operation → Following
  | .call asked => asked.following
  | .downloadTo .. => .location

end Operation

namespace Client

def operate (network : Network σ) (client : Client σ) : Operation → Client σ
  | .call call => (client.perform network call).1
  | .downloadTo url output state => (client.download network url output state).1

def operateAll (network : Network σ) (client : Client σ) (operations : List Operation) :
    Client σ :=
  operations.foldl (operate network) client

/-! ## Trails of operations -/

section

variable (network : Network σ) (client : Client σ)

/-- Before its own request an operation has done nothing but to report. -/
theorem onTrail_start (following : Following) (method : Method) {ready : Client σ}
    (reaches : Reaches client ready []) : OnTrail following method client ready [] :=
  ⟨reaches, .nil⟩

theorem isDue_own (following : Following) (method : Method) {ready : Client σ}
    (reaches : Reaches client ready []) (target : Target) (body : Body)
    (contentType : Option Text) :
    Trail.IsDue following method client.session [] target
      (ready.session.attach (ready.session.request method target none) body contentType) := by
  intro answer? events course
  rw [reaches.session.request, reaches.session.attach] at course
  exact .first course

/-- A request without a body is given none. -/
theorem isDue_bare (following : Following) (method : Method) {ready : Client σ}
    (reaches : Reaches client ready []) (target : Target) :
    Trail.IsDue following method client.session [] target
      (ready.session.request method target none) :=
  isDue_own client following method reaches target .empty none

private theorem continues_get (url : Text) :
    Continues .page .get client (client.get network url).1 [] := by
  have begun := Reaches.report client [.notice]
  obtain ⟨log, there⟩ := continues_fetch network (client.report [.notice]) url none client.budget []
    (onTrail_start client .page .get begun)
    fun target _ => isDue_bare client .page .get begun target
  exact ⟨log, there.still (.report _ [.notice])⟩

theorem continues_download {τ : Type} (url : Text) (output : Output τ) (state : τ) :
    Continues .location .get client (client.download network url output state).1 [] := by
  have begun := Reaches.report client [.notice]
  exact continues_downloadFrom network (client.report [.notice]) url none client.budget output state
    [] (onTrail_start client .location .get begun) fun target _ =>
      isDue_bare client .location .get begun target

private theorem continues_postBody {ready : Client σ} (reaches : Reaches client ready [])
    (url : Text) (body : Body) (contentType : Text) :
    Continues .page .post client (ready.postBody network url body contentType).1 [] := by
  have begun : Reaches client (ready.report [.notice]) [] := reaches.trans (.report ready _)
  have here := onTrail_start client .page .post begun
  unfold postBody
  dsimp only
  cases parsed : Target.parse url with
  | error failure => exact (here.still (.fail _ failure)).continues
  | ok target =>
    dsimp only
    cases entered : (ready.report [.notice]).budget.enter? with
    | none => exact (here.still (.fail _ _)).continues
    | some next =>
      exact continues_settle (follows_revisit network next.remaining .post client) network
        (Nat.le_refl _) here (isDue_own client .page .post begun target body (some contentType))

private theorem continues_roundTrip {ready : Client σ} (reaches : Reaches client ready [])
    (url : Text) (method : Method) (body : Body) (contentType : Option Text) :
    Continues .nothing method client
      (ready.roundTrip network url method body contentType).1 [] := by
  have here := onTrail_start client .nothing method reaches
  unfold roundTrip
  cases parsed : Target.parse url with
  | error failure => exact (here.still (.fail _ failure)).continues
  | ok target =>
    obtain ⟨events, there, -⟩ := here.exchange network target _ .text () rfl
      (isDue_own client .nothing method reaches target body contentType)
    dsimp only
    rcases sent : ready.exchange network target (ready.session.attach
      (ready.session.request method target none) body contentType) .text ()
      with ⟨later, ⟨⟩, outcome⟩
    rw [sent] at there
    cases outcome with
    | ok response => exact there.continues.of_append
    | error failure => exact (there.still (.fail later failure)).continues.of_append

private theorem continues_perform (call : Call) :
    Continues call.following call.method client (client.perform network call).1 [] := by
  have begun := Reaches.report client [.notice]
  cases call with
  | get url => exact continues_get network client url
  | getWith url params => exact continues_get network client _
  | getShort url => exact continues_roundTrip network client begun url .shortGet .empty none
  | download url => exact continues_download network client url Sink.output .unlimited
  | post url params => exact continues_postBody network client (.refl client) url _ _
  | postBytes url bytes contentType =>
    exact continues_postBody network client (.refl client) url (.bytes bytes) contentType
  | postFile url path contentType =>
    simp only [perform, postFile]
    cases client.fileBody path with
    | ok body => exact continues_postBody network client (.refl client) url body contentType
    | error failure =>
      exact (onTrail_start client .page .post (.fail client failure)).continues
  | postMultipart url parts types =>
    simp only [perform, postMultipart]
    cases Multipart.encode? parts types client.session.draws with
    | none => exact (onTrail_start client .page .post (.refl client)).continues
    | some form =>
      have drawn : Reaches client
          { client with session := { client.session with draws := form.2 } } [] :=
        .of_agrees rfl ⟨rfl, rfl, rfl, rfl, rfl, rfl⟩
      exact continues_postBody network client drawn url (.bytes form.1.body) form.1.contentType
  | head url => exact continues_roundTrip network client begun url .head .empty none
  | put url bytes contentType =>
    exact continues_roundTrip network client begun url .put (.bytes bytes) (some contentType)
  | putFile url path contentType =>
    simp only [perform, putFile]
    cases (client.report [.notice]).fileBody path with
    | error failure =>
      exact ((onTrail_start client .nothing .put begun).still (.fail _ failure)).continues
    | ok body =>
      exact continues_roundTrip network client begun url .put body (some contentType)

/-- The events of an operation are a trail, and its session is what comes of them. -/
theorem onTrail_operate (operation : Operation) :
    ∃ log, OnTrail operation.following operation.method client (client.operate network operation)
      log := by
  have further : Continues operation.following operation.method client
      (client.operate network operation) [] := by
    cases operation with
    | call call => exact continues_perform network client call
    | downloadTo url output state => exact continues_download network client url output state
  simpa only [Continues, List.nil_append] using further

end

end Client

/-! ## Histories -/

/-- The events of a session from its start. -/
inductive History (start : Session) : List Event → Prop
  | nil : History start []
  | exchange {log events : List Event} {streams : Bool} {method : Method} {target : Target}
      {referer : Option Text} {body : Body} {contentType : Option Text} {answer? : Option Answer}
      (past : History start log)
      (course : Course start.config streams target
        ((start.after log).attach ((start.after log).request method target referer) body
          contentType) answer? events) :
      History start (log ++ events)

/-- Whatever came before a trail, what follows from the two together is a history. -/
theorem History.trail {following : Following} {method : Method} {start begun : Session}
    {past log : List Event} (history : History start past)
    (agrees : begun.Agrees (start.after past)) (trail : Trail following method begun log) :
    History start (past ++ log) := by
  have config : begun.config = start.config := agrees.config.trans (start.config_after past)
  induction trail with
  | nil => rwa [List.append_nil]
  | first course =>
    rw [config, agrees.request, agrees.attach] at course
    exact history.exchange course
  | @onward log url referer target answer? events trail led parsed course ih =>
    have further : (begun.after log).Agrees (start.after (past ++ log)) := by
      rw [Session.after_append]
      exact agrees.after log
    have bare : (begun.after log).request .get target (some referer) =
        (start.after (past ++ log)).attach
          ((start.after (past ++ log)).request .get target (some referer)) .empty none :=
      further.request .get target (some referer)
    rw [config, bare] at course
    rw [← List.append_assoc]
    exact ih.exchange course

namespace Client

/-- However many operations are carried out, the events are a history, and the session is
what comes of them. -/
theorem history_operateAll (network : Network σ) (client : Client σ)
    (operations : List Operation) :
    ∃ log, Reaches client (client.operateAll network operations) log ∧
      History client.session log := by
  have onwards : ∀ (later : Client σ) (past : List Event), Reaches client later past →
      History client.session past →
      ∃ log, Reaches client (later.operateAll network operations) log ∧
        History client.session log := by
    induction operations with
    | nil => exact fun later past reaches history => ⟨past, reaches, history⟩
    | cons operation rest ih =>
      intro later past reaches history
      obtain ⟨log, there⟩ := onTrail_operate network later operation
      exact ih _ (past ++ log) (reaches.trans there.reaches)
        (history.trail reaches.session there.trail)
  exact onwards client [] (.refl client) .nil

end Client

end WebClient
