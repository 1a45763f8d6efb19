import WebClient.Network.Steady
import WebClient.Proofs.RequestLog

/-!
# Obstacles

What keeps a call from sending any request: its file cannot be opened, its URL is none, its
budget is empty, or no connection can be made ready. A call that meets an obstacle gives
nothing, and nothing of the session changes but the last failure.
-/

set_option autoImplicit false

namespace WebClient

variable {σ τ : Type}

def Call.url : Call → Text
  | get url | getShort url | download url | post url _ | postBytes url _ _ | postFile url _ _
  | postMultipart url _ _ | head url | put url _ _ | putFile url _ _ => url
  | getWith url params => Form.appendQuery url (Form.encode params)

def Call.path? : Call → Option Text
  | postFile _ path _ | putFile _ path _ => some path
  | _ => none

def Call.nothing : Call → Outcome
  | get _ | getWith .. | getShort _ | post .. | postBytes .. | postFile .. | postMultipart .. =>
    .text []
  | download _ => .bytes 0 []
  | head _ => .fields []
  | put .. | putFile .. => .created false

/-- The random numbers suffice for the boundary of a form with several parts. -/
def Call.IsDrawn (session : Session) : Call → Prop
  | postMultipart _ parts types => (Multipart.encode? parts types session.draws).isSome = true
  | _ => True

namespace Client

variable {network : Network σ} {client ready : Client σ} {url : Text} {isFollowed : Bool}
  {failure : Failure}

/-! ## What is in the way -/

/-- What keeps a request for a URL from being sent, by the failure that comes of it. Only a
request that may be followed by others needs a place in the budget. -/
inductive Barrier (network : Network σ) (client : Client σ) (url : Text) (isFollowed : Bool) :
    Failure → Prop
  | url {failure : Failure} (invalid : Target.parse url = .error failure) :
      Barrier network client url isFollowed failure
  | budget {target : Target} (parsed : Target.parse url = .ok target)
      (followed : isFollowed = true) (empty : client.session.config.recursionLimit = 0) :
      Barrier network client url isFollowed (.budgetSpent url 0)
  | connection {target : Target} {failure : Failure} (parsed : Target.parse url = .ok target)
      (affordable : isFollowed = true → client.session.config.recursionLimit ≠ 0)
      (hindered : Connection.Hindrance network client.session.config target client.outside
        failure) :
      Barrier network client url isFollowed failure

/-- What keeps a call from sending a request. The file that is to be sent is looked for before
anything else. -/
inductive Obstacle (network : Network σ) (client : Client σ) (call : Call) : Failure → Prop
  | file {path : Text} {fault : IoFault} (sends : call.path? = some path)
      (unopened : client.outside.files.find path = .error fault) :
      Obstacle network client call (.io fault)
  | barrier {failure : Failure}
      (opens : ∀ path, call.path? = some path → ∃ node, client.outside.files.find path = .ok node)
      (barrier : Barrier network client call.url call.isFollowed failure) :
      Obstacle network client call failure

structure Resembles (ready client : Client σ) : Prop where
  outside : ready.outside = client.outside
  session : ready.session =
    { client.session with draws := ready.session.draws, journal := ready.session.journal }

namespace Resembles

theorem refl (client : Client σ) : Resembles client client := ⟨rfl, rfl⟩

theorem report (resembles : Resembles ready client) (reports : Journal) :
    Resembles (ready.report reports) client :=
  ⟨resembles.outside, congrArg (Session.report · reports) resembles.session⟩

private theorem draw (client : Client σ) (draws : Multipart.Draws) :
    Resembles { client with session := { client.session with draws } } client :=
  ⟨rfl, rfl⟩

theorem config (resembles : Resembles ready client) :
    ready.session.config = client.session.config := by
  rw [resembles.session]

end Resembles

theorem Barrier.of_resembles (barrier : Barrier network client url isFollowed failure)
    (resembles : Resembles ready client) : Barrier network ready url isFollowed failure := by
  have config := resembles.config
  cases barrier with
  | url invalid => exact .url invalid
  | budget parsed followed empty => exact .budget parsed followed (config ▸ empty)
  | connection parsed affordable hindered =>
    exact .connection parsed (config ▸ affordable) (config ▸ resembles.outside ▸ hindered)

/-- From one moment to a later one a client has only failed. On the network it has at most tried
to make a connection ready. -/
structure Fails (before after : Client σ) (failure : Failure) : Prop where
  session : after.session =
    { before.session with
      draws := after.session.draws
      lastFailure := some failure
      journal := after.session.journal }
  files : after.outside.files = before.outside.files
  events : ∃ log, after.outside.events = before.outside.events ++ log ∧
    (log = [] ∨ ∃ target, Connection.Approach before.session.config target log false)

namespace Fails

theorem fail (client : Client σ) (failure : Failure) : Fails client (client.fail failure) failure :=
  ⟨rfl, rfl, [], (List.append_nil _).symm, .inl rfl⟩

theorem of_resembles {after : Client σ} (fails : Fails ready after failure)
    (resembles : Resembles ready client) : Fails client after failure := by
  refine ⟨?_, resembles.outside ▸ fails.files, ?_⟩
  · rw [fails.session, resembles.session]
  · rw [← resembles.outside, ← resembles.config]
    exact fails.events

theorem report {after : Client σ} (fails : Fails client after failure) (reports : Journal) :
    Fails client (after.report reports) failure :=
  ⟨congrArg (Session.report · reports) fails.session, fails.files, fails.events⟩

/-- Where no connection can be made ready an exchange fails, and its output is given nothing. -/
theorem exchange {target : Target}
    (hindered : Connection.Hindrance network client.session.config target client.outside failure)
    (request : Request) (intake : Intake τ) (state : τ) :
    ∃ later, client.exchange network target request intake state = (later, state, .error failure) ∧
      Fails client (later.fail failure) failure := by
  obtain ⟨outside, unready⟩ := hindered.connect
  obtain ⟨files, log, grown, approach⟩ :=
    Connection.approach_connect network client.session.config target client.outside
  rw [unready] at files grown approach
  exact ⟨_, exchange_of_connect_error client request intake state unready,
    rfl, files, log, grown, .inr ⟨target, approach⟩⟩

end Fails

/-! ## Meeting an obstacle -/

private theorem downloadFrom_of_spent (client : Client σ) {url : Text} (referer : Option Text)
    {budget : Budget} (output : Output τ) (state : τ) {target : Target}
    (parsed : Target.parse url = .ok target) (spent : budget.enter? = none) :
    downloadFrom network client url referer budget output state =
      (client.fail (.budgetSpent url budget.limit), state, 0) := by
  rw [downloadFrom, parsed]
  dsimp only
  split
  · rfl
  · simp_all

section Meeting

variable (network client url) (barrier : Barrier network client url true failure)

include barrier

private theorem fails_fetch (referer : Option Text) :
    ∃ later left, (fetch network client url referer client.budget).result = (later, [], left) ∧
      Fails client later failure := by
  cases barrier with
  | url invalid =>
    exact ⟨_, _, result_fetch_of_invalid network client referer client.budget invalid,
      .fail client failure⟩
  | budget parsed followed empty =>
    have spent := enter?_budget_eq_none_iff.2 empty
    rw [result_fetch_of_spent network client referer parsed spent]
    exact ⟨_, _, rfl, empty ▸ .fail client _⟩
  | @connection target failure parsed affordable hindered =>
    obtain ⟨next, entered⟩ := exists_enter?_budget (affordable rfl)
    obtain ⟨later, exchanged, fails⟩ := Fails.exchange hindered
      (client.session.request .get target referer) .text ()
    rw [result_fetch network client referer parsed entered]
    exact ⟨_, _, result_settle_of_error _ (Nat.le_refl _) exchanged, fails⟩

private theorem fails_get : Fails client (client.get network url).1 failure ∧
    (client.get network url).2 = [] := by
  obtain ⟨later, left, fetched, fails⟩ := fails_fetch network (client.report [.notice]) url
    (barrier.of_resembles (.report (.refl client) _)) none
  cases congrArg Prod.fst fetched
  exact ⟨(fails.report [.notice]).of_resembles (.report (.refl client) _),
    congrArg (·.2.1) fetched⟩

private theorem fails_downloadFrom (referer : Option Text) (output : Output τ) (state : τ) :
    ∃ later, downloadFrom network client url referer client.budget output state =
        (later, state, 0) ∧
      Fails client later failure := by
  cases barrier with
  | url invalid =>
    rw [downloadFrom, invalid]
    exact ⟨_, rfl, .fail client failure⟩
  | budget parsed followed empty =>
    have spent := enter?_budget_eq_none_iff.2 empty
    rw [downloadFrom_of_spent client referer output state parsed spent]
    exact ⟨_, rfl, empty ▸ .fail client _⟩
  | @connection target failure parsed affordable hindered =>
    obtain ⟨next, entered⟩ := exists_enter?_budget (affordable rfl)
    obtain ⟨later, exchanged, fails⟩ := Fails.exchange hindered
      (client.session.request .get target referer) (.output output) state
    rw [downloadFrom_of_entered client referer output state parsed entered, exchanged]
    exact ⟨_, rfl, fails⟩

theorem fails_download (output : Output τ) (state : τ) :
    Fails client (client.download network url output state).1 failure ∧
      (client.download network url output state).2 = (state, 0) := by
  have reports : Resembles (client.report [.notice]) client := .report (.refl client) _
  obtain ⟨later, copied, fails⟩ := fails_downloadFrom network (client.report [.notice]) url
    (barrier.of_resembles reports) none output state
  have same : client.download network url output state = (later, state, 0) := copied
  rw [same]
  exact ⟨fails.of_resembles reports, rfl⟩

private theorem fails_postBody (body : Body) (contentType : Text) :
    Fails client (client.postBody network url body contentType).1 failure ∧
      (client.postBody network url body contentType).2 = [] := by
  have reports : Resembles (client.report [.notice]) client := .report (.refl client) _
  cases barrier with
  | url invalid =>
    simp only [postBody, invalid]
    exact ⟨(Fails.fail _ failure).of_resembles reports, trivial⟩
  | budget parsed followed empty =>
    have spent : (client.report [.notice]).budget.enter? = none :=
      enter?_budget_eq_none_iff.2 empty
    simp only [postBody, parsed, spent]
    exact ⟨(empty ▸ Fails.fail _ _ : Fails _ _ (.budgetSpent url 0)).of_resembles reports, trivial⟩
  | @connection target failure parsed affordable hindered =>
    obtain ⟨next, entered⟩ := exists_enter?_budget (affordable rfl)
    have begun : Connection.Hindrance network (client.report [.notice]).session.config target
      (client.report [.notice]).outside failure := hindered
    obtain ⟨later, exchanged, fails⟩ := Fails.exchange begun
      (client.session.attach (client.session.request .post target none) body (some contentType))
      .text ()
    rw [postBody_of_entered network client parsed entered body contentType,
      result_settle_of_error (revisit network next.remaining) (Nat.le_refl _) exchanged]
    exact ⟨fails.of_resembles reports, rfl⟩

end Meeting

private theorem fails_roundTrip (network : Network σ) (client : Client σ) (url : Text)
    (barrier : Barrier network client url false failure) (method : Method) (body : Body)
    (contentType : Option Text) :
    ∃ later, client.roundTrip network url method body contentType = (later, none) ∧
      Fails client later failure := by
  unfold roundTrip
  cases barrier with
  | url invalid =>
    rw [invalid]
    exact ⟨_, rfl, .fail client failure⟩
  | budget parsed followed empty => cases followed
  | @connection target failure parsed affordable hindered =>
    obtain ⟨later, exchanged, fails⟩ := Fails.exchange hindered
      (client.session.attach (client.session.request method target none) body contentType) .text ()
    rw [parsed]
    dsimp only
    rw [exchanged]
    exact ⟨_, rfl, fails⟩

private theorem fileBody_of_error {path : Text} {fault : IoFault}
    (unopened : client.outside.files.find path = .error fault) :
    client.fileBody path = .error (.io fault) := by
  rw [fileBody, unopened]

private theorem exists_fileBody {path : Text}
    (opens : ∃ node, client.outside.files.find path = .ok node) :
    ∃ body, client.fileBody path = .ok body := by
  obtain ⟨node, found⟩ := opens
  rw [fileBody, found]
  cases node <;> exact ⟨_, rfl⟩

/-! ## The ways of calls -/

/-- The four ways in which calls reach the network, once the file that is to be sent has been
opened and the boundary of a form has been drawn. -/
inductive Way (network : Network σ) (client : Client σ) (call : Call) : Prop
  | page (followed : call.isFollowed = true) (nothing : call.nothing = .text [])
      (same : client.perform network call = (client.get network call.url).map id .text)
  | copy (followed : call.isFollowed = true) (nothing : call.nothing = .bytes 0 [])
      (same : client.perform network call =
        let copy := client.download network call.url Sink.output .unlimited
        (copy.1, .bytes copy.2.2 copy.2.1.held))
  | post {ready : Client σ} (body : Body) (contentType : Text)
      (resembles : Resembles ready client)
      (followed : call.isFollowed = true) (nothing : call.nothing = .text [])
      (same : client.perform network call =
        (ready.postBody network call.url body contentType).map id .text)
  | single {ready : Client σ} (method : Method) (body : Body) (contentType : Option Text)
      (outcome : Option Response → Outcome) (resembles : Resembles ready client)
      (single : call.isFollowed = false) (nothing : call.nothing = outcome none)
      (same : client.perform network call =
        (ready.roundTrip network call.url method body contentType).map id outcome)

theorem way_of_opens (network : Network σ) {call : Call} (drawn : call.IsDrawn client.session)
    (opens : ∀ path, call.path? = some path → ∃ node, client.outside.files.find path = .ok node) :
    Way network client call := by
  have reports : Resembles (client.report [.notice]) client := .report (.refl client) _
  cases call with
  | get url => exact .page rfl rfl rfl
  | getWith url params => exact .page rfl rfl rfl
  | download url => exact .copy rfl rfl rfl
  | post url params => exact .post _ _ (.refl client) rfl rfl rfl
  | postBytes url bytes contentType => exact .post _ _ (.refl client) rfl rfl rfl
  | postFile url path contentType =>
    obtain ⟨body, content⟩ := exists_fileBody (opens path rfl)
    refine .post body contentType (.refl client) rfl rfl ?_
    simp only [perform, postFile, content]
    rfl
  | postMultipart url parts types =>
    obtain ⟨⟨encoded, draws⟩, form⟩ := Option.isSome_iff_exists.1 drawn
    refine .post (.bytes encoded.body) encoded.contentType (.draw client draws) rfl rfl ?_
    simp only [perform, postMultipart, form]
    rfl
  | getShort url =>
    exact .single .shortGet .empty none
      (fun response => .text ((response.map Response.text).getD [])) reports rfl rfl rfl
  | head url =>
    exact .single .head .empty none
      (fun response => .fields ((response.map Response.fields).getD [])) reports rfl rfl rfl
  | put url bytes contentType =>
    exact .single .put (.bytes bytes) (some contentType)
      (fun response => .created (isCreated response)) reports rfl rfl rfl
  | putFile url path contentType =>
    obtain ⟨body, content⟩ : ∃ body, (client.report [.notice]).fileBody path = .ok body :=
      exists_fileBody (opens path rfl)
    refine .single .put body (some contentType)
      (fun response => .created (isCreated response)) reports rfl rfl ?_
    simp only [perform, putFile, content]
    rfl

/-- A call whose file cannot be opened fails at once. -/
theorem fails_perform_of_unopened {call : Call} {path : Text} {fault : IoFault}
    (sends : call.path? = some path) (unopened : client.outside.files.find path = .error fault) :
    Fails client (client.perform network call).1 (.io fault) ∧
      (client.perform network call).2 = call.nothing := by
  cases call with
  | postFile url path contentType =>
    cases sends
    simp only [perform, postFile, fileBody_of_error unopened]
    exact ⟨.fail client _, rfl⟩
  | putFile url path contentType =>
    cases sends
    have begun : (client.report [.notice]).fileBody path = .error (.io fault) :=
      fileBody_of_error unopened
    simp only [perform, putFile, begun]
    exact ⟨(Fails.fail _ _).of_resembles (.report (.refl client) _), rfl⟩
  | _ => cases sends

/-- A call that meets an obstacle fails and gives nothing. -/
theorem fails_perform {call : Call} (drawn : call.IsDrawn client.session)
    (obstacle : Obstacle network client call failure) :
    Fails client (client.perform network call).1 failure ∧
      (client.perform network call).2 = call.nothing := by
  cases obstacle with
  | file sends unopened => exact fails_perform_of_unopened sends unopened
  | barrier opens barrier =>
    cases way_of_opens network drawn opens with
    | page followed nothing same =>
      rw [followed] at barrier
      obtain ⟨fails, empty⟩ := fails_get network client call.url barrier
      rw [same, nothing]
      exact ⟨fails, congrArg Outcome.text empty⟩
    | copy followed nothing same =>
      rw [followed] at barrier
      obtain ⟨fails, untouched⟩ :=
        fails_download network client call.url barrier Sink.output .unlimited
      rw [same, nothing]
      refine ⟨fails, ?_⟩
      simp only [untouched]
      rfl
    | @post ready body contentType resembles followed nothing same =>
      rw [followed] at barrier
      obtain ⟨fails, empty⟩ := fails_postBody network ready call.url
        (barrier.of_resembles resembles) body contentType
      rw [same, nothing]
      exact ⟨fails.of_resembles resembles, congrArg Outcome.text empty⟩
    | @single ready method body contentType outcome resembles single nothing same =>
      rw [single] at barrier
      obtain ⟨later, unanswered, fails⟩ := fails_roundTrip network ready call.url
        (barrier.of_resembles resembles) method body contentType
      rw [same, nothing, unanswered]
      exact ⟨fails.of_resembles resembles, rfl⟩

/-! ## Asking -/

/-- From one moment to a later one a request was sent, or begun to be sent. -/
def Asks (before after : Client σ) : Prop :=
  ∃ log, after.outside.events = before.outside.events ++ log ∧
    ∃ event ∈ log, event.isAsked = true

theorem Asks.onward {before between after : Client σ} (asks : Asks before between)
    (later : between.outside.events <+: after.outside.events) : Asks before after := by
  obtain ⟨log, grown, event, listed, asked⟩ := asks
  obtain ⟨more, further⟩ := later
  refine ⟨log ++ more, ?_, event, List.mem_append_left more listed, asked⟩
  rw [← further, grown, List.append_assoc]

theorem Fails.not_asks {after : Client σ} (fails : Fails client after failure) :
    ¬ Asks client after := by
  rintro ⟨log, grown, event, listed, asked⟩
  obtain ⟨trace, same, silent⟩ := fails.events
  obtain rfl : log = trace := List.append_cancel_left (grown.symm.trans same)
  rcases silent with rfl | ⟨target, approach⟩
  · cases listed
  · rw [Event.isAsked_of_not_isSpoken (approach.not_isSpoken event listed)] at asked
    cases asked

/-- Over a connection that is ready the request is asked, whatever comes of it. -/
theorem asks_exchange {target : Target} {outside : Outside σ} {connection : Connection}
    (opened : Connection.connect network client.session.config target client.outside =
      (outside, .ok connection))
    (request : Request) (intake : Intake τ) (state : τ) :
    Asks client (client.exchange network target request intake state).1 := by
  obtain ⟨-, front, approached, -⟩ :=
    Connection.approach_connect network client.session.config target client.outside
  rw [opened] at approached
  let begun : Client σ := { client.report [.detail] with outside }
  obtain ⟨sent, grown, -⟩ := Outside.events_send network request begun.session.config.lineEnding
    (begun.ask target request).outside
  rw [exchange_of_connect client request intake state opened]
  rcases taken : request.send begun.session.config.lineEnding (Outside.channel network)
    (begun.ask target request).outside with ⟨later, result⟩
  rw [taken] at grown
  have asked : later.events =
      client.outside.events ++ (front ++ .asked target request :: sent) := by
    have reached : outside.events = client.outside.events ++ front := approached
    rw [grown]
    simp [ask, begun, reached]
  -- The request is among the events from here on, and whatever follows only adds to them.
  cases result with
  | error failure =>
    rw [converse_of_send_error begun request intake state taken]
    refine ⟨front ++ .asked target request :: sent ++ [.hungUp], ?_, .asked target request, ?_, rfl⟩
    · simp [asked]
    · simp
  | ok count =>
    rw [converse_of_send begun request intake state taken]
    obtain ⟨answer?, heard⟩ := hears_listen network
      { begun.ask target request with outside := later } target intake state request.method
    refine ⟨front ++ .asked target request :: sent ++ Answer.events target answer? ++ [.hungUp], ?_,
      .asked target request, ?_, rfl⟩
    · simp [heard.reaches.outside, asked]
    · simp

/-! ## What was noted stays noted -/

theorem prefix_exchange (network : Network σ) (client : Client σ) (target : Target)
    (request : Request) (intake : Intake τ) (state : τ) :
    client.outside.events <+:
      (client.exchange network target request intake state).1.outside.events := by
  obtain ⟨answer?, events, course, reaches, gives⟩ :=
    course_exchange network client target request intake state
  exact ⟨events, reaches.outside.symm⟩

def Visit.Adds {bound : Nat} (visit : Visit σ bound) : Prop :=
  ∀ client url referer budget within,
    client.outside.events <+: (visit client url referer budget within).result.1.outside.events

section Adding

variable {bound : Nat} {visit : Visit σ bound} (adds : Visit.Adds visit)

include adds

private theorem prefix_visitFrames (target : Target) (frames : List Markup.Frame)
    (client : Client σ) (budget : Budget) (within : budget.remaining ≤ bound) :
    client.outside.events <+:
      (visitFrames visit target frames client budget within).result.1.outside.events := by
  induction frames generalizing client budget with
  | nil => exact List.prefix_rfl
  | cons frame rest ih => exact (adds client _ target.url budget within).trans (ih _ _ _)

private theorem prefix_inlineFrames (target : Target) (client : Client σ) (text : Text)
    (budget : Budget) (within : budget.remaining ≤ bound) :
    client.outside.events <+:
      (inlineFrames visit target client text budget within).result.1.outside.events := by
  unfold inlineFrames
  split
  · exact prefix_visitFrames adds target (Markup.frames text) client budget within
  · exact List.prefix_rfl

/-- Whatever a response calls for is added to the events of its exchange. -/
theorem prefix_settle (network : Network σ) (client : Client σ) (target : Target)
    (request : Request) (budget : Budget) (within : budget.remaining ≤ bound) :
    (client.exchange network target request .text ()).1.outside.events <+:
      (settle network visit client target request budget within).result.1.outside.events := by
  unfold settle
  rcases client.exchange network target request .text () with ⟨later, ⟨⟩, outcome⟩
  cases outcome with
  | error failure => exact List.prefix_rfl
  | ok response =>
    dsimp only
    cases response.followUp? target later.session.config with
    | some next => exact adds later next.url target.url budget within
    | none => exact prefix_inlineFrames adds target later response.text budget within

end Adding

private theorem prefix_fetch (network : Network σ) (client : Client σ) (url : Text)
    (referer : Option Text) (budget : Budget) :
    client.outside.events <+:
      (fetch network client url referer budget).result.1.outside.events := by
  induction client, url, referer, budget using fetch.induct network with
  | case1 client url referer budget failure invalid =>
    rw [result_fetch_of_invalid network client referer budget invalid]
    exact List.prefix_rfl
  | case2 client url referer budget target parsed spent =>
    rw [result_fetch_of_spent network client referer parsed spent]
    exact List.prefix_rfl
  | case3 client url referer budget target parsed next entered fewer ih =>
    rw [result_fetch network client referer parsed entered]
    have adds : Visit.Adds (revisit network next.remaining) :=
      fun client url referer left within => ih client url referer left within
    exact (prefix_exchange network client target _ .text ()).trans
      (prefix_settle adds network client target _ next (Nat.le_refl _))

theorem adds_revisit (network : Network σ) (bound : Nat) : Visit.Adds (revisit network bound) :=
  fun client url referer left _ => prefix_fetch network client url (some referer) left

private theorem prefix_downloadFrom (network : Network σ) (client : Client σ) (url : Text)
    (referer : Option Text) (budget : Budget) (output : Output τ) (state : τ) :
    client.outside.events <+:
      (downloadFrom network client url referer budget output state).1.outside.events := by
  fun_induction downloadFrom network client url referer budget output state with
  | case1 | case2 => exact List.prefix_rfl
  | case3 client url referer budget state target parsed next entered later held failure sent =>
    have begun := prefix_exchange network client target
      (client.session.request .get target referer) (.output output) state
    rwa [sent] at begun
  | case4 client url referer budget state target parsed next entered later held response sent
      location refers ih =>
    have begun := prefix_exchange network client target
      (client.session.request .get target referer) (.output output) state
    rw [sent] at begun
    exact begun.trans ih
  | case5 client url referer budget state target parsed next entered later held response sent
      settled =>
    have begun := prefix_exchange network client target
      (client.session.request .get target referer) (.output output) state
    rwa [sent] at begun

/-! ## Meeting none -/

structure Passes (network : Network σ) (client : Client σ) (url : Text) (isFollowed : Bool)
    (target : Target) (outside : Outside σ) (connection : Connection) : Prop where
  parsed : Target.parse url = .ok target
  affordable : isFollowed = true → client.session.config.recursionLimit ≠ 0
  opened : Connection.connect network client.session.config target client.outside =
    (outside, .ok connection)

theorem Passes.of_resembles {target : Target} {outside : Outside σ} {connection : Connection}
    (passes : Passes network client url isFollowed target outside connection)
    (resembles : Resembles ready client) :
    Passes network ready url isFollowed target outside connection := by
  have config := resembles.config
  exact ⟨passes.parsed, config ▸ passes.affordable,
    config ▸ resembles.outside ▸ passes.opened⟩

theorem barrier_or_passes (network : Network σ) (client : Client σ) (url : Text)
    (isFollowed : Bool) :
    (∃ failure, Barrier network client url isFollowed failure) ∨
      ∃ target outside connection,
        Passes network client url isFollowed target outside connection := by
  cases parsed : Target.parse url with
  | error failure => exact .inl ⟨failure, .url parsed⟩
  | ok target =>
    by_cases affordable : isFollowed = true → client.session.config.recursionLimit ≠ 0
    · rcases made : Connection.connect network client.session.config target client.outside with
        ⟨outside, failure | connection⟩
      · exact .inl ⟨failure, .connection parsed affordable (Connection.hindrance_of_connect made)⟩
      · exact .inr ⟨target, outside, connection, parsed, affordable, made⟩
    · obtain ⟨followed, empty⟩ := Classical.not_imp.1 affordable
      exact .inl ⟨_, .budget parsed followed (not_not.1 empty)⟩

section Passing

variable {target : Target} {outside : Outside σ} {connection : Connection}
  (passes : Passes network client url true target outside connection)

include passes

theorem Passes.enters : ∃ next, client.budget.enter? = some next :=
  exists_enter?_budget (passes.affordable rfl)

private theorem asks_get : Asks client (client.get network url).1 := by
  obtain ⟨next, entered⟩ := passes.enters
  have begun := passes.of_resembles (.report (.refl client) [.notice])
  have fetched := result_fetch network (client.report [.notice]) none passes.parsed entered
  have asks := (asks_exchange begun.opened
    ((client.report [.notice]).session.request .get target none) .text ()).onward
    (prefix_settle (adds_revisit network next.remaining) network _ target _ next (Nat.le_refl _))
  rw [← fetched] at asks
  exact asks

theorem asks_download (output : Output τ) (state : τ) :
    Asks client (client.download network url output state).1 := by
  obtain ⟨next, entered⟩ := passes.enters
  have begun := passes.of_resembles (.report (.refl client) [.notice])
  have asks := asks_exchange begun.opened
    ((client.report [.notice]).session.request .get target none) (.output output) state
  have taken : (client.report [.notice]).budget.enter? = some next := entered
  unfold download
  dsimp only
  rw [downloadFrom_of_entered (client.report [.notice]) none output state passes.parsed taken]
  rcases sent : (client.report [.notice]).exchange network target
    ((client.report [.notice]).session.request .get target none) (.output output) state
    with ⟨later, held, failure | response⟩
  · rwa [sent] at asks
  · rw [sent] at asks
    dsimp only
    split
    · exact asks.onward (prefix_downloadFrom network later _ _ next output held)
    · exact asks

private theorem asks_postBody (body : Body) (contentType : Text) :
    Asks client (client.postBody network url body contentType).1 := by
  obtain ⟨next, entered⟩ := passes.enters
  have begun := passes.of_resembles (.report (.refl client) [.notice])
  rw [postBody_of_entered network client passes.parsed entered body contentType]
  exact (asks_exchange begun.opened _ .text ()).onward
    (prefix_settle (adds_revisit network next.remaining) network (client.report [.notice]) target
      _ next (Nat.le_refl _))

end Passing

private theorem asks_roundTrip {target : Target} {outside : Outside σ} {connection : Connection}
    (passes : Passes network client url false target outside connection) (method : Method)
    (body : Body) (contentType : Option Text) :
    Asks client (client.roundTrip network url method body contentType).1 := by
  have asks := asks_exchange passes.opened
    (client.session.attach (client.session.request method target none) body contentType) .text ()
  unfold roundTrip
  rw [passes.parsed]
  dsimp only
  rcases sent : client.exchange network target
    (client.session.attach (client.session.request method target none) body contentType) .text ()
    with ⟨later, held, failure | response⟩
  · rw [sent] at asks
    exact asks
  · rw [sent] at asks
    exact asks

theorem Asks.of_resembles {after : Client σ} (asks : Asks ready after)
    (resembles : Resembles ready client) : Asks client after := by
  rwa [Asks, ← resembles.outside]

/-- A call whose file opens and which nothing else keeps from asking asks. -/
theorem asks_perform {call : Call} (drawn : call.IsDrawn client.session)
    (opens : ∀ path, call.path? = some path → ∃ node, client.outside.files.find path = .ok node)
    {target : Target} {outside : Outside σ} {connection : Connection}
    (passes : Passes network client call.url call.isFollowed target outside connection) :
    Asks client (client.perform network call).1 := by
  cases way_of_opens network drawn opens with
  | page followed nothing same =>
    rw [followed] at passes
    rw [same]
    exact asks_get passes
  | copy followed nothing same =>
    rw [followed] at passes
    rw [same]
    exact asks_download passes Sink.output .unlimited
  | @post ready body contentType resembles followed nothing same =>
    rw [followed] at passes
    rw [same]
    exact (asks_postBody (passes.of_resembles resembles) body contentType).of_resembles resembles
  | @single ready method body contentType outcome resembles single nothing same =>
    rw [single] at passes
    rw [same]
    exact (asks_roundTrip (passes.of_resembles resembles) method body contentType).of_resembles
      resembles

/-- A call that asks nothing has met an obstacle. -/
theorem obstacle_or_asks_perform (network : Network σ) {call : Call}
    (drawn : call.IsDrawn client.session) :
    (∃ failure, Obstacle network client call failure) ∨
      Asks client (client.perform network call).1 := by
  by_cases opens : ∀ path, call.path? = some path →
      ∃ node, client.outside.files.find path = .ok node
  · rcases barrier_or_passes network client call.url call.isFollowed with
      ⟨failure, barrier⟩ | ⟨target, outside, connection, passes⟩
    · exact .inl ⟨failure, .barrier opens barrier⟩
    · exact .inr (asks_perform drawn opens passes)
  · push Not at opens
    obtain ⟨path, sends, missing⟩ := opens
    cases found : client.outside.files.find path with
    | error fault => exact .inl ⟨.io fault, .file sends found⟩
    | ok node => exact absurd found (missing node)

private theorem obstacle_or_asks_download (network : Network σ) (client : Client σ) (url : Text)
    (output : Output τ) (state : τ) :
    (∃ failure, Obstacle network client (.download url) failure) ∨
      Asks client (client.download network url output state).1 := by
  rcases barrier_or_passes network client url true with
    ⟨failure, barrier⟩ | ⟨target, outside, connection, passes⟩
  · exact .inl ⟨failure, .barrier nofun barrier⟩
  · exact .inr (asks_download passes output state)

/-! ## Calls that ask nothing -/

/-- A call, or a download to any output, asks nothing exactly if it meets an obstacle. What
comes of it is nothing then, its failure is the last of the session, and the session is
otherwise as before: the jar, the counts, the last status and the configuration. -/
theorem fails_iff_not_asks (network : Network σ) (client : Client σ) :
    (∀ call : Call, call.IsDrawn client.session →
      (∀ failure, Obstacle network client call failure →
        (client.perform network call).2 = call.nothing ∧
          Fails client (client.perform network call).1 failure) ∧
      ((∃ failure, Obstacle network client call failure) ↔
        ¬ Asks client (client.perform network call).1)) ∧
    ∀ (url : Text) (output : Output τ) (state : τ),
      (∀ failure, Obstacle network client (.download url) failure →
        (client.download network url output state).2 = (state, 0) ∧
          Fails client (client.download network url output state).1 failure) ∧
      ((∃ failure, Obstacle network client (.download url) failure) ↔
        ¬ Asks client (client.download network url output state).1) := by
  constructor
  · intro call drawn
    refine ⟨fun failure obstacle => (fails_perform drawn obstacle).symm, ?_⟩
    constructor
    · rintro ⟨failure, obstacle⟩
      exact (fails_perform drawn obstacle).1.not_asks
    · exact (obstacle_or_asks_perform network drawn).resolve_right
  · intro url output state
    have fails : ∀ failure, Obstacle network client (.download url) failure →
        Fails client (client.download network url output state).1 failure ∧
          (client.download network url output state).2 = (state, 0) := by
      rintro failure (⟨sends, -⟩ | ⟨-, barrier⟩)
      · cases sends
      · exact fails_download network client url barrier output state
    refine ⟨fun failure obstacle => (fails failure obstacle).symm, ?_⟩
    constructor
    · rintro ⟨failure, obstacle⟩
      exact (fails failure obstacle).1.not_asks
    · exact (obstacle_or_asks_download network client url output state).resolve_right

/-- Behind a proxy the line that asks for a tunnel is not taken in time, or it is and the
handshake fails; a file is missing; a URL is none. -/
theorem fails_iff_not_asks_of_proxy :
    let slow : Network Unit := { Network.steady [] with tunnel _ _ := ((), .unanswered) }
    let network : Network Unit := { Network.steady [] with secure _ _ _ _ := ((), .failed) }
    let config := { Config.initial with proxy := some ⟨"p.com".toList, 3128⟩, timeout := 700 }
    let client := Client.start { Session.start config [] 0 with requestsSent := 2 } () []
    let put := Call.put "https://h.com/a".toList [104, 105] "text/plain".toList
    let post := Call.postFile "http://h.com/a".toList "missing".toList "text/plain".toList
    let unheard := Failure.timeout "p.com:3128".toList 700
    let unshaken := Failure.security (.handshakeFailed "h.com".toList)
    (Obstacle slow client put unheard ∧ (client.perform slow put).2 = .created false ∧
        Fails client (client.perform slow put).1 unheard ∧
        ¬ Asks client (client.perform slow put).1) ∧
      (Obstacle network client put unshaken ∧ (client.perform network put).2 = .created false ∧
        Fails client (client.perform network put).1 unshaken ∧
        ¬ Asks client (client.perform network put).1) ∧
      (Obstacle network client post (.io .notFound) ∧ (client.perform network post).2 = .text [] ∧
        Fails client (client.perform network post).1 (.io .notFound)) ∧
      Obstacle network client (.download "ftp:/".toList) (.invalidUrl "ftp:/".toList) ∧
      (client.download network "ftp:/".toList Sink.output .unlimited).2 = (.unlimited, 0) := by
  intro slow network config client put post unheard unshaken
  let target : Target := ⟨.https, "h.com".toList, 443, "/a".toList⟩
  have parsed : Target.parse put.url = .ok target := by decide +kernel
  let reached : Outside Unit :=
    (client.outside.note (.dialled "p.com".toList 3128)).note .connected
  let line := (Connection.tunnelLine config target).utf8
  have silent : Obstacle slow client put unheard := by
    have answers : Connection.IsReached slow config target client.outside reached := rfl
    exact .barrier nofun (.connection parsed nofun (.unheard answers rfl rfl rfl))
  have barred : Obstacle network client put unshaken := by
    have answers : Connection.IsReached network config target client.outside reached := rfl
    have clear : Connection.IsTunnelled network config target client.outside
        (reached.note (.wrote line)) := .proxied answers rfl rfl
    exact .barrier nofun (.connection parsed nofun
      (.unshaken clear rfl rfl (by decide +kernel) rfl))
  have missing : Obstacle network client post (.io .notFound) :=
    .file rfl (by decide +kernel)
  have invalid : Obstacle network client (.download "ftp:/".toList) (.invalidUrl "ftp:/".toList) :=
    .barrier nofun (.url (by decide +kernel))
  obtain ⟨slowly, -⟩ := fails_iff_not_asks (τ := Sink) slow client
  obtain ⟨calls, downloads⟩ := fails_iff_not_asks (τ := Sink) network client
  obtain ⟨nothing, expires⟩ := (slowly put trivial).1 unheard silent
  obtain ⟨given, fails⟩ := (calls put trivial).1 unshaken barred
  obtain ⟨empty, missed⟩ := (calls post trivial).1 (.io .notFound) missing
  exact ⟨⟨silent, nothing, expires, (slowly put trivial).2.1 ⟨unheard, silent⟩⟩,
    ⟨barred, given, fails, (calls put trivial).2.1 ⟨unshaken, barred⟩⟩,
    ⟨missing, empty, missed⟩, invalid,
    ((downloads "ftp:/".toList Sink.output .unlimited).1 _ invalid).1⟩

end Client

end WebClient
