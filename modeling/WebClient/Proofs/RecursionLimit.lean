import WebClient.Proofs.Refusal

/-!
# The recursion limit

The limit of a call has no part in what it does until the budget is used up. Two runs
under different limits are carried side by side, the budget of one larger than that of the
other by what the limits differ: they come to the same as long as nothing is refused.
-/

set_option autoImplicit false

namespace WebClient

namespace Budget

def widened (budget : Budget) (extra : Nat) : Budget where
  used := budget.used
  limit := budget.limit + extra
  used_le := Nat.le_trans budget.used_le (Nat.le_add_right _ _)

theorem enter?_widened {budget next : Budget} (entered : budget.enter? = some next)
    (extra : Nat) : (budget.widened extra).enter? = some (next.widened extra) := by
  unfold enter? at entered ⊢
  split at entered
  · rename_i left
    cases entered
    have wide : budget.used < budget.limit + extra := by omega
    simp [widened, wide]
  · cases entered

end Budget

namespace Session

def limited (session : Session) (limit : Nat) : Session :=
  { session with config := { session.config with recursionLimit := limit } }

private theorem receive_limited (session : Session) (limit : Nat) (target : Target)
    (response : Response) :
    (session.limited limit).receive target response =
      (session.receive target response).limited limit := by
  unfold receive absorb limited
  cases session.jar <;> rfl

end Session

namespace Client

variable {σ τ : Type} {network : Network σ}

def limited (client : Client σ) (limit : Nat) : Client σ :=
  { client with session := client.session.limited limit }

/-! ## One exchange -/

section Exchange

variable (client : Client σ) (limit : Nat) (target : Target) (request : Request)
  (method : Method) (intake : Intake τ) (state : τ)

theorem report_limited (reports : Journal) :
    (client.limited limit).report reports = (client.report reports).limited limit := rfl

private theorem receive_limited (response : Response) :
    (client.limited limit).receive target response =
      (client.receive target response).limited limit :=
  congrArg (Client.mk · _) (Session.receive_limited client.session limit target response)

theorem take_limited (before after : Reader) :
    (client.limited limit).take before after = (client.take before after).limited limit := rfl

private theorem conclude_limited (response : Response) (read : Reader.BodyRead Content) :
    (client.limited limit).conclude response read =
      ((client.conclude response read).1.limited limit, (client.conclude response read).2) := by
  unfold conclude
  cases read.failure with
  | none => rfl
  | some failure =>
    dsimp only
    split <;> rfl

private theorem listen_limited :
    (client.limited limit).listen network target method intake state =
      let heard := client.listen network target method intake state
      (heard.1.limited limit, heard.2) := by
  rcases read : (Reader.start (client.outside.incoming network) client.session.config.timeout
    target.url).readResponse method with ⟨outcome, after⟩
  cases outcome with
  | error failure =>
    rw [listen_of_error client intake state read,
      listen_of_error (client.limited limit) intake state read]
    rfl
  | ok response =>
    rw [listen_of_response client intake state read,
      listen_of_response (client.limited limit) intake state read]
    simp only [report_limited, receive_limited, take_limited, conclude_limited]

private theorem converse_limited :
    (client.limited limit).converse network target request intake state =
      let answered := client.converse network target request intake state
      (answered.1.limited limit, answered.2) := by
  rcases sent : request.send client.session.config.lineEnding (Outside.channel network)
    (client.ask target request).outside with ⟨outside, outcome⟩
  cases outcome with
  | error failure =>
    rw [converse_of_send_error client request intake state sent,
      converse_of_send_error (client.limited limit) request intake state sent]
    rfl
  | ok count =>
    rw [converse_of_send client request intake state sent,
      converse_of_send (client.limited limit) request intake state sent]
    exact listen_limited { client.ask target request with outside } limit target request.method
      intake state

theorem exchange_limited :
    (client.limited limit).exchange network target request intake state =
      let answered := client.exchange network target request intake state
      (answered.1.limited limit, answered.2) := by
  rcases opened : Connection.connect network client.session.config target client.outside with
    ⟨outside, outcome⟩
  cases outcome with
  | error failure =>
    rw [exchange_of_connect_error client request intake state opened,
      exchange_of_connect_error (client.limited limit) request intake state opened]
    rfl
  | ok connection =>
    rw [exchange_of_connect client request intake state opened,
      exchange_of_connect (client.limited limit) request intake state opened]
    have begun : { (client.limited limit).report [.detail] with outside } =
        Client.limited { client.report [.detail] with outside } limit := rfl
    rw [begun, converse_limited]
    rfl

private theorem exchange_limited_of_sent {client later : Client σ} {method : Method}
    {target : Target} {referer : Option Text} {intake : Intake τ} {state after : τ}
    {outcome : Except Failure Response} (limit : Nat)
    (sent : client.exchange network target (client.session.request method target referer) intake
      state = (later, after, outcome)) :
    (client.limited limit).exchange network target
      ((client.limited limit).session.request method target referer) intake state =
        (later.limited limit, after, outcome) := by
  have same : (client.limited limit).session.request method target referer =
      client.session.request method target referer := rfl
  rw [exchange_limited, same, sent]

end Exchange

/-! ## Two runs -/

variable {bound wide : Nat}

def widened {α : Type} (limit extra : Nat) (result : Client σ × α × Budget) :
    Client σ × α × Budget :=
  (result.1.limited limit, result.2.1, result.2.2.widened extra)

/-- Where nothing is refused, another way to fetch pages comes to the same under another
limit, and leaves as many more requests as it was given. -/
def Visit.Widens (visit : Visit σ bound) (refusals : Refusals σ bound) (limit extra : Nat)
    (other : Visit σ wide) : Prop :=
  ∀ client url referer budget within onwards, refusals client url referer budget within = [] →
    (other (client.limited limit) url referer (budget.widened extra) onwards).result =
      widened limit extra (visit client url referer budget within).result

section Widening

variable {visit : Visit σ bound} {refusals : Refusals σ bound} {limit extra : Nat}
  {other : Visit σ wide} (widens : visit.Widens refusals limit extra other) (target : Target)
  (client : Client σ) (budget : Budget) (within : budget.remaining ≤ bound)
  (onwards : (budget.widened extra).remaining ≤ wide)

include widens

private theorem result_visitFrames_widened (frames : List Markup.Frame)
    (granted : frameRefusals visit refusals target frames client budget within = []) :
    (visitFrames other target frames (client.limited limit) (budget.widened extra)
      onwards).result =
        widened limit extra (visitFrames visit target frames client budget within).result := by
  induction frames generalizing client budget with
  | nil => rfl
  | cons frame rest ih =>
    obtain ⟨here, later⟩ := List.append_eq_nil_iff.1 granted
    let url := target.resolve frame.source
    let page := visit client url target.url budget within
    have same := widens client url target.url budget within onwards here
    rw [result_visitFrames_cons, result_visitFrames_cons]
    rcases visited : other (client.limited limit) url target.url (budget.widened extra) onwards
      with ⟨moved, text, left, spent⟩
    -- Its bound is its own, so the leg is taken apart before the next frames are compared.
    rw [visited] at same
    obtain ⟨rfl, same⟩ := Prod.mk.inj same
    obtain ⟨rfl, rfl⟩ := Prod.mk.inj same
    have others := ih page.client page.budget page.spent spent later
    exact congrArg (fun others : Client σ × List Markup.Inset × Budget =>
      (others.1, ⟨frame, url, page.value⟩ :: others.2.1, others.2.2)) others

private theorem result_inlineFrames_widened (text : Text)
    (granted : (if client.session.config.loadFrames
        && Response.isScanned client.session.config text then
      frameRefusals visit refusals target (Markup.frames text) client budget within else []) = []) :
    (inlineFrames other target (client.limited limit) text (budget.widened extra)
      onwards).result =
        widened limit extra (inlineFrames visit target client text budget within).result := by
  -- Frames are looked for under both limits, or under neither.
  have same : ((client.limited limit).session.config.loadFrames &&
      Response.isScanned (client.limited limit).session.config text) =
        (client.session.config.loadFrames &&
          Response.isScanned client.session.config text) := rfl
  unfold inlineFrames
  rw [same]
  split at granted
  · rename_i framed
    rw [if_pos framed, if_pos framed]
    have insets := result_visitFrames_widened widens target client budget within onwards
      (Markup.frames text) granted
    exact congrArg (fun insets : Client σ × List Markup.Inset × Budget =>
      (insets.1, Markup.splice text insets.2.1, insets.2.2)) insets
  · rename_i unframed
    rw [if_neg unframed, if_neg unframed]
    rfl

theorem result_settle_widened (request : Request)
    (granted : settleRefusals network visit refusals client target request budget within = []) :
    (settle network other (client.limited limit) target request (budget.widened extra)
      onwards).result =
        widened limit extra
          (settle network visit client target request budget within).result := by
  unfold settleRefusals at granted
  unfold settle
  rw [exchange_limited]
  rcases sent : client.exchange network target request .text () with ⟨later, ⟨⟩, outcome⟩
  rw [sent] at granted
  cases outcome with
  | error failure => rfl
  | ok response =>
    have same : response.followUp? target (later.limited limit).session.config =
        response.followUp? target later.session.config := rfl
    dsimp only at granted ⊢
    rw [same]
    cases calls : response.followUp? target later.session.config with
    | some next =>
      rw [calls] at granted
      exact widens later next.url target.url budget within onwards granted
    | none =>
      rw [calls] at granted
      exact result_inlineFrames_widened widens target later budget within onwards response.text
        granted

end Widening

theorem fetch_widened (network : Network σ) (client : Client σ) (url : Text)
    (referer : Option Text) (budget : Budget) (limit extra : Nat)
    (granted : fetchRefusals network client url referer budget = []) :
    (fetch network (client.limited limit) url referer (budget.widened extra)).result =
      widened limit extra (fetch network client url referer budget).result := by
  -- Along the run under the smaller limit, which the other follows with a larger budget.
  induction client, url, referer, budget using fetch.induct network with
  | case1 client url referer budget failure invalid =>
    rw [result_fetch_of_invalid network client referer budget invalid,
      result_fetch_of_invalid network (client.limited limit) referer _ invalid]
    rfl
  | case2 client url referer budget target parsed spent =>
    rw [fetchRefusals_of_spent client referer parsed spent] at granted
    cases granted
  | case3 client url referer budget target parsed next entered fewer ih =>
    rw [fetchRefusals_of_entered client referer parsed entered] at granted
    rw [result_fetch network client referer parsed entered,
      result_fetch network (client.limited limit) referer parsed
        (Budget.enter?_widened entered extra)]
    have widens : (revisit network next.remaining).Widens
        (revisitRefusals network next.remaining) limit extra
        (revisit network (next.widened extra).remaining) := by
      intro client url referer left within _ granted
      exact ih client url referer left within granted
    exact result_settle_widened widens target client next (Nat.le_refl _) (Nat.le_refl _)
      (client.session.request .get target referer) granted

/-! ## Downloads -/

theorem downloadFrom_of_entered (client : Client σ) {url : Text} (referer : Option Text)
    {budget next : Budget} (output : Output τ) (state : τ) {target : Target}
    (parsed : Target.parse url = .ok target)
    (entered : budget.enter? = some next) :
    downloadFrom network client url referer budget output state =
      match client.exchange network target (client.session.request .get target referer)
          (.output output) state with
      | (client, state, .error failure) => (client.fail failure, state, 0)
      | (client, state, .ok response) =>
        match response.location? with
        | some location =>
          downloadFrom network client (target.resolve location) (some target.url) next output state
        | none => (client, state, response.copied) := by
  rw [downloadFrom, parsed]
  dsimp only
  split
  · simp_all
  · rename_i left taken
    obtain rfl : left = next := by simpa [taken] using entered
    rfl

private theorem downloadFrom_widened (network : Network σ) (client : Client σ) (url : Text)
    (referer : Option Text) (budget : Budget) (output : Output τ) (state : τ)
    (limit extra : Nat)
    (granted : downloadRefusals network client url referer budget output state = []) :
    downloadFrom network (client.limited limit) url referer (budget.widened extra) output state =
      let copy := downloadFrom network client url referer budget output state
      (copy.1.limited limit, copy.2) := by
  fun_induction downloadFrom network client url referer budget output state with
  | case1 client url referer budget state failure invalid =>
    rw [downloadFrom, invalid]
    rfl
  | case2 client url referer budget state target parsed spent =>
    rw [downloadRefusals_of_spent client referer output state parsed spent] at granted
    cases granted
  | case3 client url referer budget state target parsed next entered later after failure sent =>
    rw [downloadFrom_of_entered (client.limited limit) referer output state parsed
      (Budget.enter?_widened entered extra), exchange_limited_of_sent limit sent]
    rfl
  | case4 client url referer budget state target parsed next entered later after response sent
      location refers ih =>
    rw [downloadRefusals_of_entered client referer output state parsed entered, sent] at granted
    rw [downloadFrom_of_entered (client.limited limit) referer output state parsed
      (Budget.enter?_widened entered extra), exchange_limited_of_sent limit sent]
    dsimp only at granted ⊢
    rw [refers] at granted ⊢
    exact ih granted
  | case5 client url referer budget state target parsed next entered later after response sent
      settled =>
    rw [downloadFrom_of_entered (client.limited limit) referer output state parsed
      (Budget.enter?_widened entered extra), exchange_limited_of_sent limit sent]
    dsimp only
    rw [settled]

/-! ## Calls -/

def Unmoved {α : Type} (limit : Nat) (plain other : Client σ × α) : Prop :=
  other = (plain.1.limited limit, plain.2)

theorem Unmoved.map {α β : Type} {limit : Nat} {plain other : Client σ × α}
    (unmoved : Unmoved limit plain other) (result : α → β) :
    Unmoved limit (plain.map id result) (other.map id result) := by
  rw [unmoved]
  rfl

section Calls

variable (network : Network σ) (client : Client σ) (url : Text) {limit extra : Nat}

theorem roundTrip_limited (limit : Nat) (method : Method) (body : Body)
    (contentType : Option Text) :
    Unmoved limit (client.roundTrip network url method body contentType)
      ((client.limited limit).roundTrip network url method body contentType) := by
  unfold roundTrip Unmoved
  cases Target.parse url with
  | error failure => rfl
  | ok target =>
    have same : (client.limited limit).session.attach
        ((client.limited limit).session.request method target none) body contentType =
          client.session.attach (client.session.request method target none) body contentType := rfl
    dsimp only
    rw [exchange_limited, same]
    rcases client.exchange network target (client.session.attach
      (client.session.request method target none) body contentType) .text () with
      ⟨later, ⟨⟩, outcome⟩
    cases outcome with
    | error failure => rfl
    | ok response => rfl

private theorem putFile_limited (limit : Nat) (path contentType : Text) :
    Unmoved limit (client.putFile network url path contentType)
      ((client.limited limit).putFile network url path contentType) := by
  have same : ((client.limited limit).report [.notice]).fileBody path =
      (client.report [.notice]).fileBody path := rfl
  unfold putFile
  dsimp only
  rw [same]
  cases (client.report [.notice]).fileBody path with
  | error failure => rfl
  | ok body =>
    have asked := roundTrip_limited network (client.report [.notice]) url limit .put body
      (some contentType)
    exact asked.map isCreated

variable (more : limit = client.session.config.recursionLimit + extra)

include more

theorem budget_limited : (client.limited limit).budget = client.budget.widened extra := by
  rw [more]
  rfl

private theorem get_limited
    (granted : fetchRefusals network (client.report [.notice]) url none client.budget = []) :
    Unmoved limit (client.get network url) ((client.limited limit).get network url) := by
  have page := fetch_widened network (client.report [.notice]) url none client.budget limit extra
    granted
  rw [← budget_limited client more] at page
  exact congrArg (fun page => (page.1.report [.notice], page.2.1)) page

private theorem download_limited (output : Output τ) (state : τ)
    (granted : downloadRefusals network (client.report [.notice]) url none client.budget output
      state = []) :
    Unmoved limit (client.download network url output state)
      ((client.limited limit).download network url output state) := by
  have copy := downloadFrom_widened network (client.report [.notice]) url none client.budget output
    state limit extra granted
  rw [← budget_limited client more] at copy
  exact copy

theorem postBody_limited (body : Body) (contentType : Text)
    (granted : postRefusals network client url body contentType = []) :
    Unmoved limit (client.postBody network url body contentType)
      ((client.limited limit).postBody network url body contentType) := by
  have wide : ((client.limited limit).report [.notice]).budget =
      (client.report [.notice]).budget.widened extra := budget_limited client more
  unfold postRefusals at granted
  unfold postBody Unmoved
  dsimp only at granted ⊢
  rw [wide]
  cases parsed : Target.parse url with
  | error failure => rfl
  | ok target =>
    rw [parsed] at granted
    dsimp only at granted ⊢
    cases entered : (client.report [.notice]).budget.enter? with
    | none =>
      rw [entered] at granted
      cases granted
    | some next =>
      rw [entered] at granted
      rw [Budget.enter?_widened entered extra]
      have widens : (revisit network next.remaining).Widens
          (revisitRefusals network next.remaining) limit extra
          (revisit network (next.widened extra).remaining) := by
        intro client url referer left _ _ granted
        exact fetch_widened network client url (some referer) left limit extra granted
      have page := result_settle_widened widens target (client.report [.notice]) next
        (Nat.le_refl _) (Nat.le_refl _) _ granted
      exact congrArg (fun page => (page.1, page.2.1)) page

private theorem postFile_limited (path contentType : Text)
    (granted : client.refusals network (.postFile url path contentType) = []) :
    Unmoved limit (client.postFile network url path contentType)
      ((client.limited limit).postFile network url path contentType) := by
  have same : (client.limited limit).fileBody path = client.fileBody path := rfl
  unfold refusals at granted
  unfold postFile
  rw [same]
  dsimp only at granted
  cases content : client.fileBody path with
  | error failure => rfl
  | ok body =>
    rw [content] at granted
    exact postBody_limited network client url more body contentType granted

private theorem postMultipart_limited (parts : Multipart.Parts) (types : Multipart.Types)
    (granted : client.refusals network (.postMultipart url parts types) = []) :
    Unmoved limit (client.postMultipart network url parts types)
      ((client.limited limit).postMultipart network url parts types) := by
  have same : (client.limited limit).session.draws = client.session.draws := rfl
  unfold refusals at granted
  unfold postMultipart
  rw [same]
  dsimp only at granted
  cases encoded : Multipart.encode? parts types client.session.draws with
  | none => rfl
  | some form =>
    rw [encoded] at granted
    exact postBody_limited network
      { client with session := { client.session with draws := form.2 } } url more
      (.bytes form.1.body) form.1.contentType granted

end Calls

private theorem unmoved_perform (network : Network σ) (client : Client σ) (call : Call)
    {limit extra : Nat} (more : limit = client.session.config.recursionLimit + extra)
    (granted : client.refusals network call = []) :
    Unmoved limit (client.perform network call)
      ((client.limited limit).perform network call) := by
  cases call with
  | get url => exact (get_limited network client url more granted).map Outcome.text
  | getWith url params => exact (get_limited network client _ more granted).map Outcome.text
  | getShort url =>
    have asked := roundTrip_limited network (client.report [.notice]) url limit .shortGet .empty
      none
    exact asked.map fun response => Outcome.text ((response.map Response.text).getD [])
  | download url =>
    have copied := download_limited network client url more Sink.output .unlimited granted
    exact copied.map fun (sink, count) => Outcome.bytes count sink.held
  | post url params =>
    exact (postBody_limited network client url more _ _ granted).map Outcome.text
  | postBytes url bytes contentType =>
    exact (postBody_limited network client url more _ _ granted).map Outcome.text
  | postFile url path contentType =>
    exact (postFile_limited network client url more path contentType granted).map Outcome.text
  | postMultipart url parts types =>
    exact (postMultipart_limited network client url more parts types granted).map Outcome.text
  | head url =>
    have asked := roundTrip_limited network (client.report [.notice]) url limit .head .empty none
    exact asked.map fun response => Outcome.fields ((response.map Response.fields).getD [])
  | put url bytes contentType =>
    have asked := roundTrip_limited network (client.report [.notice]) url limit .put (.bytes bytes)
      (some contentType)
    exact asked.map fun response => Outcome.created (isCreated response)
  | putFile url path contentType =>
    exact (putFile_limited network client url limit path contentType).map Outcome.created

/-- A call that is refused something has tried as many hosts as its limit allows. One that
is refused nothing comes to the same with any larger limit: it gives the same, does the
same on the network and with the files, and leaves the same session but for the limit. -/
theorem perform_limited (network : Network σ) (client : Client σ) (call : Call) :
    let before := client.perform network call
    (client.refusals network call ≠ [] →
      before.1.outside.attempts =
        client.outside.attempts + client.session.config.recursionLimit) ∧
    (client.refusals network call = [] →
      ∀ limit, client.session.config.recursionLimit ≤ limit →
        let after := (client.limited limit).perform network call
        after.2 = before.2 ∧ after.1.outside = before.1.outside ∧
          after.1.session = before.1.session.limited limit) := by
  intro before
  constructor
  · exact fun refused => (advances_perform_of_refused network client call refused).outside.attempts
  · intro granted limit larger after
    obtain ⟨extra, more⟩ := Nat.exists_eq_add_of_le larger
    have same : after = (before.1.limited limit, before.2) :=
      unmoved_perform network client call more granted
    rw [same]
    exact ⟨rfl, rfl, rfl⟩

end Client

/-! ## Pages in turn -/

def Network.inTurn : Network (List Feed) where
  dial feeds _ _ := (feeds, .connected)
  tunnel feeds _ := (feeds, .taken)
  channel := { write feeds _ := (feeds, none), flush feeds := (feeds, none) }
  secure feeds _ _ _ := (feeds, .established)
  incoming feeds := feeds.headD []
  hangUp feeds := feeds.tail

/-- A page that has moved and shows two others takes four requests. -/
theorem Client.perform_limited_of_frames :
    let away := "HTTP/1.0 302 Found\r\nLocation: /b\r\nSet-Cookie: k=v\r\n\r\n"
    let here := "HTTP/1.0 200 OK\r\n\r\n<html><frame src=c><frame src=d></html>"
    let feeds := [away, here, "HTTP/1.0 200 OK\r\n\r\nhi", "HTTP/1.0 200 OK\r\n\r\nho"].map
      fun text : String => ([.piece (Text.utf8 text.toList)] : Feed)
    let start := Client.start (.start .initial [] 0) feeds []
    let client := start.limited 4
    let call := Call.get "http://s.com/a".toList
    let before := client.perform Network.inTurn call
    let after := (client.limited 9).perform Network.inTurn call
    (start.limited 3).refusals Network.inTurn call = ["http://s.com/d".toList] ∧
      client.refusals Network.inTurn call = [] ∧ client.session.config.recursionLimit ≤ 9 ∧
      before.1.outside.attempts = 4 ∧ after.2 = before.2 ∧
      after.1.outside = before.1.outside ∧ after.1.session = before.1.session.limited 9 := by
  intro away here feeds start client call before after
  have refused : (start.limited 3).refusals Network.inTurn call = ["http://s.com/d".toList] := by
    decide +kernel
  have granted : client.refusals Network.inTurn call = [] := by decide +kernel
  have larger : client.session.config.recursionLimit ≤ 9 := by decide
  have attempts : before.1.outside.attempts = 4 := by decide +kernel
  exact ⟨refused, granted, larger, attempts,
    (perform_limited Network.inTurn client call).2 granted 9 larger⟩

end WebClient
