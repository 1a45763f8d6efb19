import WebClient.Proofs.Budget

/-!
# Refused fetches

The fetches of a call that its budget refuses, in order. Whatever is refused, nothing of
the budget is left then, so the call has tried as many hosts as its limit allows.
-/

set_option autoImplicit false

namespace WebClient.Client

variable {σ τ : Type} {network : Network σ}

/-! ## Pages -/

abbrev Refusals (σ : Type) (bound : Nat) :=
  Client σ → (url referer : Text) → (budget : Budget) → budget.remaining ≤ bound → List Text

variable {bound : Nat}

def frameRefusals (visit : Visit σ bound) (refusals : Refusals σ bound) (target : Target) :
    List Markup.Frame → Client σ → (budget : Budget) → budget.remaining ≤ bound → List Text
  | [], _, _, _ => []
  | frame :: rest, client, budget, within =>
    let url := target.resolve frame.source
    let page := visit client url target.url budget within
    refusals client url target.url budget within ++
      frameRefusals visit refusals target rest page.client page.budget page.spent

def settleRefusals (network : Network σ) (visit : Visit σ bound) (refusals : Refusals σ bound)
    (client : Client σ) (target : Target) (request : Request) (budget : Budget)
    (within : budget.remaining ≤ bound) : List Text :=
  match client.exchange network target request .text () with
  | (_, _, .error _) => []
  | (client, _, .ok response) =>
    match response.followUp? target client.session.config with
    | some next => refusals client next.url target.url budget within
    | none =>
      if client.session.config.loadFrames
          && Response.isScanned client.session.config response.text then
        frameRefusals visit refusals target (Markup.frames response.text) client budget within
      else []

def fetchRefusals (network : Network σ) (client : Client σ) (url : Text) (referer : Option Text)
    (budget : Budget) : List Text :=
  match Target.parse url with
  | .error _ => []
  | .ok target =>
    match _entered : budget.enter? with
    | none => [url]
    | some next =>
      settleRefusals network (revisit network next.remaining)
        (fun client url referer left _within =>
          fetchRefusals network client url (some referer) left)
        client target (client.session.request .get target referer) next (Nat.le_refl _)
termination_by budget.remaining
decreasing_by
  have fewer := Budget.remaining_of_enter? _entered
  omega

def revisitRefusals (network : Network σ) (bound : Nat) : Refusals σ bound :=
  fun client url referer left _ => fetchRefusals network client url (some referer) left

private theorem fetchRefusals_of_invalid (client : Client σ) {url : Text} (referer : Option Text)
    (budget : Budget) {failure : Failure} (invalid : Target.parse url = .error failure) :
    fetchRefusals network client url referer budget = [] := by
  rw [fetchRefusals, invalid]

theorem fetchRefusals_of_spent (client : Client σ) {url : Text} (referer : Option Text)
    {budget : Budget} {target : Target} (parsed : Target.parse url = .ok target)
    (spent : budget.enter? = none) :
    fetchRefusals network client url referer budget = [url] := by
  rw [fetchRefusals, parsed]
  dsimp only
  split
  · rfl
  · simp_all

theorem fetchRefusals_of_entered (client : Client σ) {url : Text} (referer : Option Text)
    {budget next : Budget} {target : Target} (parsed : Target.parse url = .ok target)
    (entered : budget.enter? = some next) :
    fetchRefusals network client url referer budget =
      settleRefusals network (revisit network next.remaining)
        (revisitRefusals network next.remaining) client target
        (client.session.request .get target referer) next (Nat.le_refl _) := by
  rw [fetchRefusals, parsed]
  dsimp only
  split
  · simp_all
  · rename_i left taken
    obtain rfl : left = next := by simpa [taken] using entered
    rfl

/-! ## Downloads -/

def downloadRefusals (network : Network σ) (client : Client σ) (url : Text)
    (referer : Option Text) (budget : Budget) (output : Output τ) (state : τ) : List Text :=
  match Target.parse url with
  | .error _ => []
  | .ok target =>
    match _entered : budget.enter? with
    | none => [url]
    | some next =>
      match client.exchange network target (client.session.request .get target referer)
          (.output output) state with
      | (_, _, .error _) => []
      | (client, state, .ok response) =>
        match response.location? with
        | some location =>
          downloadRefusals network client (target.resolve location) (some target.url) next output
            state
        | none => []
termination_by budget.remaining
decreasing_by
  have fewer := Budget.remaining_of_enter? _entered
  omega

section Download

variable (client : Client σ) {url : Text} (referer : Option Text) {budget next : Budget}
  (output : Output τ) (state : τ) {target : Target}

theorem downloadRefusals_of_spent (parsed : Target.parse url = .ok target)
    (spent : budget.enter? = none) :
    downloadRefusals network client url referer budget output state = [url] := by
  rw [downloadRefusals, parsed]
  dsimp only
  split
  · rfl
  · simp_all

theorem downloadRefusals_of_entered (parsed : Target.parse url = .ok target)
    (entered : budget.enter? = some next) :
    downloadRefusals network client url referer budget output state =
      match client.exchange network target (client.session.request .get target referer)
          (.output output) state with
      | (_, _, .error _) => []
      | (client, state, .ok response) =>
        match response.location? with
        | some location =>
          downloadRefusals network client (target.resolve location) (some target.url) next output
            state
        | none => [] := by
  rw [downloadRefusals, parsed]
  dsimp only
  split
  · simp_all
  · rename_i left taken
    obtain rfl : left = next := by simpa [taken] using entered
    rfl

end Download

/-! ## Calls -/

def postRefusals (network : Network σ) (client : Client σ) (url : Text) (body : Body)
    (contentType : Text) : List Text :=
  let client := client.report [.notice]
  match Target.parse url with
  | .error _ => []
  | .ok target =>
    match client.budget.enter? with
    | none => [url]
    | some next =>
      settleRefusals network (revisit network next.remaining)
        (revisitRefusals network next.remaining) client target
        (client.session.attach (client.session.request .post target none) body (some contentType))
        next (Nat.le_refl _)

/-- The URLs of the fetches that the budget of a call refuses, in order. -/
def refusals (network : Network σ) (client : Client σ) : Call → List Text
  | .get url => fetchRefusals network (client.report [.notice]) url none client.budget
  | .getWith url params =>
    fetchRefusals network (client.report [.notice]) (Form.appendQuery url (Form.encode params))
      none client.budget
  | .download url =>
    downloadRefusals network (client.report [.notice]) url none client.budget Sink.output
      .unlimited
  | .post url params =>
    postRefusals network client url (.text (Form.encode params)) client.session.config.contentType
  | .postBytes url bytes contentType => postRefusals network client url (.bytes bytes) contentType
  | .postFile url path contentType =>
    match client.fileBody path with
    | .ok body => postRefusals network client url body contentType
    | .error _ => []
  | .postMultipart url parts types =>
    match Multipart.encode? parts types client.session.draws with
    | none => []
    | some (encoded, draws) =>
      postRefusals network { client with session := { client.session with draws } } url
        (.bytes encoded.body) encoded.contentType
  | .getShort _ | .head _ | .put .. | .putFile .. => []

/-! ## A budget that is used up -/

theorem result_visitFrames_cons (visit : Visit σ bound) (target : Target) (frame : Markup.Frame)
    (rest : List Markup.Frame) (client : Client σ) (budget : Budget)
    (within : budget.remaining ≤ bound) :
    (visitFrames visit target (frame :: rest) client budget within).result =
      let page := visit client (target.resolve frame.source) target.url budget within
      let others := (visitFrames visit target rest page.client page.budget page.spent).result
      (others.1, ⟨frame, target.resolve frame.source, page.value⟩ :: others.2.1, others.2.2) :=
  rfl

theorem Accounts.advances {α : Type} {ahead : Nat} {client : Client σ} {budget : Budget}
    {result : Client σ × α × Budget} (accounts : Accounts ahead client budget result)
    (empty : result.2.2.remaining = 0) :
    Advances (ahead + budget.remaining) client result.1 := by
  obtain ⟨count, moved, taken⟩ := accounts
  rw [← taken, empty, Nat.zero_add]
  exact moved

def Visit.Exhausts (visit : Visit σ bound) (refusals : Refusals σ bound) : Prop :=
  ∀ client url referer budget within, refusals client url referer budget within ≠ [] →
    (visit client url referer budget within).result.2.2.remaining = 0

section Exhaustion

variable {visit : Visit σ bound} {refusals : Refusals σ bound} (visits : Visit.Accounts visit)
  (exhausts : visit.Exhausts refusals) (target : Target) (client : Client σ) (budget : Budget)
  (within : budget.remaining ≤ bound)

include visits exhausts

private theorem remaining_of_frameRefusals (frames : List Markup.Frame)
    (refused : frameRefusals visit refusals target frames client budget within ≠ []) :
    (visitFrames visit target frames client budget within).result.2.2.remaining = 0 := by
  induction frames generalizing client budget with
  | nil => exact absurd rfl refused
  | cons frame rest ih =>
    let page := visit client (target.resolve frame.source) target.url budget within
    rw [result_visitFrames_cons]
    by_cases here : refusals client (target.resolve frame.source) target.url budget within = []
    · refine ih page.client page.budget page.spent fun later => refused ?_
      exact List.append_eq_nil_iff.2 ⟨here, later⟩
    · -- A refusal leaves nothing, and later frames cannot give anything back.
      have empty : page.budget.remaining = 0 := exhausts _ _ _ _ within here
      obtain ⟨count, -, left⟩ :=
        accounts_visitFrames visits target rest page.client page.budget page.spent
      exact Nat.eq_zero_of_add_eq_zero_right (left.trans empty)

theorem remaining_of_settleRefusals (request : Request)
    (refused : settleRefusals network visit refusals client target request budget within ≠ []) :
    (settle network visit client target request budget within).result.2.2.remaining = 0 := by
  unfold settleRefusals at refused
  unfold settle
  rcases sent : client.exchange network target request .text () with ⟨later, ⟨⟩, outcome⟩
  rw [sent] at refused
  cases outcome with
  | error failure => exact absurd rfl refused
  | ok response =>
    dsimp only at refused ⊢
    cases calls : response.followUp? target later.session.config with
    | some next =>
      rw [calls] at refused
      exact exhausts later next.url target.url budget within refused
    | none =>
      rw [calls] at refused
      dsimp only at refused ⊢
      unfold inlineFrames
      split at refused
      · rename_i framed
        rw [if_pos framed]
        exact remaining_of_frameRefusals visits exhausts target later budget within
          (Markup.frames response.text) refused
      · exact absurd rfl refused

end Exhaustion

theorem remaining_of_fetchRefusals (network : Network σ) (client : Client σ) (url : Text)
    (referer : Option Text) (budget : Budget)
    (refused : fetchRefusals network client url referer budget ≠ []) :
    (fetch network client url referer budget).result.2.2.remaining = 0 := by
  induction client, url, referer, budget using fetch.induct network with
  | case1 client url referer budget failure invalid =>
    exact absurd (fetchRefusals_of_invalid client referer budget invalid) refused
  | case2 client url referer budget target parsed spent =>
    rw [result_fetch_of_spent network client referer parsed spent]
    exact Budget.enter?_eq_none_iff.1 spent
  | case3 client url referer budget target parsed next entered fewer ih =>
    rw [fetchRefusals_of_entered client referer parsed entered] at refused
    rw [result_fetch network client referer parsed entered]
    have exhausts : Visit.Exhausts (revisit network next.remaining)
        (revisitRefusals network next.remaining) := by
      intro client url referer left within refused
      exact ih client url referer left within refused
    exact remaining_of_settleRefusals (accounts_revisit network next.remaining) exhausts target
      client next (Nat.le_refl _) (client.session.request .get target referer) refused

private theorem advances_downloadFrom_of_refused (network : Network σ) (client : Client σ)
    (url : Text) (referer : Option Text) (budget : Budget) (output : Output τ) (state : τ)
    (refused : downloadRefusals network client url referer budget output state ≠ []) :
    Advances budget.remaining client
      (downloadFrom network client url referer budget output state).1 := by
  fun_induction downloadFrom network client url referer budget output state with
  | case1 client url referer budget state failure invalid =>
    rw [downloadRefusals, invalid] at refused
    exact absurd rfl refused
  | case2 client url referer budget state target parsed spent =>
    rw [Budget.enter?_eq_none_iff.1 spent]
    exact .fail client _
  | case3 client url referer budget state target parsed next entered later after failure sent =>
    rw [downloadRefusals_of_entered client referer output state parsed entered, sent] at refused
    exact absurd rfl refused
  | case4 client url referer budget state target parsed next entered later after response sent
      location refers ih =>
    have exchanged := Advances.exchange network client target
      (client.session.request .get target referer) (.output output) state
    rw [sent] at exchanged
    rw [downloadRefusals_of_entered client referer output state parsed entered, sent] at refused
    dsimp only at refused
    rw [refers] at refused
    rw [← Budget.remaining_of_enter? entered, Nat.add_comm]
    exact exchanged.trans (ih refused)
  | case5 client url referer budget state target parsed next entered later after response sent
      settled =>
    rw [downloadRefusals_of_entered client referer output state parsed entered, sent] at refused
    dsimp only at refused
    rw [settled] at refused
    exact absurd rfl refused

section Calls

variable (network : Network σ) (client : Client σ) (url : Text)

private theorem advances_get_of_refused
    (refused : fetchRefusals network (client.report [.notice]) url none client.budget ≠ []) :
    Advances client.session.config.recursionLimit client (client.get network url).1 := by
  have moved := (accounts_fetch network (client.report [.notice]) url none client.budget).advances
    (remaining_of_fetchRefusals network _ url none client.budget refused)
  rw [Nat.zero_add] at moved
  exact (moved.trans (.report _ [.notice])).of_same rfl rfl

private theorem advances_postBody_of_refused (body : Body) (contentType : Text)
    (refused : postRefusals network client url body contentType ≠ []) :
    Advances client.session.config.recursionLimit client
      (client.postBody network url body contentType).1 := by
  unfold postRefusals at refused
  unfold postBody
  dsimp only at refused ⊢
  cases parsed : Target.parse url with
  | error failure =>
    rw [parsed] at refused
    exact absurd rfl refused
  | ok target =>
    rw [parsed] at refused
    dsimp only at refused ⊢
    cases entered : (client.report [.notice]).budget.enter? with
    | none =>
      have spent : client.session.config.recursionLimit = 0 :=
        Budget.enter?_eq_none_iff.1 entered
      rw [spent]
      exact (Advances.report client _).trans (.fail _ _)
    | some next =>
      rw [entered] at refused
      have exhausts : Visit.Exhausts (revisit network next.remaining)
          (revisitRefusals network next.remaining) := by
        intro client url referer left _ refused
        exact remaining_of_fetchRefusals network client url (some referer) left refused
      have empty := remaining_of_settleRefusals (accounts_revisit network next.remaining) exhausts
        target (client.report [.notice]) next (Nat.le_refl _) _ refused
      have moved := (accounts_follow network (client.report [.notice]) target _ next).advances empty
      rw [Nat.add_comm, Budget.remaining_of_enter? entered] at moved
      exact moved.of_same rfl rfl

theorem advances_perform_of_refused (call : Call) (refused : client.refusals network call ≠ []) :
    Advances client.session.config.recursionLimit client (client.perform network call).1 := by
  cases call with
  | get url => exact advances_get_of_refused network client url refused
  | getWith url params => exact advances_get_of_refused network client _ refused
  | download url =>
    have moved := advances_downloadFrom_of_refused network (client.report [.notice]) url none
      client.budget Sink.output .unlimited refused
    exact moved.of_same rfl rfl
  | post url params => exact advances_postBody_of_refused network client url _ _ refused
  | postBytes url bytes contentType =>
    exact advances_postBody_of_refused network client url _ _ refused
  | postFile url path contentType =>
    simp only [refusals] at refused
    simp only [perform, postFile]
    cases content : client.fileBody path with
    | error failure =>
      rw [content] at refused
      exact absurd rfl refused
    | ok body =>
      rw [content] at refused
      exact advances_postBody_of_refused network client url body contentType refused
  | postMultipart url parts types =>
    simp only [refusals] at refused
    simp only [perform, postMultipart]
    cases encoded : Multipart.encode? parts types client.session.draws with
    | none =>
      rw [encoded] at refused
      exact absurd rfl refused
    | some form =>
      rw [encoded] at refused
      have moved := advances_postBody_of_refused network
        { client with session := { client.session with draws := form.2 } } url
        (.bytes form.1.body) form.1.contentType refused
      exact moved.of_same rfl rfl
  | getShort | head | put | putFile => exact absurd rfl refused

end Calls

end WebClient.Client
