import WebClient.Client.Call
import WebClient.Proofs.Attempts

/-!
# The budget of a call

A call tries as many hosts as it takes requests from its budget: one for the page
that was asked for, and one for every place, refresh or frame that was followed.
So it never tries more than the recursion limit, and on a network that always
refers elsewhere it tries exactly that many.
-/

set_option autoImplicit false

namespace WebClient

def Call.isFollowed : Call → Bool
  | get _ | getWith .. | download _ | post .. | postBytes .. | postFile .. | postMultipart .. =>
    true
  | getShort _ | head _ | put .. | putFile .. => false

namespace Client

variable {σ τ : Type}

theorem enter?_budget_eq_none_iff {client : Client σ} :
    client.budget.enter? = none ↔ client.session.config.recursionLimit = 0 :=
  Budget.enter?_eq_none_iff

theorem exists_enter?_budget {client : Client σ}
    (positive : client.session.config.recursionLimit ≠ 0) :
    ∃ next, client.budget.enter? = some next :=
  Option.ne_none_iff_exists'.1 (mt enter?_budget_eq_none_iff.1 positive)

/-! ## Parts of a call -/

/-- What a part of a call comes to, apart from the bound that its type carries. -/
def Leg.result {α : Type} {bound : Nat} (leg : Leg σ α bound) : Client σ × α × Budget :=
  (leg.client, leg.value, leg.budget)

def revisit (network : Network σ) (bound : Nat) : Visit σ bound :=
  fun client url referer left within =>
    let page := fetch network client url (some referer) left
    { page with spent := Nat.le_trans page.spent within }

theorem result_fetch_of_invalid (network : Network σ) (client : Client σ) {url : Text}
    (referer : Option Text) (budget : Budget) {failure : Failure}
    (invalid : Target.parse url = .error failure) :
    (fetch network client url referer budget).result = (client.fail failure, [], budget) := by
  unfold fetch
  split
  · simp_all [Leg.result]
  · simp_all

theorem result_fetch_of_spent (network : Network σ) (client : Client σ) {url : Text}
    (referer : Option Text) {budget : Budget} {target : Target}
    (parsed : Target.parse url = .ok target) (spent : budget.enter? = none) :
    (fetch network client url referer budget).result =
      (client.fail (.budgetSpent url budget.limit), [], budget) := by
  unfold fetch
  split
  · simp_all
  · split
    · rfl
    · simp_all

theorem result_fetch (network : Network σ) (client : Client σ) {url : Text}
    (referer : Option Text) {budget next : Budget} {target : Target}
    (parsed : Target.parse url = .ok target) (entered : budget.enter? = some next) :
    (fetch network client url referer budget).result =
      (settle network (revisit network next.remaining) client target
        (client.session.request .get target referer) next (Nat.le_refl _)).result := by
  unfold fetch
  split
  · simp_all
  · rename_i found same
    obtain rfl : found = target := by simpa [same] using parsed
    split
    · simp_all
    · rename_i left taken
      obtain rfl : left = next := by simpa [taken] using entered
      rfl

theorem result_settle_of_error {network : Network σ} {bound : Nat} (visit : Visit σ bound)
    {client later : Client σ} {target : Target} {request : Request} {failure : Failure}
    {budget : Budget} (within : budget.remaining ≤ bound)
    (exchanged : client.exchange network target request .text () = (later, (), .error failure)) :
    (settle network visit client target request budget within).result =
      (later.fail failure, [], budget) := by
  unfold settle
  rw [exchanged]
  rfl

/-- A page that is not markup calls for nothing else. -/
theorem result_settle_of_plain {network : Network σ} {bound : Nat} (visit : Visit σ bound)
    {client later : Client σ} {target : Target} {request : Request} {response : Response}
    {budget : Budget} (within : budget.remaining ≤ bound)
    (exchanged : client.exchange network target request .text () = (later, (), .ok response))
    (stays : response.location? = none) (plain : Markup.isMarkup response.text = false) :
    (settle network visit client target request budget within).result =
      (later, response.text, budget) := by
  have unscanned : Response.isScanned later.session.config response.text = false := by
    rw [Response.isScanned, plain, Bool.and_false]
  have nothing : response.followUp? target later.session.config = none := by
    simp [Response.followUp?, stays, unscanned]
  unfold settle
  rw [exchanged]
  simp only [nothing, inlineFrames, unscanned, Bool.and_false]
  rfl

/-- A response that names another place is followed there, whatever its body is. -/
theorem followUp?_of_location {response : Response} {location : Text}
    (names : response.location? = some location) (target : Target) (config : Config) :
    response.followUp? target config = some (.location (target.resolve location)) := by
  simp only [Response.followUp?, names]

theorem result_settle_of_location {network : Network σ} {bound : Nat} {visit : Visit σ bound}
    {client later : Client σ} {target : Target} {request : Request} {response : Response}
    {location : Text} {budget : Budget} {within : budget.remaining ≤ bound}
    (exchanged : client.exchange network target request .text () = (later, (), .ok response))
    (names : response.location? = some location) :
    (settle network visit client target request budget within).result =
      (visit later (target.resolve location) target.url budget within).result := by
  unfold settle
  rw [exchanged]
  simp only [followUp?_of_location names, FollowUp.url]

/-- A part of a call has tried as many hosts as it took requests from the budget,
apart from `ahead` attempts whose place had been taken before. -/
def Accounts (ahead : Nat) (client : Client σ) (budget : Budget) {α : Type}
    (result : Client σ × α × Budget) : Prop :=
  ∃ count, Advances (ahead + count) client result.1 ∧
    result.2.2.remaining + count = budget.remaining

namespace Accounts

variable {α : Type} {ahead : Nat} {client later : Client σ} {budget : Budget} {value : α}

theorem of_advances (moved : Advances ahead client later) :
    Accounts ahead client budget (later, value, budget) :=
  ⟨0, moved, rfl⟩

theorem after {result : Client σ × α × Budget} (moved : Advances ahead client later)
    (accounts : Accounts 0 later budget result) : Accounts ahead client budget result := by
  obtain ⟨count, advanced, taken⟩ := accounts
  exact ⟨count, by simpa using moved.trans advanced, taken⟩

end Accounts

def Visit.Accounts {bound : Nat} (visit : Visit σ bound) : Prop :=
  ∀ client url referer budget within,
    Client.Accounts 0 client budget (visit client url referer budget within).result

/-! ## Frames and follow-ups -/

theorem accounts_visitFrames {bound : Nat} {visit : Visit σ bound} (visits : Visit.Accounts visit)
    (target : Target) (frames : List Markup.Frame) (client : Client σ) (budget : Budget)
    (within : budget.remaining ≤ bound) :
    Accounts 0 client budget (visitFrames visit target frames client budget within).result := by
  induction frames generalizing client budget with
  | nil => exact .of_advances (.refl client)
  | cons frame rest ih =>
    obtain ⟨count, moved, taken⟩ :=
      visits client (target.resolve frame.source) target.url budget within
    obtain ⟨others, onwards, left⟩ := ih _ _
      (visit client (target.resolve frame.source) target.url budget within).spent
    refine ⟨count + others, ?_, ?_⟩
    · rw [Nat.zero_add] at moved onwards ⊢
      exact moved.trans onwards
    · simp only [Leg.result] at taken left
      simp only [Leg.result, visitFrames]
      omega

private theorem accounts_inlineFrames {bound : Nat} {visit : Visit σ bound}
    (visits : Visit.Accounts visit) (target : Target) (client : Client σ) (text : Text)
    (budget : Budget) (within : budget.remaining ≤ bound) :
    Accounts 0 client budget (inlineFrames visit target client text budget within).result := by
  unfold inlineFrames
  split
  · exact accounts_visitFrames visits target (Markup.frames text) client budget within
  · exact .of_advances (.refl client)

/-- The request that is sent here has had its place in the budget before. -/
theorem accounts_settle {bound : Nat} {visit : Visit σ bound} (visits : Visit.Accounts visit)
    (network : Network σ) (client : Client σ) (target : Target) (request : Request)
    (budget : Budget) (within : budget.remaining ≤ bound) :
    Accounts 1 client budget
      (settle network visit client target request budget within).result := by
  have exchanged := Advances.exchange network client target request .text ()
  rcases sent : client.exchange network target request .text () with ⟨later, ⟨⟩, outcome⟩
  rw [sent] at exchanged
  unfold settle
  rw [sent]
  cases outcome with
  | error failure => exact .of_advances (exchanged.trans (.fail later failure))
  | ok response =>
    dsimp only
    cases response.followUp? target later.session.config with
    | some next => exact .after exchanged (visits later next.url target.url budget within)
    | none =>
      exact .after exchanged
        (accounts_inlineFrames visits target later response.text budget within)

/-- A fetch tries as many hosts as it takes requests from the budget, on every path
and at every depth. -/
theorem accounts_fetch (network : Network σ) (client : Client σ) (url : Text)
    (referer : Option Text) (budget : Budget) :
    Accounts 0 client budget (fetch network client url referer budget).result := by
  induction client, url, referer, budget using fetch.induct network with
  | case1 client url referer budget failure invalid =>
    rw [result_fetch_of_invalid network client referer budget invalid]
    exact .of_advances (.fail client failure)
  | case2 client url referer budget target parsed spent =>
    rw [result_fetch_of_spent network client referer parsed spent]
    exact .of_advances (.fail client _)
  | case3 client url referer budget target parsed next entered fewer ih =>
    rw [result_fetch network client referer parsed entered]
    have visits : Visit.Accounts (revisit network next.remaining) :=
      fun client url referer left within => ih client url referer left within
    obtain ⟨count, moved, taken⟩ := accounts_settle visits network client target
      (client.session.request .get target referer) next (Nat.le_refl _)
    have place := Budget.remaining_of_enter? entered
    refine ⟨1 + count, ?_, by omega⟩
    simpa only [Nat.zero_add] using moved

theorem accounts_revisit (network : Network σ) (bound : Nat) :
    Visit.Accounts (revisit network bound) :=
  fun client url referer left _ => accounts_fetch network client url (some referer) left

theorem accounts_follow (network : Network σ) (client : Client σ) (target : Target)
    (request : Request) (budget : Budget) :
    Accounts 1 client budget (follow network client target request budget).result :=
  accounts_settle (accounts_revisit network budget.remaining) network client target request budget
    (Nat.le_refl _)

/-! ## Calls -/

def Within (before after : Client σ) : Prop :=
  ∃ count, Advances count before after ∧ count ≤ before.session.config.recursionLimit

theorem Within.attempts {before after : Client σ} (within : Within before after) :
    after.outside.attempts ≤ before.outside.attempts + before.session.config.recursionLimit := by
  obtain ⟨count, moved, bounded⟩ := within
  rw [moved.outside.attempts]
  omega

theorem Within.fail (client : Client σ) (failure : Failure) : Within client (client.fail failure) :=
  ⟨0, .fail client failure, Nat.zero_le _⟩

/-- A post whose place in the budget is taken comes to what its request does. -/
theorem postBody_of_entered (network : Network σ) (client : Client σ) {url : Text}
    {target : Target} {next : Budget} (parsed : Target.parse url = .ok target)
    (entered : client.budget.enter? = some next) (body : Body) (contentType : Text) :
    client.postBody network url body contentType =
      let page := (settle network (revisit network next.remaining) (client.report [.notice]) target
        (client.session.attach (client.session.request .post target none) body (some contentType))
        next (Nat.le_refl _)).result
      (page.1, page.2.1) := by
  have taken : (client.report [.notice]).budget.enter? = some next := entered
  unfold postBody
  simp only [parsed, taken]
  rfl

end Client

end WebClient
