import WebClient.Client
import WebClient.FollowUp
import WebClient.Markup.Frame

/-!
# Fetching a page

A page is fetched together with whatever stands in its place: where the response
refers elsewhere, the page there; where it shows frames, the pages in them. Every
fetch takes one request from the budget of the call before it does anything on
the network, so there are never more fetches than the budget has requests.

A download follows the places that responses refer to in the same way, but has no
eye for what is in them.
-/

set_option autoImplicit false

namespace WebClient.Client

variable {σ τ : Type}

/-- The outcome of a part of a call: a value, and what it left of the budget. -/
structure Leg (σ α : Type) (bound : Nat) where
  client : Client σ
  value : α
  budget : Budget
  spent : budget.remaining ≤ bound

/-- A way to fetch the page at a URL, on the part of the page whose URL is the
referer, for which at most `bound` requests are left. -/
abbrev Visit (σ : Type) (bound : Nat) :=
  Client σ → (url referer : Text) → (budget : Budget) → budget.remaining ≤ bound →
    Leg σ Text bound

variable {bound : Nat}

def visitFrames (visit : Visit σ bound) (target : Target) :
    List Markup.Frame → Client σ → (budget : Budget) → budget.remaining ≤ bound →
      Leg σ (List Markup.Inset) bound
  | [], client, budget, within => ⟨client, [], budget, within⟩
  | frame :: rest, client, budget, within =>
    let url := target.resolve frame.source
    let page := visit client url target.url budget within
    let others := visitFrames visit target rest page.client page.budget page.spent
    { others with value := ⟨frame, url, page.value⟩ :: others.value }

def inlineFrames (visit : Visit σ bound) (target : Target) (client : Client σ) (text : Text)
    (budget : Budget) (within : budget.remaining ≤ bound) : Leg σ Text bound :=
  if client.session.config.loadFrames && Response.isScanned client.session.config text then
    let insets := visitFrames visit target (Markup.frames text) client budget within
    { insets with value := Markup.splice text insets.value }
  else ⟨client, text, budget, within⟩

def settle (network : Network σ) (visit : Visit σ bound) (client : Client σ) (target : Target)
    (request : Request) (budget : Budget) (within : budget.remaining ≤ bound) :
    Leg σ Text bound :=
  match client.exchange network target request .text () with
  | (client, _, .error failure) => ⟨client.fail failure, [], budget, within⟩
  | (client, _, .ok response) =>
    match response.followUp? target client.session.config with
    | some next => visit client next.url target.url budget within
    | none => inlineFrames visit target client response.text budget within

/-- Fetches the page at a URL. A page that cannot be had is empty, and the failure
is taken note of. -/
def fetch (network : Network σ) (client : Client σ) (url : Text) (referer : Option Text)
    (budget : Budget) : Leg σ Text budget.remaining :=
  match Target.parse url with
  | .error failure => ⟨client.fail failure, [], budget, Nat.le_refl _⟩
  | .ok target =>
    match _entered : budget.enter? with
    | none => ⟨client.fail (.budgetSpent url budget.limit), [], budget, Nat.le_refl _⟩
    | some next =>
      have fewer : next.remaining < budget.remaining :=
        Nat.lt_of_succ_le (Nat.le_of_eq (Budget.remaining_of_enter? _entered))
      let visit : Visit σ next.remaining := fun client url referer left within =>
        let page := fetch network client url (some referer) left
        { page with spent := Nat.le_trans page.spent within }
      let page := settle network visit client target
        (client.session.request .get target referer) next (Nat.le_refl _)
      { page with spent := Nat.le_trans page.spent (Nat.le_of_lt fewer) }
termination_by budget.remaining
decreasing_by exact Nat.lt_of_le_of_lt within fewer

def follow (network : Network σ) (client : Client σ) (target : Target) (request : Request)
    (budget : Budget) : Leg σ Text budget.remaining :=
  let visit : Visit σ budget.remaining := fun client url referer left within =>
    let page := fetch network client url (some referer) left
    { page with spent := Nat.le_trans page.spent within }
  settle network visit client target request budget (Nat.le_refl _)

/-- Copies the body at a URL to an output, and gives the number of bytes that the
output took. -/
def downloadFrom (network : Network σ) (client : Client σ) (url : Text) (referer : Option Text)
    (budget : Budget) (output : Output τ) (state : τ) : Client σ × τ × Nat :=
  match Target.parse url with
  | .error failure => (client.fail failure, state, 0)
  | .ok target =>
    match _entered : budget.enter? with
    | none => (client.fail (.budgetSpent url budget.limit), state, 0)
    | some next =>
      match client.exchange network target (client.session.request .get target referer)
          (.output output) state with
      | (client, state, .error failure) => (client.fail failure, state, 0)
      | (client, state, .ok response) =>
        match response.location? with
        | some location =>
          downloadFrom network client (target.resolve location) (some target.url) next output state
        | none => (client, state, response.copied)
termination_by budget.remaining
decreasing_by
  have fewer := Budget.remaining_of_enter? _entered
  omega

end WebClient.Client
