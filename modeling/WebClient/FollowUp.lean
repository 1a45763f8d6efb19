import WebClient.Config
import WebClient.Markup.Refresh
import WebClient.Response
import WebClient.Target

/-!
# Following up

A response may call for another request: by the place it refers to, or by a
refresh tag in its text. All requests of one call share a budget, so that no
server can keep the client going for ever.
-/

set_option autoImplicit false

namespace WebClient

/-- The number of requests that a call may make, and how many it has made. -/
structure Budget where
  used : Nat
  limit : Nat
  used_le : used ≤ limit := by omega
  deriving DecidableEq, Repr

namespace Budget

def ofLimit (limit : Nat) : Budget :=
  { used := 0, limit }

def remaining (budget : Budget) : Nat :=
  budget.limit - budget.used

def enter? (budget : Budget) : Option Budget :=
  if left : budget.used < budget.limit then
    some { used := budget.used + 1, limit := budget.limit, used_le := left }
  else none

theorem remaining_of_enter? {budget next : Budget} (entered : budget.enter? = some next) :
    next.remaining + 1 = budget.remaining := by
  unfold enter? at entered
  split at entered
  · cases entered
    simp [remaining]; omega
  · cases entered

theorem enter?_eq_none_iff {budget : Budget} : budget.enter? = none ↔ budget.remaining = 0 := by
  have bound := budget.used_le
  simp [enter?, remaining]; omega

end Budget

inductive FollowUp
  | location (url : Text)
  | refresh (url : Text)
  deriving DecidableEq, Repr

namespace FollowUp

def url : FollowUp → Text
  | location url => url
  | refresh url => url

end FollowUp

namespace Response

/-- Whether a text is searched for tags: it is short enough and is markup. -/
def isScanned (config : Config) (text : Text) : Bool :=
  Text.byteLength text ≤ config.scanLimit && Markup.isMarkup text

/-- The request that a response to a target calls for. The place it refers to
comes before any refresh tag, and a response that asks for another place but
names none is not searched for one. -/
def followUp? (response : Response) (target : Target) (config : Config) : Option FollowUp :=
  match response.location? with
  | some location => some (.location (target.resolve location))
  | none =>
    if !config.autoRedirect || Status.isElsewhere response.code
        || !isScanned config response.text then none
    else (Markup.refresh? response.text).map fun url => .refresh (target.resolve url)

end Response

end WebClient
