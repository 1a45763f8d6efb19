import WebClient.Proofs.Budget
import WebClient.Proofs.Course

/-!
# Following a trail

The requests of a call lie on a trail: after the first, each is for a place that the answer
to an earlier one refers to, and names the target of that earlier one as its referer. A
fetch stays on the trail at every depth, with the referer of the page it is a part of.
-/

set_option autoImplicit false

namespace WebClient

variable {σ τ : Type}

/-! ## Where an answer leads -/

/-- The URLs that are fetched for a page: the one it calls for or else those of its frames. -/
inductive Response.LeadsTo (config : Config) (target : Target) (response : Response) : Text → Prop
  | followUp {next : FollowUp} (calls : response.followUp? target config = some next) :
      LeadsTo config target response next.url
  | frame {frame : Markup.Frame} (settled : response.followUp? target config = none)
      (loads : config.loadFrames = true)
      (scanned : Response.isScanned config response.text = true)
      (listed : frame ∈ Markup.frames response.text) :
      LeadsTo config target response (target.resolve frame.source)

inductive Following
  | nothing
  | location
  | page

namespace Following

def streams : Following → Bool
  | location => true
  | nothing | page => false

def Leads (following : Following) (config : Config) (target : Target) (response : Response)
    (url : Text) : Prop :=
  match following with
  | nothing => False
  | location => ∃ place, response.location? = some place ∧ url = target.resolve place
  | page => response.LeadsTo config target url

end Following

def Answered (log : List Event) (target : Target) (answer : Answer) : Prop :=
  ∃ request sent, (∀ event ∈ sent, event.isHandover = true) ∧
    .asked target request :: sent ++
      [.answered target answer.head, .took answer.before answer.after]
      <:+: log

theorem Answered.append {log : List Event} {target : Target} {answer : Answer}
    (answered : Answered log target answer) (more : List Event) :
    Answered (log ++ more) target answer := by
  obtain ⟨request, sent, handover, part⟩ := answered
  exact ⟨request, sent, handover, part.trans (List.prefix_append log more).isInfix⟩

theorem Course.answered {config : Config} {streams : Bool} {target : Target}
    {request : Request} {answer : Answer} {events : List Event}
    (course : Course config streams target request (some answer) events) (log : List Event) :
    Answered (log ++ events) target answer := by
  cases course with
  | @opened front sent answer? approach handover begins skips =>
    refine ⟨request, sent, handover, log ++ front, [.hungUp], ?_⟩
    simp [Answer.events]

/-- Among some events an answer was given that leads to a URL, and the referer is the URL
of the target that gave it. -/
def LedTo (following : Following) (config : Config) (log : List Event) (url referer : Text) :
    Prop :=
  ∃ parent answer, Answered log parent answer ∧
    following.Leads config parent answer.response url ∧ referer = parent.url

theorem LedTo.append {following : Following} {config : Config} {log : List Event}
    {url referer : Text} (led : LedTo following config log url referer) (more : List Event) :
    LedTo following config (log ++ more) url referer := by
  obtain ⟨parent, answer, answered, leads, refers⟩ := led
  exact ⟨parent, answer, answered.append more, leads, refers⟩

/-- The events of a call that begins with a session: an exchange of its own, whose request
has the method and no referer, and then exchanges to which earlier answers led. -/
inductive Trail (following : Following) (method : Method) (start : Session) : List Event → Prop
  | nil : Trail following method start []
  | first {target : Target} {body : Body} {contentType : Option Text} {answer? : Option Answer}
      {events : List Event}
      (course : Course start.config following.streams target
        (start.attach (start.request method target none) body contentType) answer? events) :
      Trail following method start events
  | onward {log : List Event} {url referer : Text} {target : Target} {answer? : Option Answer}
      {events : List Event} (trail : Trail following method start log)
      (led : LedTo following start.config log url referer)
      (parsed : Target.parse url = .ok target)
      (course : Course start.config following.streams target
        ((start.after log).request .get target (some referer)) answer? events) :
      Trail following method start (log ++ events)

def Trail.IsDue (following : Following) (method : Method) (start : Session) (log : List Event)
    (target : Target) (request : Request) : Prop :=
  ∀ answer? events, Course start.config following.streams target request answer? events →
    Trail following method start (log ++ events)

/-! ## Staying on the trail -/

namespace Answer.Gives

variable {answer : Answer} {response : Response} {intake : Intake τ}

theorem location? (gives : answer.Gives intake response) :
    response.location? = answer.response.location? := by
  unfold Response.location?
  rw [gives.code, gives.fields]
  rfl

theorem followUp? (gives : answer.Gives (.text : Intake τ) response) (target : Target)
    (config : Config) :
    response.followUp? target config = answer.response.followUp? target config := by
  unfold Response.followUp?
  rw [gives.location?, gives.code, gives.text rfl]
  rfl

end Answer.Gives

namespace Client

variable {following : Following} {method : Method} {begun client : Client σ} {log : List Event}

theorem Reaches.config {before after : Client σ} {events : List Event}
    (reaches : Reaches before after events) :
    after.session.config = before.session.config :=
  reaches.session.config.trans (before.session.config_after events)

/-- A client has come along a trail. -/
structure OnTrail (following : Following) (method : Method) (begun client : Client σ)
    (log : List Event) : Prop where
  reaches : Reaches begun client log
  trail : Trail following method begun.session log

def Continues (following : Following) (method : Method) (begun later : Client σ)
    (log : List Event) : Prop :=
  ∃ more, OnTrail following method begun later (log ++ more)

theorem OnTrail.continues (here : OnTrail following method begun client log) :
    Continues following method begun client log :=
  ⟨[], by rwa [List.append_nil]⟩

theorem OnTrail.still (here : OnTrail following method begun client log) {later : Client σ}
    (reaches : Reaches client later []) : OnTrail following method begun later log :=
  ⟨by simpa using here.reaches.trans reaches, here.trail⟩

theorem Continues.of_append {later : Client σ} {more : List Event}
    (further : Continues following method begun later (log ++ more)) :
    Continues following method begun later log := by
  obtain ⟨rest, there⟩ := further
  exact ⟨more ++ rest, by rwa [← List.append_assoc]⟩

/-- A request to which an earlier answer led is due. -/
theorem OnTrail.isDue (here : OnTrail following method begun client log) {url referer : Text}
    (led : LedTo following begun.session.config log url referer) {target : Target}
    (parsed : Target.parse url = .ok target) :
    Trail.IsDue following method begun.session log target
      (client.session.request .get target (some referer)) := by
  intro answer? events course
  rw [here.reaches.session.request] at course
  exact .onward here.trail led parsed course

/-- An exchange whose request is due stays on the trail, and its answer stands in the log. -/
theorem OnTrail.exchange (here : OnTrail following method begun client log)
    (network : Network σ) (target : Target) (request : Request) (intake : Intake τ) (state : τ)
    (streams : intake.isOutput = following.streams)
    (due : Trail.IsDue following method begun.session log target request) :
    ∃ events,
      OnTrail following method begun (client.exchange network target request intake state).1
        (log ++ events) ∧
      ∀ response, (client.exchange network target request intake state).2.2 = .ok response →
        ∃ answer, Answered (log ++ events) target answer ∧ answer.Gives intake response := by
  obtain ⟨answer?, events, course, reaches, gives⟩ :=
    course_exchange network client target request intake state
  rw [streams, here.reaches.config] at course
  refine ⟨events, ⟨here.reaches.trans reaches, due answer? events course⟩, ?_⟩
  intro response given
  obtain ⟨answer, rfl, same⟩ := gives response given
  exact ⟨answer, course.answered log, same⟩

/-! ## Pages -/

section Pages

variable {bound : Nat}

def Visit.Follows (visit : Visit σ bound) (method : Method) (begun : Client σ) : Prop :=
  ∀ client log url referer budget within, OnTrail .page method begun client log →
    LedTo .page begun.session.config log url referer →
    Continues .page method begun (visit client url referer budget within).result.1 log

variable {visit : Visit σ bound} (follows : Visit.Follows visit method begun)

include follows

private theorem continues_visitFrames (target : Target) (frames : List Markup.Frame)
    (client : Client σ) (budget : Budget) (within : budget.remaining ≤ bound) {log : List Event}
    (here : OnTrail .page method begun client log)
    (led : ∀ frame ∈ frames,
      LedTo .page begun.session.config log (target.resolve frame.source) target.url) :
    Continues .page method begun
      (visitFrames visit target frames client budget within).result.1 log := by
  induction frames generalizing client budget log with
  | nil => exact here.continues
  | cons frame rest ih =>
    obtain ⟨first, others⟩ := List.forall_mem_cons.1 led
    obtain ⟨more, there⟩ := follows client log (target.resolve frame.source) target.url budget
      within here first
    -- What led to the later frames still does after whatever the first one brought.
    exact (ih _ _ _ there fun frame listed => (others frame listed).append more).of_append

private theorem continues_inlineFrames (target : Target) (client : Client σ) (text : Text)
    (budget : Budget) (within : budget.remaining ≤ bound)
    (here : OnTrail .page method begun client log)
    (led : client.session.config.loadFrames = true →
      Response.isScanned client.session.config text = true → ∀ frame ∈ Markup.frames text,
        LedTo .page begun.session.config log (target.resolve frame.source) target.url) :
    Continues .page method begun
      (inlineFrames visit target client text budget within).result.1 log := by
  unfold inlineFrames
  split
  · rename_i framed
    obtain ⟨loads, scanned⟩ := Bool.and_eq_true_iff.1 framed
    exact continues_visitFrames follows target (Markup.frames text) client budget within here
      (led loads scanned)
  · exact here.continues

theorem continues_settle (network : Network σ) {client : Client σ} {target : Target}
    {request : Request} {budget : Budget} (within : budget.remaining ≤ bound)
    (here : OnTrail .page method begun client log)
    (due : Trail.IsDue .page method begun.session log target request) :
    Continues .page method begun
      (settle network visit client target request budget within).result.1 log := by
  obtain ⟨events, there, answers⟩ := here.exchange network target request .text () rfl due
  suffices further : Continues .page method begun
      (settle network visit client target request budget within).result.1 (log ++ events) from
    further.of_append
  unfold settle
  rcases sent : client.exchange network target request .text () with ⟨later, ⟨⟩, outcome⟩
  rw [sent] at there answers
  cases outcome with
  | error failure => exact (there.still (.fail later failure)).continues
  | ok response =>
    obtain ⟨answer, answered, gives⟩ := answers response rfl
    have config : later.session.config = begun.session.config := there.reaches.config
    have calls := gives.followUp? target later.session.config
    dsimp only
    cases next : response.followUp? target later.session.config with
    | some followUp =>
      rw [next, config] at calls
      exact follows later _ followUp.url target.url budget within there
        ⟨target, answer, answered, .followUp calls.symm, rfl⟩
    | none =>
      rw [next, config] at calls
      refine continues_inlineFrames follows target later response.text budget within there ?_
      intro loads scanned frame listed
      rw [gives.text rfl] at scanned listed
      rw [config] at loads scanned
      exact ⟨target, answer, answered, .frame calls.symm loads scanned listed, rfl⟩

end Pages

/-- A fetch whose request is due stays on the trail, on every path and at every depth. -/
theorem continues_fetch (network : Network σ) (client : Client σ) (url : Text)
    (referer : Option Text) (budget : Budget) (log : List Event)
    (here : OnTrail .page method begun client log)
    (due : ∀ target, Target.parse url = .ok target →
      Trail.IsDue .page method begun.session log target
        (client.session.request .get target referer)) :
    Continues .page method begun (fetch network client url referer budget).result.1 log := by
  induction client, url, referer, budget using fetch.induct network generalizing log with
  | case1 client url referer budget failure invalid =>
    rw [result_fetch_of_invalid network client referer budget invalid]
    exact (here.still (.fail client failure)).continues
  | case2 client url referer budget target parsed spent =>
    rw [result_fetch_of_spent network client referer parsed spent]
    exact (here.still (.fail client _)).continues
  | case3 client url referer budget target parsed next entered fewer ih =>
    rw [result_fetch network client referer parsed entered]
    refine continues_settle ?_ network (Nat.le_refl _) here (due target parsed)
    intro client log url referer left within here led
    exact ih client url referer left within log here fun target parsed => here.isDue led parsed

theorem follows_revisit (network : Network σ) (bound : Nat) (method : Method)
    (begun : Client σ) : Visit.Follows (revisit network bound) method begun := by
  intro client log url referer budget within here led
  exact continues_fetch network client url (some referer) budget log here fun target parsed =>
    here.isDue led parsed

/-! ## Downloads -/

theorem continues_downloadFrom (network : Network σ) (client : Client σ) (url : Text)
    (referer : Option Text) (budget : Budget) (output : Output τ) (state : τ) (log : List Event)
    (here : OnTrail .location method begun client log)
    (due : ∀ target, Target.parse url = .ok target →
      Trail.IsDue .location method begun.session log target
        (client.session.request .get target referer)) :
    Continues .location method begun
      (downloadFrom network client url referer budget output state).1 log := by
  fun_induction downloadFrom network client url referer budget output state generalizing log with
  | case1 client url referer budget state failure invalid =>
    exact (here.still (.fail client failure)).continues
  | case2 client url referer budget state target parsed spent =>
    exact (here.still (.fail client _)).continues
  | case3 client url referer budget state target parsed next entered later held failure sent =>
    obtain ⟨events, there, -⟩ := here.exchange network target _ (.output output) state rfl
      (due target parsed)
    rw [sent] at there
    exact (there.still (.fail later failure)).continues.of_append
  | case4 client url referer budget state target parsed next entered later held response sent
      location refers ih =>
    obtain ⟨events, there, answers⟩ := here.exchange network target _ (.output output) state rfl
      (due target parsed)
    rw [sent] at there answers
    obtain ⟨answer, answered, gives⟩ := answers response rfl
    have place : answer.response.location? = some location := gives.location? ▸ refers
    refine (ih _ there fun onward read => there.isDue ?_ read).of_append
    exact ⟨target, answer, answered, ⟨location, place, rfl⟩, rfl⟩
  | case5 client url referer budget state target parsed next entered later held response sent
      settled =>
    obtain ⟨events, there, -⟩ := here.exchange network target _ (.output output) state rfl
      (due target parsed)
    rw [sent] at there
    exact there.continues.of_append

end Client

end WebClient
