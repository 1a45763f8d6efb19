import WebClient.Proofs.Operations
import WebClient.Proofs.RecursionLimit
import WebClient.Proofs.RequestHead

/-!
# The requests of an operation

What an operation has asked, read off its events. Its own request comes first and refers to
nothing; every later one is for a page that an earlier answer led to, and says so. So a body
is sent at most once.
-/

set_option autoImplicit false

namespace WebClient

variable {σ τ : Type}

namespace Event

def isAsked : Event → Bool
  | asked .. => true
  | _ => false

def asksWithBody : Event → Bool
  | asked _ request => !request.body.isEmpty
  | _ => false

def request? : Event → Option (Target × Request)
  | asked target request => some (target, request)
  | _ => none

def isSpoken : Event → Bool
  | asked .. | answered .. | took .. => true
  | _ => false

theorem isSpoken_of_isHandover {event : Event} (handover : event.isHandover = true) :
    event.isSpoken = false := by
  cases event with
  | wrote | shook => rfl
  | _ => cases handover

theorem isAsked_of_not_isSpoken {event : Event} (silent : event.isSpoken = false) :
    event.isAsked = false := by
  cases event with
  | asked => cases silent
  | _ => rfl

private theorem asksWithBody_of_not_isAsked {event : Event} (other : event.isAsked = false) :
    event.asksWithBody = false := by
  cases event with
  | asked => cases other
  | _ => rfl

end Event

/-! ## The request of an exchange -/

/-- Nothing is asked or answered while a connection is made ready. -/
theorem Connection.Approach.not_isSpoken {config : Config} {target : Target}
    {events : List Event} {isReady : Bool} (approach : Approach config target events isReady) :
    ∀ event ∈ events, event.isSpoken = false := by
  cases approach with
  | unreached => exact List.forall_mem_singleton.2 rfl
  | unready secure begins =>
    refine List.forall_mem_append.2 ⟨?_, List.forall_mem_singleton.2 rfl⟩
    refine List.forall_mem_cons.2 ⟨rfl, List.forall_mem_cons.2 ⟨rfl, ?_⟩⟩
    exact fun event member =>
      Event.isSpoken_of_isHandover (handover_of_begins begins event member)
  | ready =>
    refine List.forall_mem_append.2 ⟨?_, List.forall_mem_singleton.2 rfl⟩
    refine List.forall_mem_cons.2 ⟨rfl, List.forall_mem_cons.2 ⟨rfl, ?_⟩⟩
    exact fun event member =>
      Event.isSpoken_of_isHandover (handover_overture config target event member)

theorem not_mem_of_not_isSpoken {events : List Event} {event : Event}
    (silent : ∀ event ∈ events, event.isSpoken = false) (spoken : event.isSpoken = true) :
    event ∉ events := by
  intro member
  rw [silent event member] at spoken
  cases spoken

/-- A part of two lists that begins with some element begins in one of the two. -/
theorem split_of_append_eq {α : Type} {first second early late : List α} {x : α}
    (split : first ++ second = early ++ x :: late) :
    (∃ rest, first = early ++ x :: rest) ∨
      ∃ front, early = first ++ front ∧ second = front ++ x :: late := by
  rcases List.append_eq_append_iff.1 split with ⟨front, whole, rest⟩ | ⟨part, whole, rest⟩
  · exact .inr ⟨front, whole, rest⟩
  · cases part with
    | nil => exact .inr ⟨[], by simpa using whole.symm, by simpa using rest.symm⟩
    | cons y part =>
      obtain ⟨rfl, -⟩ := List.cons.inj rest
      exact .inl ⟨part, whole⟩

section

variable {config : Config} {streams : Bool} {target other : Target} {request : Request}
  {asked : Request} {answer? : Option Answer} {events early late : List Event}

/-- An exchange asks for nothing but its own request, once its connection is ready. -/
theorem Course.of_asked (course : Course config streams target request answer? events)
    (split : events = early ++ .asked other asked :: late) :
    other = target ∧ asked = request ∧ Connection.Approach config target early true := by
  cases course with
  | unopened approach =>
    exact absurd (split ▸ List.mem_append_right early (.head late))
      (not_mem_of_not_isSpoken approach.not_isSpoken rfl)
  | @opened front sent answer? approach handover begins skips =>
    have before : .asked other asked ∉ front := not_mem_of_not_isSpoken approach.not_isSpoken rfl
    have sending : .asked other asked ∉ sent := fun member => by cases handover _ member
    have behind : .asked other asked ∉ sent ++ Answer.events target answer? ++ [.hungUp] := by
      cases answer? <;> simp [sending, Answer.events]
    obtain ⟨rfl, same, -⟩ :=
      (List.append_cons_inj_of_notMem before behind).1 (by simpa using split)
    cases same
    exact ⟨rfl, rfl, approach⟩

/-- What is spoken of in an exchange, apart from the request, is its answer. -/
theorem Course.mem_answer {event : Event}
    (course : Course config streams target request answer? events) (listed : event ∈ events)
    (spoken : event.isSpoken = true) (answering : event.isAsked = false) :
    event ∈ Answer.events target answer? := by
  cases course with
  | unopened approach => exact absurd listed (not_mem_of_not_isSpoken approach.not_isSpoken spoken)
  | @opened front sent answer? approach handover begins skips =>
    have opening : event ∉ front := not_mem_of_not_isSpoken approach.not_isSpoken spoken
    have sending : event ∉ sent := not_mem_of_not_isSpoken
      (fun event member => Event.isSpoken_of_isHandover (handover event member)) spoken
    have asking : event ≠ .asked target request := by
      rintro rfl
      cases answering
    have closing : event ≠ .hungUp := by
      rintro rfl
      cases spoken
    simpa [opening, sending, asking, closing] using listed

/-- What is answered is the request that was sent just before. -/
theorem Course.of_answered {head : Response}
    (course : Course config streams target request answer? events)
    (split : events = early ++ .answered other head :: late) :
    other = target ∧ ∃ front sent, early = front ++ .asked target request :: sent ∧
      ∀ event ∈ sent, event.isHandover = true := by
  have listed := course.mem_answer (split ▸ List.mem_append_right early (.head late)) rfl rfl
  cases answer? with
  | none => cases listed
  | some answer =>
    cases course with
    | @opened front sent _ approach handover begins skips =>
      have opening : .answered other head ∉ front :=
        not_mem_of_not_isSpoken approach.not_isSpoken rfl
      have sending : .answered other head ∉ sent := fun member => by cases handover _ member
      have before : .answered other head ∉ front ++ .asked target request :: sent := by
        simp [opening, sending]
      have behind : Event.answered other head ∉
          [Event.took answer.before answer.after, .hungUp] := by simp
      obtain ⟨rfl, same, -⟩ :=
        (List.append_cons_inj_of_notMem before behind).1 (by simpa [Answer.events] using split)
      cases same
      exact ⟨rfl, front, sent, rfl, handover⟩

theorem Course.countP_asksWithBody
    (course : Course config streams target request answer? events) :
    events.countP Event.asksWithBody ≤ if request.body.isEmpty then 0 else 1 := by
  have silent {part : List Event} (others : ∀ event ∈ part, event.isSpoken = false) :
      part.countP Event.asksWithBody = 0 := by
    rw [List.countP_eq_zero]
    intro event member
    have other := Event.isAsked_of_not_isSpoken (others event member)
    simp [Event.asksWithBody_of_not_isAsked other]
  cases course with
  | unopened approach =>
    rw [silent approach.not_isSpoken]
    exact Nat.zero_le _
  | @opened front sent answer? approach handover begins skips =>
    have sending := silent fun event member => Event.isSpoken_of_isHandover (handover event member)
    have answering : (Answer.events target answer?).countP Event.asksWithBody = 0 := by
      cases answer? <;> rfl
    simp only [List.countP_append, List.countP_cons, silent approach.not_isSpoken, sending,
      answering, List.countP_nil, Event.asksWithBody]
    by_cases bare : request.body.isEmpty = true <;> simp [bare]

end

/-! ## The requests of a trail -/

namespace Trail

variable {following : Following} {method : Method} {start : Session} {log : List Event}

/-- On a trail a request is the operation's own, and the first, or an answer led to it. -/
theorem of_asked (trail : Trail following method start log) {early late : List Event}
    {target : Target} {request : Request} (split : log = early ++ .asked target request :: late) :
    ((∀ event ∈ early, event.isAsked = false) ∧ ∃ body contentType,
      request = start.attach (start.request method target none) body contentType) ∨
    ∃ url referer session, LedTo following start.config early url referer ∧
      Target.parse url = .ok target ∧ session.config = start.config ∧
      request = Session.request session .get target (some referer) := by
  induction trail generalizing late with
  | nil => simp at split
  | first course =>
    obtain ⟨rfl, rfl, approach⟩ := course.of_asked split
    exact .inl ⟨fun event member =>
      Event.isAsked_of_not_isSpoken (approach.not_isSpoken event member), _, _, rfl⟩
  | @onward log url referer target answer? events trail led parsed course ih =>
    rcases split_of_append_eq split with ⟨rest, within⟩ | ⟨front, rfl, behind⟩
    · exact ih within
    · obtain ⟨rfl, rfl, approach⟩ := course.of_asked behind
      exact .inr ⟨url, referer, start.after log, led.append front, parsed,
        start.config_after log, rfl⟩

/-- Only the operation's own request has a body. -/
theorem countP_asksWithBody (trail : Trail following method start log) :
    log.countP Event.asksWithBody ≤ 1 := by
  induction trail with
  | nil => exact Nat.zero_le 1
  | first course =>
    refine course.countP_asksWithBody.trans ?_
    split <;> decide
  | @onward log url referer target answer? events trail led parsed course ih =>
    have bare : events.countP Event.asksWithBody ≤ 0 := course.countP_asksWithBody
    rw [List.countP_append]
    omega

end Trail

theorem LedTo.isAsked {following : Following} {config : Config} {log : List Event}
    {url referer : Text} (led : LedTo following config log url referer) :
    ∃ event ∈ log, event.isAsked = true := by
  obtain ⟨parent, answer, ⟨request, sent, handover, part⟩, leads, refers⟩ := led
  exact ⟨.asked parent request, part.subset (by simp), rfl⟩

namespace Session

variable (session : Session) (request : Request) (body : Body) (contentType : Option Text)

@[simp] theorem method_attach :
    (session.attach request body contentType).method = request.method := by
  unfold attach
  split <;> rfl

@[simp] theorem referer_attach :
    (session.attach request body contentType).referer = request.referer := by
  unfold attach
  split <;> rfl

@[simp] theorem extra_attach :
    (session.attach request body contentType).extra = request.extra := by
  unfold attach
  split <;> rfl

/-- The cookies make no referer. -/
theorem named_referer_extra (method : Method) (target : Target) (referer : Option Text) :
    Request.named "Referer" (session.request method target referer).extra =
      Request.named "Referer" session.config.extraFields := by
  have extra : (session.request method target referer).extra = session.config.extraFields ++
      Request.optional "Cookie" (session.cookieField? target) := rfl
  rw [extra, Request.named_append, Request.named_optional_of_ne (by decide), List.append_nil]

/-- Whatever its method, a request that refers to nothing has no referer but a configured one. -/
theorem mem_extraFields_of_named {method : Method} {target : Target} {field : Text × Text}
    (named : field ∈ Request.named "Referer"
      (session.attach (session.request method target none) body contentType).fields) :
    field ∈ session.config.extraFields := by
  by_cases whole : method = .shortGet
  · subst whole
    have bare : (session.attach (session.request .shortGet target none) body contentType).fields =
        [] := by
      simp only [Request.fields, method_attach]
      rfl
    rw [bare] at named
    cases named
  · have plain : (session.request method target none).referer = none := by
      show (if session.config.sendReferer then none else none) = none
      split <;> rfl
    rw [Request.named_referer_fields (by rwa [method_attach]), referer_attach, plain, extra_attach,
      named_referer_extra] at named
    exact (List.mem_filter.1 named).1

end Session

/-- An operation first asks what is its own, with its method and without a referer. All that
it asks afterwards is to get a page that an answer to an earlier request led to, with the
target of that request as the referer. So at most one of its requests has a body. -/
theorem Client.requests_of_operate (network : Network σ) (client : Client σ)
    (operation : Operation) (sends : client.session.config.sendReferer = true) :
    ∃ log, (client.operate network operation).outside.events = client.outside.events ++ log ∧
      log.countP Event.asksWithBody ≤ 1 ∧
      ∀ early target request late, log = early ++ .asked target request :: late →
        ((∀ event ∈ early, event.isAsked = false) →
          request.method = operation.method ∧ request.referer = none ∧
          ∀ field ∈ Request.named "Referer" request.fields,
            field ∈ client.session.config.extraFields) ∧
        ((∃ event ∈ early, event.isAsked = true) →
          request.method = .get ∧ request.body = .empty ∧
          ∃ parent answer url, Answered early parent answer ∧
            operation.following.Leads client.session.config parent answer.response url ∧
            Target.parse url = .ok target ∧
            Request.named "Referer" request.fields = ("Referer".toList, parent.url) ::
              Request.named "Referer" client.session.config.extraFields) := by
  obtain ⟨log, there⟩ := onTrail_operate network client operation
  refine ⟨log, there.reaches.outside, there.trail.countP_asksWithBody, ?_⟩
  intro early target request late split
  rcases there.trail.of_asked split with
    ⟨first, body, contentType, rfl⟩ | ⟨url, referer, session, led, parsed, config, rfl⟩
  · constructor
    · intro _
      refine ⟨by simp; rfl, ?_, fun field named => ?_⟩
      · rw [Session.referer_attach]
        show (if client.session.config.sendReferer then none else none) = none
        split <;> rfl
      · exact Session.mem_extraFields_of_named client.session body contentType named
    · rintro ⟨event, member, asked⟩
      rw [first event member] at asked
      cases asked
  · constructor
    · intro first
      obtain ⟨event, member, asked⟩ := led.isAsked
      rw [first event member] at asked
      cases asked
    · intro _
      obtain ⟨parent, answer, answered, leads, rfl⟩ := led
      have refers : (session.request .get target (some parent.url)).referer = some parent.url := by
        show (if session.config.sendReferer then some parent.url else none) = _
        rw [config, if_pos sends]
      have whole : (session.request .get target (some parent.url)).method ≠ .shortGet := by
        show Method.get ≠ .shortGet
        decide
      refine ⟨rfl, rfl, parent, answer, url, answered, leads, parsed, ?_⟩
      rw [Request.named_referer_fields whole, refers, Session.named_referer_extra, config]
      rfl

/-- A post whose answer has moved to a page with two frames: the frames refer to the page
that has them, and not to where the body was sent. -/
theorem Client.requests_of_operate_of_frames :
    let away := "HTTP/1.0 302 Found\r\nLocation: /b\r\n\r\n"
    let here := "HTTP/1.0 200 OK\r\n\r\n<html><frame src=c><frame src=d></html>"
    let feeds := [away, here, "HTTP/1.0 200 OK\r\n\r\nhi", "HTTP/1.0 200 OK\r\n\r\nho"].map
      fun text : String => ([.piece (Text.utf8 text.toList)] : Feed)
    let client := Client.start (.start .initial [] 0) feeds []
    let operation := Operation.call
      (.postBytes "http://s.com/a".toList [104, 105] "text/plain".toList)
    let events := (client.operate Network.inTurn operation).outside.events
    client.session.config.sendReferer = true ∧
      (events.filterMap Event.request?).map
          (fun (target, request) => (request.method, target.url, request.referer)) =
        [(.post, "http://s.com/a".toList, none),
          (.get, "http://s.com/b".toList, some "http://s.com/a".toList),
          (.get, "http://s.com/c".toList, some "http://s.com/b".toList),
          (.get, "http://s.com/d".toList, some "http://s.com/b".toList)] ∧
      ∃ log, events = client.outside.events ++ log ∧ log.countP Event.asksWithBody ≤ 1 := by
  intro away here feeds client operation events
  have sends : client.session.config.sendReferer = true := by decide
  have asked : (events.filterMap Event.request?).map
      (fun (target, request) => (request.method, target.url, request.referer)) =
      [(.post, "http://s.com/a".toList, none),
        (.get, "http://s.com/b".toList, some "http://s.com/a".toList),
        (.get, "http://s.com/c".toList, some "http://s.com/b".toList),
        (.get, "http://s.com/d".toList, some "http://s.com/b".toList)] := by
    decide +kernel
  obtain ⟨log, grown, once, -⟩ := requests_of_operate Network.inTurn client operation sends
  exact ⟨sends, asked, log, grown, once⟩

end WebClient
