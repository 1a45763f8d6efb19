import WebClient.Proofs.RequestLog

/-!
# The cookies of a session

The jar of a session is what it makes of the heads that were read, one after the other, and
of nothing else. So is the jar that each request takes its cookies from, with the heads that
were read before it.
-/

set_option autoImplicit false

namespace WebClient

variable {σ : Type}

namespace Jar

def hear (jar : Jar) : Event → Jar
  | .answered target head =>
    (head.fields.getAll "set-cookie".toList).foldl
      (fun jar raw => (jar.add raw target.host target.pathOnly).1) jar
  | _ => jar

def heard? (config : Config) (events : List Event) : Option Jar :=
  if config.allowCookies then some (events.foldl hear (.empty config.allowForeignCookies)) else none

private theorem enforceExpiry_add (jar : Jar) (raw host path : Text) :
    (jar.add raw host path).1.enforceExpiry = jar.enforceExpiry := by
  unfold add
  cases jar.accepted? raw host path <;> rfl

theorem enforceExpiry_foldl {α : Type} {step : Jar → α → Jar}
    (kept : ∀ jar item, (step jar item).enforceExpiry = jar.enforceExpiry) (items : List α)
    (jar : Jar) : (items.foldl step jar).enforceExpiry = jar.enforceExpiry := by
  induction items generalizing jar with
  | nil => rfl
  | cons item rest ih => exact (ih (step jar item)).trans (kept jar item)

private theorem enforceExpiry_hear (jar : Jar) (event : Event) :
    (jar.hear event).enforceExpiry = jar.enforceExpiry := by
  cases event with
  | answered target head =>
    exact enforceExpiry_foldl (fun jar raw => enforceExpiry_add jar raw _ _) _ jar
  | _ => rfl

private theorem enforceExpiry_of_heard? {config : Config} {events : List Event} {jar : Jar}
    (heard : heard? config events = some jar) : jar.enforceExpiry = false := by
  unfold heard? at heard
  split at heard
  · cases heard
    exact enforceExpiry_foldl enforceExpiry_hear events _
  · cases heard

/-- The jar of a session sends its cookies at any time, also when they have expired. -/
theorem field?_of_heard? (config : Config) (events : List Event) (now moment : Int)
    (host path : Text) :
    ((heard? config events).bind fun jar => jar.field? now host path) =
      (heard? config events).bind fun jar => jar.field? moment host path := by
  cases heard : heard? config events with
  | none => rfl
  | some jar =>
    have lenient := enforceExpiry_of_heard? heard
    simp only [Option.bind_some, field?, sentTo_of_lenient lenient]

end Jar

namespace Session

private theorem jar_note (session : Session) (event : Event) :
    (session.note event).jar = session.jar.map (Jar.hear · event) := by
  cases event with
  | answered target head =>
    unfold note receive absorb
    dsimp only
    cases session.jar <;> rfl
  | _ => exact Option.map_id'.symm

private theorem jar_after (session : Session) (events : List Event) :
    (session.after events).jar = session.jar.map (events.foldl Jar.hear) := by
  induction events generalizing session with
  | nil => exact Option.map_id'.symm
  | cons event rest ih =>
    rw [after, List.foldl_cons, ← after, ih, jar_note, Option.map_map]
    rfl

private theorem jar_after_start (config : Config) (draws : Multipart.Draws) (now : Int)
    (events : List Event) :
    ((start config draws now).after events).jar = Jar.heard? config events := by
  rw [jar_after]
  unfold start Jar.heard?
  split <;> rfl

end Session

namespace History

variable {start : Session} {log early late : List Event} {target : Target}

/-- Every request of a history is made by the session that comes of what was before it. -/
theorem of_asked (history : History start log) {request : Request}
    (split : log = early ++ .asked target request :: late) :
    ∃ method referer body contentType, request = (start.after early).attach
      ((start.after early).request method target referer) body contentType := by
  induction history generalizing late with
  | nil => simp at split
  | @exchange log events streams method page referer body contentType answer? past course ih =>
    rcases split_of_append_eq split with ⟨rest, within⟩ | ⟨front, rfl, behind⟩
    · exact ih within
    · obtain ⟨rfl, rfl, approach⟩ := course.of_asked behind
      -- Getting the connection ready counts, but changes nothing that the request is made of.
      have ready := (start.after log).after_of_approach approach
      refine ⟨method, referer, body, contentType, ?_⟩
      rw [Session.after_append, ready]
      rfl

/-- Every head of a history answers the request before it. -/
theorem of_answered (history : History start log) {head : Response}
    (split : log = early ++ .answered target head :: late) :
    ∃ before request sent, early = before ++ .asked target request :: sent ∧
      ∀ event ∈ sent, event.isHandover = true := by
  induction history generalizing late with
  | nil => simp at split
  | @exchange log events streams method page referer body contentType answer? past course ih =>
    rcases split_of_append_eq split with ⟨rest, within⟩ | ⟨front, rfl, behind⟩
    · exact ih within
    · obtain ⟨rfl, before, sent, rfl, handover⟩ := course.of_answered behind
      exact ⟨log ++ before, _, sent, (List.append_assoc log before _).symm, handover⟩

end History

theorem Session.named_cookie_attach (session : Session) {method : Method}
    (whole : method ≠ .shortGet) (target : Target) (referer : Option Text) (body : Body)
    (contentType : Option Text) :
    Request.named "Cookie"
        (session.attach (session.request method target referer) body contentType).fields =
      Request.named "Cookie" session.config.extraFields ++
        Request.optional "Cookie" (session.cookieField? target) := by
  have extra : (session.request method target referer).extra = session.config.extraFields ++
      Request.optional "Cookie" (session.cookieField? target) := rfl
  have kept : (session.attach (session.request method target referer) body contentType).method ≠
      .shortGet := by
    rwa [method_attach]
  rw [Request.named_cookie_fields kept, extra_attach, extra, Request.named_append,
    Request.named_optional_self]

/-- The cookies of a request are those of the jar that comes of what was before it. -/
theorem History.cookies_of_asked {start : Session} {log early late : List Event}
    (history : History start log) {target : Target} {request : Request}
    (split : log = early ++ .asked target request :: late) :
    if request.method = .shortGet then request.fields = []
    else Request.named "Cookie" request.fields =
      Request.named "Cookie" start.config.extraFields ++ Request.optional "Cookie"
        ((start.after early).jar.bind fun jar =>
          jar.field? start.now target.host target.pathOnly) := by
  obtain ⟨method, referer, body, contentType, made⟩ := history.of_asked split
  have verb : request.method = method := by
    rw [made, Session.method_attach]
    rfl
  by_cases short : method = .shortGet
  · rw [if_pos (verb.trans short), Request.fields, verb, short]
  · rw [if_neg (verb.symm ▸ short), made, Session.named_cookie_attach _ short,
      Session.config_after, Session.cookieField?, Session.now_after]

/-- At every point of a session the jar is what comes of the heads read so far, each a
response to the request before it. The cookies of a request are those of the configuration
and the field of that jar, at whatever moment; without cookies there is none, and a short
request has no fields. -/
theorem Client.cookies_of_operateAll (network : Network σ) (config : Config)
    (draws : Multipart.Draws) (now : Int) (peers : σ) (files : Files)
    (operations : List Operation) :
    let client := (Client.start (.start config draws now) peers files).operateAll network operations
    let events := client.outside.events
    client.session.jar = Jar.heard? config events ∧
      (∀ early target head late, events = early ++ .answered target head :: late →
        ∃ before request sent, early = before ++ .asked target request :: sent ∧
          ∀ event ∈ sent, event.isHandover = true) ∧
      ∀ early target request late (moment : Int),
        events = early ++ .asked target request :: late →
        if request.method = .shortGet then request.fields = []
        else Request.named "Cookie" request.fields =
          Request.named "Cookie" config.extraFields ++ Request.optional "Cookie"
            ((Jar.heard? config early).bind fun jar =>
              jar.field? moment target.host target.pathOnly) := by
  intro client events
  obtain ⟨log, reaches, history⟩ := history_operateAll network
    (Client.start (.start config draws now) peers files) operations
  have logged : events = log := reaches.outside
  refine ⟨?_, ?_, ?_⟩
  · rw [logged, ← Session.jar_after_start config draws now log]
    exact reaches.session.jar
  · intro early target head late split
    exact history.of_answered (logged.symm.trans split)
  · intro early target request late moment split
    have cookies := history.cookies_of_asked (logged.symm.trans split)
    rw [Jar.field?_of_heard? config early moment now,
      ← Session.jar_after_start config draws now early]
    exact cookies

/-- The first page has moved and the second is cut short, and each brings a cookie. -/
theorem Client.cookies_of_operateAll_of_cut :
    let away := "HTTP/1.0 302 Found\r\nLocation: /b\r\nSet-Cookie: k=v\r\n\r\n"
    let here := "HTTP/1.0 200 OK\r\nSet-Cookie: j=w\r\nContent-Length: 9\r\n\r\nhi"
    let feeds := [away, here, "hi", "HTTP/1.0 200 OK\r\n\r\n"].map fun text : String =>
      ([.piece (Text.utf8 text.toList)] : Feed)
    let client := (Client.start (.start .initial [] 0) feeds []).operateAll Network.inTurn
      [.call (.get "http://s.com/a".toList), .call (.getShort "http://s.com/c".toList),
        .call (.head "http://s.com/d".toList)]
    let events := client.outside.events
    (events.filterMap Event.request?).map
        (fun asked => (Request.named "Cookie" asked.2.fields).map Prod.snd) =
        [[], ["k=v".toList], [], ["k=v; j=w".toList]] ∧
      client.session.jar = Jar.heard? .initial events := by
  intro away here feeds client events
  have sent : (events.filterMap Event.request?).map
      (fun asked => (Request.named "Cookie" asked.2.fields).map Prod.snd) =
      [[], ["k=v".toList], [], ["k=v; j=w".toList]] := by
    decide +kernel
  obtain ⟨heard, -⟩ := cookies_of_operateAll Network.inTurn .initial [] 0 feeds []
    [.call (.get "http://s.com/a".toList), .call (.getShort "http://s.com/c".toList),
      .call (.head "http://s.com/d".toList)]
  exact ⟨sent, heard⟩

end WebClient
