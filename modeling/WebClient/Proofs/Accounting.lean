import WebClient.Proofs.RequestLog

/-!
# What a session keeps account of

The counts of a session, and the status it remembers, are read off its events: so many
connections were made ready, so many bytes were read of bodies, and such was the last head.
-/

set_option autoImplicit false

namespace WebClient

variable {σ : Type}

namespace Event

def isOpened : Event → Bool
  | opened => true
  | _ => false

/-- The bytes read of a body. -/
def taken : Event → Bytes
  | took before after => before.taken after
  | _ => []

def code? : Event → Option Nat
  | answered _ head => some head.code
  | _ => none

end Event

namespace Session

private theorem requestsSent_note (session : Session) (event : Event) :
    (session.note event).requestsSent =
      session.requestsSent + [event].countP Event.isOpened := by
  cases event with
  | answered target head =>
    rw [note, receive_eq]
    rfl
  | _ => rfl

private theorem requestsSent_after (session : Session) (events : List Event) :
    (session.after events).requestsSent =
      session.requestsSent + events.countP Event.isOpened := by
  induction events generalizing session with
  | nil => rfl
  | cons event rest ih =>
    rw [after, List.foldl_cons, ← after, ih, requestsSent_note, Nat.add_assoc,
      ← List.countP_append, List.singleton_append]

private theorem bytesReceived_note (session : Session) (event : Event) :
    (session.note event).bytesReceived = session.bytesReceived + event.taken.length := by
  cases event with
  | answered target head =>
    rw [note, receive_eq]
    rfl
  | _ => rfl

private theorem bytesReceived_after (session : Session) (events : List Event) :
    (session.after events).bytesReceived =
      session.bytesReceived + (events.flatMap Event.taken).length := by
  induction events generalizing session with
  | nil => rfl
  | cons event rest ih =>
    rw [after, List.foldl_cons, ← after, ih, bytesReceived_note, Nat.add_assoc, List.flatMap_cons,
      List.length_append]

private theorem lastStatus_note (session : Session) (event : Event) :
    (session.note event).lastStatus = event.code?.or session.lastStatus := by
  cases event with
  | answered target head =>
    rw [note, receive_eq]
    rfl
  | _ => rfl

private theorem lastStatus_after (session : Session) (events : List Event) :
    (session.after events).lastStatus =
      (events.filterMap Event.code?).getLast?.or session.lastStatus := by
  induction events generalizing session with
  | nil => rfl
  | cons event rest ih =>
    rw [after, List.foldl_cons, ← after, ih, lastStatus_note]
    cases code : event.code? with
    | none => rw [List.filterMap_cons_none code, Option.none_or]
    | some value =>
      rw [List.filterMap_cons_some code, List.getLast?_cons, Option.some_or, Option.some_or]
      cases (rest.filterMap Event.code?).getLast? <;> rfl

end Session

/-! ## Bodies -/

section

variable {config : Config} {streams : Bool} {target : Target} {request : Request}
  {answer? : Option Answer} {events early late : List Event} {before after : Feed}

/-- A body is read right after its head. -/
theorem Course.of_took (course : Course config streams target request answer? events)
    (split : events = early ++ .took before after :: late) :
    ∃ answer, answer? = some answer ∧ before = answer.before ∧ after = answer.after ∧
      ∃ opening, early = opening ++ [.answered target answer.head] := by
  have listed := course.mem_answer (split ▸ List.mem_append_right early (.head late)) rfl rfl
  cases answer? with
  | none => cases listed
  | some answer =>
    cases course with
    | @opened front sent _ approach handover begins skips =>
      have opening : .took before after ∉ front :=
        not_mem_of_not_isSpoken approach.not_isSpoken rfl
      have sending : .took before after ∉ sent := fun member => by cases handover _ member
      have ahead : .took before after ∉
          front ++ .asked target request :: sent ++ [.answered target answer.head] := by
        simp [opening, sending]
      have behind : Event.took before after ∉ [Event.hungUp] := by simp
      obtain ⟨rfl, same, -⟩ :=
        (List.append_cons_inj_of_notMem ahead behind).1 (by simpa [Answer.events] using split)
      cases same
      exact ⟨answer, rfl, rfl, rfl, _, rfl⟩

/-- Whatever is read of a body comes off the front of what there was to read. -/
theorem History.divided {start : Session} {log : List Event} (history : History start log)
    (listed : .took before after ∈ log) : before.bytes = before.taken after ++ after.bytes := by
  induction history with
  | nil => cases listed
  | exchange past course ih =>
    rcases List.mem_append.1 listed with earlier | here
    · exact ih earlier
    · obtain ⟨early, late, split⟩ := List.append_of_mem here
      obtain ⟨answer, -, rfl, rfl, -⟩ := course.of_took split
      exact answer.divided

/-- Where bodies go to an output, none is read of a response that refers elsewhere. -/
theorem Course.skipped_of_took (course : Course config true target request answer? events)
    (split : events = early ++ .took before after :: late) :
    ∃ opening head, early = opening ++ [.answered target head] ∧
      (head.location?.isSome = true → after = before) := by
  obtain ⟨answer, rfl, rfl, rfl, opening, rfl⟩ := course.of_took split
  cases course with
  | opened approach handover begins skips =>
    exact ⟨opening, answer.head, rfl, skips rfl answer rfl⟩

theorem Trail.skipped_of_took {method : Method} {start : Session} {log : List Event}
    (trail : Trail .location method start log) (split : log = early ++ .took before after :: late) :
    ∃ opening target head, early = opening ++ [.answered target head] ∧
      (head.location?.isSome = true → after = before) := by
  induction trail generalizing late with
  | nil => simp at split
  | @first target body contentType answer? events course =>
    obtain ⟨opening, head, same, skipped⟩ := course.skipped_of_took split
    exact ⟨opening, target, head, same, skipped⟩
  | @onward log url referer target answer? events trail led parsed course ih =>
    rcases split_of_append_eq split with ⟨rest, within⟩ | ⟨front, rfl, behind⟩
    · exact ih within
    · obtain ⟨opening, head, rfl, skipped⟩ := course.skipped_of_took behind
      exact ⟨log ++ opening, target, head, (List.append_assoc log opening _).symm, skipped⟩

end

/-- The counts of a new session come to what its events are: the requests to the connections
that were made ready, the bytes to those read of all bodies, and the status to the code of the
last head. A download reads nothing of a body whose head refers elsewhere. -/
theorem Client.account_of_operateAll (network : Network σ) (config : Config)
    (draws : Multipart.Draws) (now : Int) (peers : σ) (files : Files)
    (operations : List Operation) :
    let client := (Client.start (.start config draws now) peers files).operateAll network operations
    let events := client.outside.events
    client.session.requestsSent = events.countP Event.isOpened ∧
      client.session.bytesReceived = (events.flatMap Event.taken).length ∧
      client.session.lastStatus = (events.filterMap Event.code?).getLast? ∧
      (∀ before after, .took before after ∈ events →
        before.bytes = before.taken after ++ after.bytes) ∧
      ∀ (τ : Type) (url : Text) (output : Output τ) (state : τ),
        ∃ log, (client.download network url output state).1.outside.events = events ++ log ∧
          ∀ early before after late, log = early ++ .took before after :: late →
            ∃ opening target head, early = opening ++ [.answered target head] ∧
              (head.location?.isSome = true → after = before) := by
  intro client events
  obtain ⟨log, reaches, history⟩ := history_operateAll network
    (Client.start (.start config draws now) peers files) operations
  have logged : events = log := reaches.outside
  refine ⟨?_, ?_, ?_, ?_, ?_⟩
  · rw [reaches.session.requestsSent, Session.requestsSent_after, logged]
    exact Nat.zero_add _
  · rw [reaches.session.bytesReceived, Session.bytesReceived_after, logged]
    exact Nat.zero_add _
  · rw [reaches.session.lastStatus, Session.lastStatus_after, logged]
    exact Option.or_none
  · intro before after listed
    rw [logged] at listed
    exact history.divided listed
  · intro τ url output state
    obtain ⟨more, there⟩ := onTrail_operate network client (.downloadTo url output state)
    exact ⟨more, there.reaches.outside, fun early before after late split =>
      there.trail.skipped_of_took split⟩

/-- A download that is referred on, a page that is cut short and a short answer without a head:
what came with the reference is not counted, and the last status is zero. -/
theorem Client.account_of_operateAll_of_skipped :
    let feeds := ["HTTP/1.0 302 Found\r\nLocation: /b\r\n\r\nmoved",
      "HTTP/1.0 200 OK\r\n\r\nhello", "HTTP/1.0 200 OK\r\nContent-Length: 9\r\n\r\nhi",
      "bye"].map fun text : String => ([.piece (Text.utf8 text.toList)] : Feed)
    let operations := [.downloadTo "http://s.com/a".toList Sink.output Sink.unlimited,
      .call (.get "http://s.com/c".toList), .call (.getShort "http://s.com/d".toList)]
    let client :=
      (Client.start (.start .initial [] 0) feeds []).operateAll Network.inTurn operations
    let events := client.outside.events
    events.countP Event.isOpened = 4 ∧ events.flatMap Event.taken = Text.utf8 "hellohibye".toList ∧
      events.filterMap Event.code? = [302, 200, 200, 0] ∧
      client.session.requestsSent = 4 ∧ client.session.bytesReceived = 10 ∧
      client.session.lastStatus = some 0 := by
  intro feeds operations client events
  have opened : events.countP Event.isOpened = 4 := by decide +kernel
  have taken : events.flatMap Event.taken = Text.utf8 "hellohibye".toList := by decide +kernel
  have codes : events.filterMap Event.code? = [302, 200, 200, 0] := by decide +kernel
  obtain ⟨requests, bytes, status, -⟩ := account_of_operateAll Network.inTurn .initial [] 0 feeds []
    operations
  exact ⟨opened, taken, codes, requests.trans opened,
    bytes.trans (congrArg List.length taken), status.trans (congrArg List.getLast? codes)⟩

end WebClient
