import WebClient.Proofs.RequestLog

/-!
# One connection at a time

There is at most one connection at any moment, and it carries at most one request. This is
said by a machine that follows the events and refuses what does not fit: every course of an
exchange takes it from no connection back to none, and so does every history.
-/

set_option autoImplicit false

namespace WebClient

variable {σ : Type}

namespace Event

def isConnected : Event → Bool
  | connected => true
  | _ => false

def isHungUp : Event → Bool
  | hungUp => true
  | _ => false

end Event

inductive Link
  | down
  | held
  | ready
  | carrying (request : Request) (written : Bytes)

namespace Link

def step? (ending : LineEnding) : Link → Event → Option Link
  | down, .dialled .. => some down
  | down, .connected => some held
  | held, .wrote _ | held, .shook _ => some held
  | held, .opened => some ready
  | ready, .asked _ request => some (carrying request [])
  | carrying request written, .wrote bytes =>
    if written ++ bytes <+: request.wire ending then some (carrying request (written ++ bytes))
    else none
  | carrying request written, .shook _ | carrying request written, .answered ..
  | carrying request written, .took .. => some (carrying request written)
  | held, .hungUp | ready, .hungUp | carrying .., .hungUp => some down
  | _, _ => none

def run? (ending : LineEnding) (link : Link) (events : List Event) : Option Link :=
  events.foldlM (step? ending) link

variable {ending : LineEnding} {link later : Link}

theorem run?_append (early late : List Event) :
    run? ending link (early ++ late) = (run? ending link early).bind (run? ending · late) :=
  List.foldlM_append

theorem run?_cons (event : Event) (rest : List Event) :
    run? ending link (event :: rest) = (step? ending link event).bind (run? ending · rest) :=
  List.foldlM_cons

/-! ## What the machine refuses -/

def count : Link → Nat
  | down => 0
  | held | ready | carrying .. => 1

def load : Link → Nat
  | down | held | ready => 0
  | carrying .. => 1

private theorem count_le_one (link : Link) : link.count ≤ 1 := by
  cases link <;> simp [count]

private theorem load_le_one (link : Link) : link.load ≤ 1 := by
  cases link <;> simp [load]

private theorem count_of_step? {event : Event} (stepped : step? ending link event = some later) :
    link.count + [event].countP Event.isConnected =
      later.count + [event].countP Event.isHungUp := by
  unfold step? at stepped
  split at stepped
  case h_7 =>
    split at stepped
    · cases stepped
      rfl
    · cases stepped
  all_goals cases stepped <;> rfl

private theorem load_of_step? {event : Event} (stepped : step? ending link event = some later)
    (stays : event ≠ .hungUp) : link.load + [event].countP Event.isAsked = later.load := by
  unfold step? at stepped
  split at stepped
  case h_7 =>
    split at stepped
    · cases stepped
      rfl
    · cases stepped
  all_goals first | contradiction | (cases stepped; rfl)

/-- Every connection that is made is either given up or still there. -/
theorem count_of_run? {events : List Event} (ran : run? ending link events = some later) :
    link.count + events.countP Event.isConnected =
      later.count + events.countP Event.isHungUp := by
  induction events generalizing link with
  | nil =>
    cases ran
    rfl
  | cons event rest ih =>
    rw [run?_cons] at ran
    obtain ⟨next, stepped, ran⟩ := Option.bind_eq_some_iff.1 ran
    have here := count_of_step? stepped
    have onward := ih ran
    rw [← List.singleton_append, List.countP_append, List.countP_append]
    omega

/-- Every request that is asked is carried until the connection is given up. -/
theorem load_of_run? {events : List Event} (ran : run? ending link events = some later)
    (stays : .hungUp ∉ events) : link.load + events.countP Event.isAsked = later.load := by
  induction events generalizing link with
  | nil =>
    cases ran
    rfl
  | cons event rest ih =>
    rw [run?_cons] at ran
    obtain ⟨next, stepped, ran⟩ := Option.bind_eq_some_iff.1 ran
    have here := load_of_step? stepped fun same => stays (same ▸ .head rest)
    have onward := ih ran fun later => stays (.tail event later)
    rw [← List.singleton_append, List.countP_append]
    omega

/-- Until then nothing is written but the request. -/
theorem written_of_run? {request : Request} {written : Bytes} {events : List Event}
    (begins : written <+: request.wire ending)
    (ran : run? ending (carrying request written) events = some later)
    (stays : .hungUp ∉ events) :
    written ++ events.flatMap Event.handed <+: request.wire ending := by
  induction events generalizing written with
  | nil => simpa using begins
  | cons event rest ih =>
    rw [run?_cons] at ran
    obtain ⟨next, stepped, ran⟩ := Option.bind_eq_some_iff.1 ran
    have onward : .hungUp ∉ rest := fun later => stays (.tail event later)
    cases event with
    | wrote bytes =>
      simp only [step?] at stepped
      split at stepped
      · cases stepped
        simpa [Event.handed] using ih ‹_› ran onward
      · cases stepped
    | hungUp => exact absurd (.head rest) stays
    | shook | answered | took =>
      cases stepped
      exact ih begins ran onward
    | dialled | connected | opened | asked => cases stepped

/-! ## What the machine lets pass -/

private theorem run?_handover_of_held {events : List Event}
    (handover : ∀ event ∈ events, event.isHandover = true) :
    run? ending held events = some held := by
  induction events with
  | nil => rfl
  | cons event rest ih =>
    obtain ⟨here, later⟩ := List.forall_mem_cons.1 handover
    rw [run?_cons]
    cases event with
    | wrote | shook => exact ih later
    | _ => cases here

private theorem run?_handover_of_carrying {request : Request} {written : Bytes}
    {events : List Event} (handover : ∀ event ∈ events, event.isHandover = true)
    (begins : written ++ events.flatMap Event.handed <+: request.wire ending) :
    run? ending (carrying request written) events =
      some (carrying request (written ++ events.flatMap Event.handed)) := by
  induction events generalizing written with
  | nil =>
    rw [List.flatMap_nil, List.append_nil]
    rfl
  | cons event rest ih =>
    obtain ⟨here, later⟩ := List.forall_mem_cons.1 handover
    rw [List.flatMap_cons, ← List.append_assoc] at begins ⊢
    have part : written ++ event.handed <+: request.wire ending :=
      (List.prefix_append _ _).trans begins
    rw [run?_cons]
    cases event with
    | wrote bytes =>
      have stepped : step? ending (carrying request written) (.wrote bytes) =
          some (carrying request (written ++ bytes)) := if_pos part
      rw [stepped]
      exact ih later begins
    | shook host =>
      simp only [Event.handed, List.append_nil] at begins ⊢
      exact ih later begins
    | _ => cases here

/-- Making a connection ready leaves one, and failing to leaves none. -/
theorem run?_approach {config : Config} {target : Target} {events : List Event} {isReady : Bool}
    (approach : Connection.Approach config target events isReady) :
    run? ending down events = some (if isReady then ready else down) := by
  have begun {handed : List Event} (handover : ∀ event ∈ handed, event.isHandover = true) :
      run? ending down (Connection.attempt config target :: .connected :: handed) = some held :=
    run?_handover_of_held handover
  cases approach with
  | unreached => rfl
  | unready secure begins =>
    rw [run?_append, begun (Connection.handover_of_begins begins)]
    rfl
  | ready =>
    rw [run?_append, begun (Connection.handover_overture config target)]
    rfl

private theorem run?_course {config : Config} {streams : Bool} {target : Target} {request : Request}
    {answer? : Option Answer} {events : List Event}
    (course : Course config streams target request answer? events) :
    run? config.lineEnding down events = some down := by
  cases course with
  | unopened approach => exact run?_approach approach
  | @opened front sent answer? approach handover begins skips =>
    have carried : run? config.lineEnding ready (.asked target request :: sent) =
        some (carrying request (sent.flatMap Event.handed)) :=
      run?_handover_of_carrying handover begins
    have read (written : Bytes) : run? config.lineEnding (carrying request written)
        (Answer.events target answer?) = some (carrying request written) := by
      cases answer? <;> rfl
    rw [run?_append, run?_append, run?_append, run?_approach approach]
    simp only [if_true, Option.bind_some, carried, read]
    rfl

end Link

theorem History.run? {start : Session} {log : List Event} (history : History start log) :
    Link.run? start.config.lineEnding .down log = some .down := by
  induction history with
  | nil => rfl
  | exchange past course ih =>
    rw [Link.run?_append, ih]
    exact Link.run?_course course

/-- However many operations a client has carried out, there has never been more than one
connection, none is left, and no connection has carried more than one request: after it was
asked nothing but a beginning of it was written until the connection was given up. -/
theorem Client.one_connection_of_operateAll (network : Network σ) (session : Session) (peers : σ)
    (files : Files) (operations : List Operation) :
    let client := (Client.start session peers files).operateAll network operations
    let events := client.outside.events
    (∀ seen, seen <+: events →
      seen.countP Event.isHungUp ≤ seen.countP Event.isConnected ∧
      seen.countP Event.isConnected ≤ seen.countP Event.isHungUp + 1) ∧
    events.countP Event.isConnected = events.countP Event.isHungUp ∧
    (∀ stretch, stretch <:+: events → .hungUp ∉ stretch → stretch.countP Event.isAsked ≤ 1) ∧
    ∀ target request rest, .asked target request :: rest <:+: events → .hungUp ∉ rest →
      rest.flatMap Event.handed <+: request.wire session.config.lineEnding := by
  intro client events
  obtain ⟨log, reaches, history⟩ := history_operateAll network (Client.start session peers files)
    operations
  have logged : events = log := reaches.outside
  have whole : Link.run? session.config.lineEnding .down events = some .down := by
    rw [logged]
    exact history.run?
  have part {early stretch late : List Event} (split : early ++ stretch ++ late = events) :
      ∃ before after, Link.run? session.config.lineEnding .down early = some before ∧
        Link.run? session.config.lineEnding before stretch = some after := by
    rw [← split, Link.run?_append, Link.run?_append] at whole
    obtain ⟨after, ran, -⟩ := Option.bind_eq_some_iff.1 whole
    obtain ⟨before, begun, ran⟩ := Option.bind_eq_some_iff.1 ran
    exact ⟨before, after, begun, ran⟩
  have none : Link.down.count = 0 := rfl
  refine ⟨?_, ?_, ?_, ?_⟩
  · rintro seen ⟨late, split⟩
    obtain ⟨before, after, begun, ran⟩ := part (show [] ++ seen ++ late = events from split)
    cases begun
    have counted := Link.count_of_run? ran
    have bounded := after.count_le_one
    rw [none, Nat.zero_add] at counted
    omega
  · have counted := Link.count_of_run? whole
    rwa [none, Nat.zero_add, Nat.zero_add] at counted
  · rintro stretch ⟨early, late, split⟩ stays
    obtain ⟨before, after, -, ran⟩ := part split
    have loaded := Link.load_of_run? ran stays
    have bounded := after.load_le_one
    omega
  · rintro target request rest ⟨early, late, split⟩ stays
    obtain ⟨before, after, -, ran⟩ := part split
    rw [Link.run?_cons] at ran
    obtain ⟨next, stepped, ran⟩ := Option.bind_eq_some_iff.1 ran
    cases before with
    | ready =>
      cases stepped
      exact Link.written_of_run? List.nil_prefix ran stays
    | _ => cases stepped

/-- A page that has moved to where nobody answers, and a download that its output refuses. -/
theorem Client.one_connection_of_operateAll_of_failures :
    let away := "HTTP/1.0 302 Found\r\nLocation: /b\r\n\r\n"
    let feeds := [away, "", "HTTP/1.0 200 OK\r\n\r\nhi"].map fun text : String =>
      ([.piece (Text.utf8 text.toList)] : Feed)
    let operations := [.call (.get "http://s.com/a".toList),
      .downloadTo "http://s.com/c".toList Sink.output (Sink.bounded 1)]
    let client :=
      (Client.start (.start .initial [] 0) feeds []).operateAll Network.inTurn operations
    let events := client.outside.events
    events.countP Event.isAsked = 3 ∧ events.countP Event.isConnected = 3 ∧
      events.countP Event.isHungUp = 3 ∧
      ∀ stretch, stretch <:+: events → .hungUp ∉ stretch → stretch.countP Event.isAsked ≤ 1 := by
  intro away feeds operations client events
  have asked : events.countP Event.isAsked = 3 := by decide +kernel
  have connected : events.countP Event.isConnected = 3 := by decide +kernel
  obtain ⟨-, even, once, -⟩ := one_connection_of_operateAll Network.inTurn (.start .initial [] 0)
    feeds [] operations
  exact ⟨asked, connected, even.symm.trans connected, once⟩

end WebClient
