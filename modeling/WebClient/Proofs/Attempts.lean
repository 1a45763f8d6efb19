import WebClient.Proofs.Course

/-!
# Attempts to connect

How often a host was tried, read off the events. Every exchange tries exactly one
host, whatever becomes of it, and leaves the configuration and the files alone.
-/

set_option autoImplicit false

namespace WebClient

def Event.isAttempt : Event → Bool
  | dialled .. => true
  | _ => false

/-- Handing something over is no attempt. -/
theorem Event.attempts_of_handover {events : List Event}
    (handover : ∀ event ∈ events, event.isHandover = true) : events.countP isAttempt = 0 := by
  rw [List.countP_eq_zero]
  intro event member
  have part := handover event member
  cases event <;> simp_all [isHandover, isAttempt]

namespace Outside

variable {σ : Type}

def attempts (outside : Outside σ) : Nat :=
  outside.events.countP Event.isAttempt

/-- From one moment to a later one `count` hosts were tried, and no file changed. -/
structure Advances (count : Nat) (before after : Outside σ) : Prop where
  attempts : after.attempts = before.attempts + count
  files : after.files = before.files

namespace Advances

theorem refl (outside : Outside σ) : Advances 0 outside outside := ⟨rfl, rfl⟩

theorem trans {first second third : Outside σ} {early late : Nat}
    (left : Advances early first second) (right : Advances late second third) :
    Advances (early + late) first third := by
  constructor
  · rw [right.attempts, left.attempts, Nat.add_assoc]
  · rw [right.files, left.files]

end Advances

end Outside

/-- A connection is one attempt, also when nobody answers or it cannot be made ready. -/
theorem Connection.Approach.attempts {config : Config} {target : Target} {events : List Event}
    {isReady : Bool} (approach : Approach config target events isReady) :
    events.countP Event.isAttempt = 1 := by
  cases approach with
  | unreached => rfl
  | unready secure begins =>
    simp [List.countP_cons, Event.attempts_of_handover (handover_of_begins begins), attempt,
      Event.isAttempt]
  | ready =>
    simp [List.countP_cons, Event.attempts_of_handover (handover_overture config target), attempt,
      Event.isAttempt]

/-- An exchange is one attempt, however far it gets. -/
theorem Course.attempts {config : Config} {streams : Bool} {target : Target}
    {request : Request} {answer? : Option Answer} {events : List Event}
    (course : Course config streams target request answer? events) :
    events.countP Event.isAttempt = 1 := by
  cases course with
  | unopened approach => exact approach.attempts
  | opened approach handover begins skips =>
    cases answer? <;>
      simp [approach.attempts, Event.attempts_of_handover handover, Answer.events,
        Event.isAttempt]

namespace Client

variable {σ τ : Type}

/-- A client has moved on by `count` attempts, with its configuration as it was. -/
structure Advances (count : Nat) (before after : Client σ) : Prop where
  outside : Outside.Advances count before.outside after.outside
  config : after.session.config = before.session.config

namespace Advances

theorem refl (client : Client σ) : Advances 0 client client := ⟨.refl client.outside, rfl⟩

theorem trans {first second third : Client σ} {early late : Nat}
    (left : Advances early first second) (right : Advances late second third) :
    Advances (early + late) first third :=
  ⟨left.outside.trans right.outside, right.config.trans left.config⟩

/-- What else the session holds has no part in it. -/
theorem of_same {first second later : Client σ} {count : Nat}
    (moved : Advances count second later) (outside : second.outside = first.outside)
    (config : second.session.config = first.session.config) : Advances count first later :=
  ⟨outside ▸ moved.outside, moved.config.trans config⟩

theorem report (client : Client σ) (reports : Journal) :
    Advances 0 client (client.report reports) := ⟨.refl client.outside, rfl⟩

theorem fail (client : Client σ) (failure : Failure) :
    Advances 0 client (client.fail failure) := ⟨.refl client.outside, rfl⟩

theorem exchange (network : Network σ) (client : Client σ) (target : Target) (request : Request)
    (intake : Intake τ) (state : τ) :
    Advances 1 client (client.exchange network target request intake state).1 := by
  obtain ⟨answer?, events, course, reaches, -⟩ :=
    client.course_exchange network target request intake state
  refine ⟨⟨?_, reaches.files⟩, ?_⟩
  · rw [Outside.attempts, reaches.outside, List.countP_append, course.attempts]
    rfl
  · exact reaches.session.config.trans (client.session.config_after events)

end Advances

end Client

end WebClient
