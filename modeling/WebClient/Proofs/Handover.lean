import WebClient.Connection
import WebClient.Request.Sending

/-!
# Handing things over

Whatever is written to a connection, and every handshake on it, is noted as an event of
its own. Nothing else comes of sending but a change in the network.
-/

set_option autoImplicit false

namespace WebClient

variable {σ : Type}

def Event.isHandover : Event → Bool
  | wrote _ | shook _ => true
  | _ => false

namespace Outside

structure HandsOver (before after : Outside σ) : Prop where
  events : ∃ handed, after.events = before.events ++ handed ∧
    ∀ event ∈ handed, event.isHandover = true
  files : after.files = before.files

namespace HandsOver

/-- What becomes of the network's own state has no part in it. -/
theorem peers (outside : Outside σ) (peers : σ) : HandsOver outside { outside with peers } :=
  ⟨⟨[], (List.append_nil _).symm, List.forall_mem_nil _⟩, rfl⟩

theorem refl (outside : Outside σ) : HandsOver outside outside := peers outside outside.peers

theorem trans {first second third : Outside σ} (left : HandsOver first second)
    (right : HandsOver second third) : HandsOver first third := by
  obtain ⟨early, grown, handover⟩ := left.events
  obtain ⟨late, onward, more⟩ := right.events
  refine ⟨⟨early ++ late, by rw [onward, grown, List.append_assoc], ?_⟩,
    right.files.trans left.files⟩
  intro event member
  rcases List.mem_append.1 member with member | member
  · exact handover event member
  · exact more event member

theorem note (outside : Outside σ) {event : Event} (handover : event.isHandover = true) :
    HandsOver outside (outside.note event) :=
  ⟨⟨[event], rfl, List.forall_mem_singleton.2 handover⟩, rfl⟩

theorem write (network : Network σ) (outside : Outside σ) (bytes : Bytes) :
    HandsOver outside ((channel network).write outside bytes).1 := by
  rcases taken : network.channel.write outside.peers bytes with ⟨peers, fault⟩
  simp only [channel, taken]
  cases fault with
  | none => exact (HandsOver.peers outside peers).trans (.note _ rfl)
  | some fault => exact .peers outside peers

theorem flush (network : Network σ) (outside : Outside σ) :
    HandsOver outside ((channel network).flush outside).1 := .peers outside _

/-- However many steps are sent, and wherever sending stops. -/
theorem send (network : Network σ) (steps : List SendStep) (outside : Outside σ) :
    HandsOver outside ((channel network).send steps outside).1 := by
  induction steps generalizing outside with
  | nil => exact refl outside
  | cons step rest ih =>
    cases step with
    | stop fault => exact refl outside
    | write bytes =>
      have written := write network outside bytes
      rcases taken : (channel network).write outside bytes with ⟨later, fault⟩
      rw [taken] at written
      simp only [Output.send, taken]
      cases fault with
      | none => exact written.trans (ih later)
      | some fault => exact written
    | flush =>
      have flushed := flush network outside
      rcases taken : (channel network).flush outside with ⟨later, fault⟩
      rw [taken] at flushed
      simp only [Output.send, taken]
      cases fault with
      | none => exact flushed.trans (ih later)
      | some fault => exact flushed

theorem send_request (network : Network σ) (request : Request) (ending : LineEnding)
    (outside : Outside σ) :
    HandsOver outside (request.send ending (channel network) outside).1 := by
  have sent := send network (request.steps ending) outside
  unfold Request.send
  split <;> simp_all

end HandsOver

end Outside

end WebClient
