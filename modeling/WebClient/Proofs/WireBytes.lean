import WebClient.Proofs.Conservation
import WebClient.Request.Sending

/-!
# What a request puts on the wire

Wherever sending a request stops, the wire has a beginning of the head and the body that
goes with it. Only a request that is sent whole is reported as sent, with the length of
its body, which is the length that the head declares.
-/

set_option autoImplicit false

namespace WebClient

variable {σ : Type}

/-! ## Outputs that may fail in the middle of a write -/

/-- What a write adds to `held` is all its bytes, or a beginning of them where it fails. -/
structure Output.Appends (output : Output σ) (held : σ → Bytes) : Prop where
  taken : ∀ {state bytes later}, output.write state bytes = (later, none) →
    held later = held state ++ bytes
  partly : ∀ {state bytes later fault}, output.write state bytes = (later, some fault) →
    ∃ part, part <+: bytes ∧ held later = held state ++ part
  flush : ∀ state, held (output.flush state).1 = held state

theorem Output.Keeps.appends {output : Output σ} {held : σ → Bytes}
    (keeps : output.Keeps held) : output.Appends held where
  taken := keeps.taken
  partly written := ⟨[], List.nil_prefix, by rw [keeps.refused written, List.append_nil]⟩
  flush := keeps.flush

/-- The same output with a note of every write that it is asked for, whatever becomes of
the write. -/
def Output.recording (output : Output σ) : Output (σ × List Bytes) where
  write noted bytes :=
    let taken := output.write noted.1 bytes
    ((taken.1, noted.2 ++ [bytes]), taken.2)
  flush noted :=
    let flushed := output.flush noted.1
    ((flushed.1, noted.2), flushed.2)

/-! ## Steps -/

namespace SendStep

def bytes : SendStep → Bytes
  | write bytes => bytes
  | flush | stop _ => []

def payload (steps : List SendStep) : Bytes :=
  steps.flatMap bytes

/-- The steps write a beginning of some bytes, and all of them if they do not stop. -/
structure Writes (steps : List SendStep) (bytes : Bytes) : Prop where
  begins : payload steps <+: bytes
  whole : (∀ fault, stop fault ∉ steps) → payload steps = bytes

namespace Writes

variable {steps : List SendStep} {bytes : Bytes}

private theorem stopping {fault : IoFault} (silent : payload steps = [])
    (stops : stop fault ∈ steps) : Writes steps bytes :=
  ⟨silent ▸ List.nil_prefix, fun unstopped => absurd stops (unstopped fault)⟩

theorem write (writes : Writes steps bytes) (part : Bytes) :
    Writes (write part :: steps) (part ++ bytes) := by
  constructor
  · exact (List.prefix_append_right_inj part).2 writes.begins
  · intro unstopped
    exact congrArg (part ++ ·) (writes.whole fun fault member => unstopped fault (.tail _ member))

theorem flush (writes : Writes steps bytes) : Writes (flush :: steps) bytes :=
  ⟨writes.begins, fun unstopped => writes.whole fun fault member =>
    unstopped fault (.tail _ member)⟩

private theorem concat_flush (writes : Writes steps bytes) : Writes (steps ++ [.flush]) bytes := by
  have same : payload (steps ++ [.flush]) = payload steps := by simp [payload, SendStep.bytes]
  exact ⟨same ▸ writes.begins, fun unstopped => same ▸ writes.whole fun fault member =>
    unstopped fault (List.mem_append_left _ member)⟩

end Writes

end SendStep

namespace Output

variable {output : Output σ} {held : σ → Bytes}

/-- What the steps put on the wire is a beginning of their payload, and all of it if none
of them fails. -/
theorem held_send (appends : output.Appends held) (steps : List SendStep) (state : σ) :
    ∃ part, part <+: SendStep.payload steps ∧
      held (output.send steps state).1 = held state ++ part ∧
      ((output.send steps state).2 = none → part = SendStep.payload steps) := by
  fun_induction send output steps state with
  | case1 state => exact ⟨[], List.nil_prefix, by simp, fun _ => rfl⟩
  | case2 fault rest state => exact ⟨[], List.nil_prefix, by simp, nofun⟩
  | case3 bytes rest state later written ih =>
    obtain ⟨part, begins, grown, whole⟩ := ih
    refine ⟨bytes ++ part, (List.prefix_append_right_inj bytes).2 begins, ?_, fun sent => ?_⟩
    · rw [grown, appends.taken written, List.append_assoc]
    · rw [whole sent]
      rfl
  | case4 bytes rest state later fault written =>
    obtain ⟨part, begins, grown⟩ := appends.partly written
    exact ⟨part, begins.trans (List.prefix_append bytes _), grown, nofun⟩
  | case5 rest state later flushed ih =>
    obtain ⟨part, begins, grown, whole⟩ := ih
    have same := appends.flush state
    rw [flushed] at same
    exact ⟨part, begins, same ▸ grown, whole⟩
  | case6 rest state later fault flushed =>
    have same := appends.flush state
    rw [flushed] at same
    exact ⟨[], List.nil_prefix, by simp [same], nofun⟩

theorem write_recording (output : Output σ) (noted : σ × List Bytes) (bytes : Bytes) :
    output.recording.write noted bytes =
      (((output.write noted.1 bytes).1, noted.2 ++ [bytes]), (output.write noted.1 bytes).2) := rfl

theorem flush_recording (output : Output σ) (noted : σ × List Bytes) :
    output.recording.flush noted =
      (((output.flush noted.1).1, noted.2), (output.flush noted.1).2) := rfl

/-- Noting the writes changes nothing else, and there are no others than the steps have. -/
theorem send_recording (output : Output σ) (steps : List SendStep) (state : σ)
    (before : List Bytes) :
    ∃ calls, output.recording.send steps (state, before) =
        (((output.send steps state).1, before ++ calls), (output.send steps state).2) ∧
      ∀ call ∈ calls, .write call ∈ steps := by
  fun_induction send output steps state generalizing before with
  | case1 state => exact ⟨[], by simp [send], nofun⟩
  | case2 fault rest state => exact ⟨[], by simp [send], nofun⟩
  | case3 bytes rest state later written ih =>
    obtain ⟨calls, sent, listed⟩ := ih (before ++ [bytes])
    refine ⟨bytes :: calls, ?_, ?_⟩
    · simp only [send, write_recording, written, sent, List.append_assoc, List.singleton_append]
    · exact List.forall_mem_cons.2 ⟨.head _, fun call asked => .tail _ (listed call asked)⟩
  | case4 bytes rest state later fault written =>
    refine ⟨[bytes], ?_, ?_⟩
    · simp only [send, write_recording, written]
    · exact List.forall_mem_singleton.2 (.head _)
  | case5 rest state later flushed ih =>
    obtain ⟨calls, sent, listed⟩ := ih before
    refine ⟨calls, ?_, fun call asked => .tail _ (listed call asked)⟩
    simp only [send, flush_recording, flushed, sent]
  | case6 rest state later fault flushed =>
    refine ⟨[], ?_, nofun⟩
    simp only [send, flush_recording, flushed, List.append_nil]

theorem stop_not_mem_of_send {steps : List SendStep} {state : σ}
    (sent : (output.send steps state).2 = none) (fault : IoFault) : .stop fault ∉ steps := by
  fun_induction send output steps state with
  | case1 state => exact List.not_mem_nil
  | case2 => cases sent
  | case3 bytes rest state later written ih => simpa using ih sent
  | case4 => cases sent
  | case5 rest state later flushed ih => simpa using ih sent
  | case6 => cases sent

private theorem send_of_collects {ready : σ → Prop} (collects : output.Collects ready held)
    {steps : List SendStep} (unstopped : ∀ fault, .stop fault ∉ steps) {state : σ}
    (isReady : ready state) : (output.send steps state).2 = none := by
  fun_induction send output steps state with
  | case1 state => rfl
  | case2 fault rest state => exact absurd (.head rest) (unstopped fault)
  | case3 bytes rest state later written ih =>
    obtain ⟨next, taken, kept, -⟩ := collects.write state bytes isReady
    cases written.symm.trans taken
    exact ih (fun fault member => unstopped fault (.tail _ member)) kept
  | case4 bytes rest state later fault written =>
    obtain ⟨next, taken, -⟩ := collects.write state bytes isReady
    cases written.symm.trans taken
  | case5 rest state later flushed ih =>
    obtain ⟨next, taken, kept, -⟩ := collects.flush state isReady
    cases flushed.symm.trans taken
    exact ih (fun fault member => unstopped fault (.tail _ member)) kept
  | case6 rest state later fault flushed =>
    obtain ⟨next, taken, -⟩ := collects.flush state isReady
    cases flushed.symm.trans taken

private theorem flush_of_send_concat {steps : List SendStep} {state last : σ}
    (sent : output.send (steps ++ [.flush]) state = (last, none)) :
    ∃ before, output.send steps state = (before, none) ∧ output.flush before = (last, none) := by
  fun_induction send output steps state with
  | case1 state =>
    refine ⟨state, rfl, ?_⟩
    rcases flushed : output.flush state with ⟨later, fault⟩
    rw [List.nil_append, send, flushed] at sent
    cases fault <;> cases sent
    rfl
  | case2 => cases sent
  | case3 bytes rest state later written ih =>
    rw [List.cons_append, send, written] at sent
    exact ih sent
  | case4 bytes rest state later fault written =>
    rw [List.cons_append, send, written] at sent
    cases sent
  | case5 rest state later flushed ih =>
    rw [List.cons_append, send, flushed] at sent
    exact ih sent
  | case6 rest state later fault flushed =>
    rw [List.cons_append, send, flushed] at sent
    cases sent

end Output

/-! ## Bodies -/

namespace Feed

/-- Nothing but data and pauses. -/
def IsSmooth (feed : Feed) : Prop :=
  .silence ∉ feed ∧ ∀ fault, .fault fault ∉ feed

theorem IsSmooth.tail {delivery : Delivery} {feed : Feed} (smooth : IsSmooth (delivery :: feed)) :
    feed.IsSmooth :=
  ⟨fun member => smooth.1 (.tail _ member), fun fault member => smooth.2 fault (.tail _ member)⟩

theorem IsSmooth.divided {feed : Feed} (smooth : feed.IsSmooth) : feed.divided.IsSmooth := by
  constructor
  · intro member
    obtain ⟨delivery, brought, given⟩ := List.mem_flatMap.1 member
    cases delivery with
    | silence => exact smooth.1 brought
    | _ => simp at given
  · intro fault member
    obtain ⟨delivery, brought, given⟩ := List.mem_flatMap.1 member
    cases delivery with
    | fault other =>
      cases List.mem_singleton.1 given
      exact smooth.2 _ brought
    | _ => simp at given

private theorem length_le_of_mem_runs {size : Nat} {bytes run : Bytes}
    (member : run ∈ runs size bytes) : run.length ≤ size + 1 := by
  fun_induction runs size bytes with
  | case1 => cases member
  | case2 first rest ih =>
    rcases List.mem_cons.1 member with rfl | later
    · simp only [List.length_cons, List.length_take]
      omega
    · exact ih later

end Feed

namespace Request

private theorem writes_copySteps (declared copied wanted : Nat) (pending : Bool) (feed : Feed) :
    SendStep.Writes (copySteps declared copied wanted pending feed)
      (feed.bytes.take wanted) := by
  fun_induction copySteps declared copied wanted pending feed with
  | case1 copied pending => exact ⟨List.nil_prefix, fun _ => rfl⟩
  | case2 copied wanted pending more =>
    -- The source has ended early: it is flushed, and then there is no more to be had.
    exact .stopping rfl (.tail _ (.head _))
  | case3 copied pending delivery rest => exact ⟨List.nil_prefix, fun _ => rfl⟩
  | case4 copied wanted pending rest more bytes empty ih =>
    rw [List.isEmpty_iff.1 empty]
    exact ih
  | case5 copied wanted pending rest more bytes occupied part ih =>
    -- Of a piece that is longer than what is wanted, only the part is written.
    have division : (bytes ++ Feed.bytes rest).take wanted =
        part ++ (Feed.bytes rest).take (wanted - part.length) := by
      rw [List.take_append, List.length_take]
      congr 2
      omega
    rw [Feed.bytes, division]
    exact ih.write part
  | case6 copied wanted pending rest more milliseconds waits ih => exact ih.flush
  | case7 copied wanted pending rest more milliseconds goesOn ih => exact ih
  | case8 copied wanted pending rest more fault => exact .stopping rfl (.head _)
  | case9 copied wanted pending rest more => exact .stopping rfl (.head _)

private theorem length_of_copySteps {declared copied wanted : Nat} {pending : Bool} {feed : Feed}
    (unstopped : ∀ fault, .stop fault ∉ copySteps declared copied wanted pending feed) :
    wanted ≤ feed.bytes.length := by
  fun_induction copySteps declared copied wanted pending feed with
  | case1 copied pending => exact Nat.zero_le _
  | case2 copied wanted pending more => exact absurd (.tail _ (.head _)) (unstopped _)
  | case3 copied pending delivery rest => exact Nat.zero_le _
  | case4 copied wanted pending rest more bytes empty ih =>
    rw [List.isEmpty_iff.1 empty]
    exact ih unstopped
  | case5 copied wanted pending rest more bytes occupied part ih =>
    have left := ih fun fault member => unstopped fault (.tail _ member)
    simp only [part, List.length_take] at left
    simp only [Feed.bytes, List.length_append]
    omega
  | case6 copied wanted pending rest more milliseconds waits ih =>
    exact ih fun fault member => unstopped fault (.tail _ member)
  | case7 copied wanted pending rest more milliseconds goesOn ih => exact ih unstopped
  | case8 copied wanted pending rest more fault => exact absurd (.head _) (unstopped _)
  | case9 copied wanted pending rest more => exact absurd (.head _) (unstopped _)

private theorem stop_not_mem_copySteps {declared copied wanted : Nat} {pending : Bool} {feed : Feed}
    (smooth : feed.IsSmooth) (enough : wanted ≤ feed.bytes.length) (fault : IoFault) :
    .stop fault ∉ copySteps declared copied wanted pending feed := by
  fun_induction copySteps declared copied wanted pending feed with
  | case1 copied pending => simp
  | case2 copied wanted pending more => exact absurd (Nat.le_zero.1 enough) more
  | case3 copied pending delivery rest => simp
  | case4 copied wanted pending rest more bytes empty ih =>
    rw [List.isEmpty_iff.1 empty] at enough
    exact ih smooth.tail enough
  | case5 copied wanted pending rest more bytes occupied part ih =>
    have left : wanted - part.length ≤ (Feed.bytes rest).length := by
      simp only [Feed.bytes, List.length_append] at enough
      simp only [part, List.length_take]
      omega
    simpa using ih smooth.tail left
  | case6 copied wanted pending rest more milliseconds waits ih =>
    simpa using ih smooth.tail enough
  | case7 copied wanted pending rest more milliseconds goesOn ih => exact ih smooth.tail enough
  | case8 copied wanted pending rest more other => exact absurd (.head _) (smooth.2 other)
  | case9 copied wanted pending rest more => exact absurd (.head _) smooth.1

end Request

namespace Body

/-- The bytes of a body that belong on the wire: of a source, as many as are declared. -/
def wire : Body → Bytes
  | empty => []
  | bytes data => data
  | source feed length => feed.bytes.take length

/-- Nothing but the output can keep the body from being sent. -/
def IsReady : Body → Prop
  | empty | bytes _ => True
  | source feed length => feed.IsSmooth ∧ length ≤ feed.bytes.length

end Body

namespace Request

theorem writes_bodySteps (body : Body) : SendStep.Writes (bodySteps body) body.wire := by
  cases body with
  | empty => exact ⟨List.nil_prefix, fun _ => rfl⟩
  | bytes data =>
    have whole : SendStep.payload (bodySteps (.bytes data)) = data := by
      rw [bodySteps, SendStep.payload, List.flatMap_map]
      exact List.flatMap_id.trans (Feed.flatten_runs _ data)
    exact ⟨by rw [whole, Body.wire], fun _ => whole⟩
  | source feed length =>
    have writes := writes_copySteps length 0 length false feed.divided
    rw [Feed.bytes_divided] at writes
    exact writes

theorem length_wire_of_bodySteps {body : Body}
    (unstopped : ∀ fault, .stop fault ∉ bodySteps body) :
    body.wire.length = body.length?.getD 0 := by
  cases body with
  | empty => rfl
  | bytes data => rfl
  | source feed length =>
    have enough := length_of_copySteps unstopped
    rw [Feed.bytes_divided] at enough
    exact List.length_take_of_le enough

private theorem stop_not_mem_bodySteps {body : Body} (ready : body.IsReady) (fault : IoFault) :
    .stop fault ∉ bodySteps body := by
  cases body with
  | empty => exact List.not_mem_nil
  | bytes data => simp [bodySteps]
  | source feed length =>
    refine stop_not_mem_copySteps ready.1.divided ?_ fault
    rw [Feed.bytes_divided]
    exact ready.2

/-! ## Requests -/

def sentBody (request : Request) : Body :=
  match request.method with
  | .shortGet => .empty
  | _ => request.body

def wire (request : Request) (ending : LineEnding) : Bytes :=
  request.head ending ++ request.sentBody.wire

theorem steps_eq (request : Request) (ending : LineEnding) :
    request.steps ending =
      .write (request.head ending) :: bodySteps request.sentBody ++ [.flush] := by
  unfold steps sentBody
  cases request.method <;> rfl

theorem bodyLength_eq (request : Request) :
    request.bodyLength = request.sentBody.length?.getD 0 := by
  unfold bodyLength sentBody
  cases request.method <;> rfl

private theorem getLast?_fields {request : Request} {declared : Nat}
    (declares : request.sentBody.length? = some declared) :
    request.fields.getLast? = some ("Content-length".toList, Text.ofNat declared) := by
  unfold sentBody at declares
  unfold fields
  cases verb : request.method with
  | shortGet =>
    rw [verb] at declares
    cases declares
  | _ =>
    rw [verb] at declares
    dsimp only at declares ⊢
    rw [declares]
    exact List.getLast?_concat

private theorem writes_steps (request : Request) (ending : LineEnding) :
    SendStep.Writes (request.steps ending) (request.wire ending) := by
  rw [steps_eq]
  exact ((writes_bodySteps request.sentBody).write (request.head ending)).concat_flush

section

variable {output : Output σ} {held : σ → Bytes} {request : Request} {ending : LineEnding}
  {state last : σ} {count : Nat}

theorem send_eq (output : Output σ) (request : Request) (ending : LineEnding) (state : σ) :
    request.send ending output state =
      ((output.send (request.steps ending) state).1,
        match (output.send (request.steps ending) state).2 with
        | none => .ok request.bodyLength
        | some fault => .error (.io fault)) := by
  unfold send
  split <;> simp_all

theorem send_of_ok (sent : request.send ending output state = (last, .ok count)) :
    output.send (request.steps ending) state = (last, none) ∧ count = request.bodyLength := by
  unfold send at sent
  split at sent
  · cases sent
    exact ⟨‹_›, rfl⟩
  · cases sent

theorem begins_of_send (appends : output.Appends held) (request : Request)
    (ending : LineEnding) (state : σ) :
    ∃ part, part <+: request.wire ending ∧
      held (request.send ending output state).1 = held state ++ part := by
  obtain ⟨part, begins, grown, -⟩ := Output.held_send appends (request.steps ending) state
  rw [send_eq]
  exact ⟨part, begins.trans (writes_steps request ending).begins, grown⟩

private theorem held_before_flush (appends : output.Appends held)
    (sent : request.send ending output state = (last, .ok count)) :
    ∃ before, held before = held state ++ request.wire ending ∧
      output.flush before = (last, none) := by
  obtain ⟨taken, -⟩ := send_of_ok sent
  rw [steps_eq] at taken
  -- The flush is the last step, so whatever was to be written came before it.
  obtain ⟨before, written, flushed⟩ := Output.flush_of_send_concat taken
  have writes := (writes_bodySteps request.sentBody).write (request.head ending)
  obtain ⟨part, -, grown, whole⟩ := Output.held_send appends
    (.write (request.head ending) :: bodySteps request.sentBody) state
  have unfailing := congrArg Prod.snd written
  refine ⟨before, ?_, flushed⟩
  rw [written] at grown
  rw [grown, whole unfailing, writes.whole (Output.stop_not_mem_of_send unfailing)]
  rfl

private theorem length_wire_of_send (sent : request.send ending output state = (last, .ok count)) :
    request.sentBody.wire.length = count ∧ request.sentBody.length?.getD 0 = count := by
  obtain ⟨taken, rfl⟩ := send_of_ok sent
  rw [steps_eq] at taken
  have unstopped := Output.stop_not_mem_of_send (congrArg Prod.snd taken)
  have whole := length_wire_of_bodySteps fun fault member =>
    unstopped fault (List.mem_append_left _ (.tail _ member))
  rw [bodyLength_eq]
  exact ⟨whole, rfl⟩

private theorem send_recording (output : Output σ) (request : Request) (ending : LineEnding)
    (state : σ) :
    ∃ chunks, request.send ending output.recording (state, []) =
        (((request.send ending output state).1, request.head ending :: chunks),
          (request.send ending output state).2) ∧
      ∀ chunk ∈ chunks, .write chunk ∈ bodySteps request.sentBody := by
  simp only [send_eq, steps_eq, List.cons_append]
  -- The head is one write of any size; all others come from the body.
  rcases written : output.write state (request.head ending) with ⟨later, fault⟩
  cases fault with
  | some fault =>
    refine ⟨[], ?_, nofun⟩
    simp only [Output.send, Output.write_recording, written, List.nil_append]
  | none =>
    obtain ⟨chunks, sent, listed⟩ := output.send_recording
      (bodySteps request.sentBody ++ [.flush]) later [request.head ending]
    refine ⟨chunks, ?_, fun chunk asked => ?_⟩
    · simp only [Output.send, Output.write_recording, written, List.nil_append, sent,
        List.singleton_append]
    · simpa using listed chunk asked

private theorem send_of_isReady {ready : σ → Prop} (collects : output.Collects ready held)
    (isReady : ready state) (bodyReady : request.sentBody.IsReady) (ending : LineEnding) :
    (request.send ending output state).2 = .ok request.sentBody.wire.length := by
  have unstopped := stop_not_mem_bodySteps bodyReady
  have unfailing : (output.send (request.steps ending) state).2 = none := by
    refine Output.send_of_collects collects (fun fault member => ?_) isReady
    rw [steps_eq] at member
    exact unstopped fault (by simpa using member)
  rw [send_eq, unfailing, bodyLength_eq, length_wire_of_bodySteps unstopped]

end

/-- Wherever sending stops, the wire has a beginning of what belongs there. It is all
there if the request is reported as sent, and flushed; the number that is reported is then
that of the bytes of the body, which the head declares if there is a body. No write of a
body in memory is longer than 512 bytes. A source that ends too early is always a failure,
and if neither the output nor the source fails the request is sent. -/
theorem send_wire {output : Output σ} {held : σ → Bytes} (appends : output.Appends held)
    (request : Request) (ending : LineEnding) (state : σ) :
    let sent := request.send ending output state
    (∃ part, part <+: request.wire ending ∧ held sent.1 = held state ++ part) ∧
      (∀ count, sent.2 = .ok count →
        (∃ before, held before = held state ++ request.wire ending ∧
          output.flush before = (sent.1, none)) ∧
        held sent.1 = held state ++ request.wire ending ∧
        request.sentBody.wire.length = count ∧
        ∀ declared ∈ request.sentBody.length?, declared = count ∧
          request.fields.getLast? = some ("Content-length".toList, Text.ofNat count)) ∧
      (∀ bytes, request.sentBody = .bytes bytes →
        ∃ chunks, request.send ending output.recording (state, []) =
            ((sent.1, request.head ending :: chunks), sent.2) ∧
          ∀ chunk ∈ chunks, chunk.length ≤ 512) ∧
      (∀ feed declared, request.sentBody = .source feed declared →
        feed.bytes.length < declared → ∃ failure, sent.2 = .error failure) ∧
      (∀ ready, output.Collects ready held → ready state → request.sentBody.IsReady →
        sent.2 = .ok request.sentBody.wire.length) := by
  intro sent
  refine ⟨begins_of_send appends request ending state, fun count counted => ?_,
    fun bytes memory => ?_, fun feed declared source short => ?_,
    fun ready collects isReady bodyReady => send_of_isReady collects isReady bodyReady ending⟩
  · have whole : request.send ending output state = (sent.1, .ok count) := Prod.ext rfl counted
    obtain ⟨before, written, flushed⟩ := held_before_flush appends whole
    obtain ⟨length, declares⟩ := length_wire_of_send whole
    have same := appends.flush before
    rw [flushed] at same
    refine ⟨⟨before, written, flushed⟩, same.trans written, length, fun declared given => ?_⟩
    have given : request.sentBody.length? = some declared := given
    obtain rfl : declared = count := by
      rw [given] at declares
      exact declares
    exact ⟨rfl, getLast?_fields given⟩
  · obtain ⟨chunks, noted, listed⟩ := send_recording output request ending state
    refine ⟨chunks, noted, fun chunk asked => ?_⟩
    have step := listed chunk asked
    rw [memory] at step
    obtain ⟨run, member, same⟩ := List.mem_map.1 step
    cases same
    exact Feed.length_le_of_mem_runs member
  · cases outcome : sent.2 with
    | error failure => exact ⟨failure, rfl⟩
    | ok count =>
      have whole : request.send ending output state = (sent.1, .ok count) :=
        Prod.ext rfl outcome
      obtain ⟨length, declares⟩ := length_wire_of_send whole
      rw [source] at length declares
      simp only [Body.wire, Body.length?, List.length_take, Option.getD_some] at length declares
      omega

/-- A source that pauses, and has more than the five bytes that are declared for it. -/
theorem send_wire_of_longer_source :
    let feed : Feed := [.piece (Text.utf8 "abc".toList), .pause 9, .piece (Text.utf8 "defg".toList)]
    let request : Request :=
      { Request.plain .post "/p".toList with body := .source feed 5 }
    let sent := request.send .lf Sink.output .unlimited
    Sink.output.Appends Sink.held ∧ sent.2 = .ok 5 ∧
      sent.1.held = Text.utf8
        "POST /p HTTP/1.0\nConnection: close\nContent-length: 5\n\nabcde".toList ∧
      request.fields.getLast? = some ("Content-length".toList, "5".toList) := by
  intro feed request sent
  have appends := Sink.keeps_output.appends
  have takesAll : Sink.unlimited.TakesAll := ⟨fun _ _ => rfl, rfl⟩
  have ready : request.sentBody.IsReady := by
    refine ⟨⟨by decide, fun fault => ?_⟩, by decide⟩
    simp [feed]
  obtain ⟨-, whole, -, -, progress⟩ := send_wire appends request .lf Sink.unlimited
  have outcome := progress Sink.TakesAll Sink.collects_output takesAll ready
  obtain ⟨-, held, -, declares⟩ := whole _ outcome
  refine ⟨appends, outcome, held.trans (by decide +kernel), ?_⟩
  exact (declares 5 rfl).2.trans (by decide +kernel)

end Request

end WebClient
