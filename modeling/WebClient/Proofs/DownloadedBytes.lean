import WebClient.Proofs.Accounting

/-!
# What a download leaves in its output

An output that takes each write whole or not at all holds, after a download, the beginning of
one body: that of the last response, and only if that does not refer elsewhere. The number that
the download gives is how many bytes these are, unless the body turned out to be corrupt.
-/

set_option autoImplicit false

namespace WebClient

variable {σ τ : Type}

def Extent.body : Extent → Bytes → Bytes
  | untilClose, bytes => bytes
  | length count, bytes => bytes.take count

namespace Reader

variable {output : Output τ} {held : τ → Bytes}

private theorem received_finishCopy (output : Output τ) (state : τ) (reader : Reader)
    (count : Nat) : (finishCopy output state reader count).2.1 = reader := by
  unfold finishCopy
  rcases output.flush state with ⟨later, fault⟩
  cases fault <;> rfl

/-- A copy does not take more than the body is long. -/
theorem received_copyFrom_le (output : Output τ) (state : τ) (reader : Reader) (total count : Nat) :
    (copyFrom output state reader (.length total) count).2.1.received ≤
      max reader.received total := by
  fun_induction copyFrom output state reader (.length total) count with
  | case1 state reader count satisfied =>
    rw [received_finishCopy]
    exact Nat.le_max_left _ _
  | case2 state reader count unsatisfied bytes rest fetched part later fault refused =>
    exact Nat.le_max_left _ _
  | case3 state reader count unsatisfied bytes rest fetched part later taken ih =>
    have within : part.length ≤ total - reader.received := by
      simp only [part, wanted, share, List.length_take]
      exact Nat.min_le_left _ _
    refine ih.trans ?_
    dsimp only
    omega
  | case4 state reader count unsatisfied ended => exact Nat.le_max_left _ _
  | case5 state reader count unsatisfied ended =>
    rw [received_finishCopy]
    exact Nat.le_max_left _ _
  | case6 state reader count unsatisfied fault rest faulted => exact Nat.le_max_left _ _
  | case7 state reader count unsatisfied rest expired => exact Nat.le_max_left _ _

/-- What a copy takes is the beginning of the body, and the output grows by it. -/
theorem copyTo_conserves (keeps : output.Keeps held) {reader : Reader} (fresh : reader.received = 0)
    (extent : Extent) (state : τ) :
    let copy := reader.copyTo extent output state
    copy.1.value = (reader.feed.taken copy.2.1.feed).length ∧
      held copy.2.2 = held state ++ reader.feed.taken copy.2.1.feed ∧
      reader.feed.taken copy.2.1.feed <+: extent.body reader.feed.bytes := by
  intro copy
  obtain ⟨part, copies⟩ := copies_copyFrom keeps state reader extent 0
  have taken : reader.feed.taken copy.2.1.feed = part := Feed.taken_eq copies.takes.feed
  rw [taken]
  refine ⟨copies.value.trans (Nat.zero_add _), copies.held, ?_⟩
  have front : part <+: reader.feed.bytes := ⟨_, copies.takes.feed.symm⟩
  cases extent with
  | untilClose => exact front
  | length total =>
    have bound := received_copyFrom_le output state reader total 0
    rw [copies.takes.received, fresh, Nat.zero_add, Nat.zero_max] at bound
    exact List.prefix_take_iff.2 ⟨front, bound⟩

end Reader

/-! ## What an output is given -/

def LastAnswered (events : List Event) (head : Response) (before after : Feed) : Prop :=
  ∃ early target late, events = early ++ .answered target head :: .took before after :: late ∧
    ∀ event ∈ late, event.code? = none

theorem LastAnswered.around {events : List Event} {head : Response} {before after : Feed}
    (last : LastAnswered events head before after) (front : List Event) {back : List Event}
    (silent : ∀ event ∈ back, event.code? = none) :
    LastAnswered (front ++ events ++ back) head before after := by
  obtain ⟨early, target, late, rfl, quiet⟩ := last
  refine ⟨front ++ early, target, late ++ back, by simp, fun event member => ?_⟩
  exact (List.mem_append.1 member).elim (quiet event) (silent event)

/-- The body of the last response, which refers to no other place, was begun to be copied to an
output that held some bytes before and others after. -/
structure Streamed (start final : Bytes) (events : List Event) (part : Bytes) : Prop where
  last : ∃ head before after, LastAnswered events head before after ∧ head.location? = none ∧
    part = before.taken after ∧
    part <+: (Extent.select .get head.code head.fields).body before.bytes
  grown : final = start ++ part

theorem Streamed.around {start final part : Bytes} {events : List Event}
    (streamed : Streamed start final events part) (front : List Event) {back : List Event}
    (silent : ∀ event ∈ back, event.code? = none) :
    Streamed start final (front ++ events ++ back) part := by
  obtain ⟨⟨head, before, after, last, streamed⟩, grown⟩ := streamed
  exact ⟨⟨head, before, after, last.around front silent, streamed⟩, grown⟩

/-- What an exchange does to an output, by what comes of it. -/
inductive Delivers (start final : Bytes) (events : List Event) : Except Failure Response → Prop
  | failed (failure : Failure) (same : final = start) :
      Delivers start final events (.error failure)
  | referred {response : Response} (away : response.location?.isSome = true)
      (same : final = start) : Delivers start final events (.ok response)
  | corrupted {part : Bytes} (cause : Corruption) (streamed : Streamed start final events part) :
      Delivers start final events (.error (.corrupt cause))
  | settled {response : Response} {part : Bytes} (stays : response.location? = none)
      (counted : response.copied = part.length) (streamed : Streamed start final events part) :
      Delivers start final events (.ok response)

theorem Delivers.around {start final : Bytes} {events : List Event}
    {outcome : Except Failure Response} (delivers : Delivers start final events outcome)
    (front : List Event) {back : List Event} (silent : ∀ event ∈ back, event.code? = none) :
    Delivers start final (front ++ events ++ back) outcome := by
  cases delivers with
  | failed failure same => exact .failed failure same
  | referred away same => exact .referred away same
  | corrupted cause streamed => exact .corrupted cause (streamed.around front silent)
  | settled stays counted streamed => exact .settled stays counted (streamed.around front silent)

inductive Leaves (start final : Bytes) (session : Session) (count : Nat) (events : List Event) :
    Prop
  | nothing (same : final = start) (counted : count = 0)
  | corrupted {part : Bytes} (cause : Corruption)
      (noted : session.lastFailure = some (.corrupt cause)) (counted : count = 0)
      (streamed : Streamed start final events part)
  | settled {part : Bytes} (counted : count = part.length)
      (streamed : Streamed start final events part)

theorem Leaves.behind {start final : Bytes} {session : Session} {count : Nat}
    {events : List Event} (leaves : Leaves start final session count events)
    (front : List Event) : Leaves start final session count (front ++ events) := by
  have further {part : Bytes} (streamed : Streamed start final events part) :
      Streamed start final (front ++ events) part := by
    simpa using streamed.around front (List.forall_mem_nil _)
  cases leaves with
  | nothing same counted => exact .nothing same counted
  | corrupted cause noted counted streamed =>
    exact .corrupted cause noted counted (further streamed)
  | settled counted streamed => exact .settled counted (further streamed)

/-! ## Downloads -/

namespace Client

/-- Whether the copy went well or not, the response tells how far it went, unless that was up to
corruption. -/
theorem delivers_conclude {start final part : Bytes} {events : List Event} (client : Client σ)
    {response : Response} (stays : response.location? = none) {read : Reader.BodyRead Content}
    (counted : read.value = .copied part.length) (streamed : Streamed start final events part) :
    Delivers start final events (client.conclude response read).2 := by
  obtain ⟨value, outcome⟩ := read
  obtain rfl : value = .copied part.length := counted
  unfold conclude
  cases outcome with
  | none => exact .settled stays rfl streamed
  | some failure =>
    dsimp only
    split
    · rename_i corrupt
      cases failure with
      | corrupt cause => exact .corrupted cause streamed
      | _ => cases corrupt
    · exact .settled stays rfl streamed

section

variable {output : Output τ} {held : τ → Bytes} (keeps : output.Keeps held)
  (network : Network σ) (client : Client σ) (target : Target) (state : τ)

include keeps

private theorem delivers_listen :
    ∃ events,
      (client.listen network target .get (.output output) state).1.outside.events =
        client.outside.events ++ events ∧
      Delivers (held state) (held (client.listen network target .get (.output output) state).2.1)
        events (client.listen network target .get (.output output) state).2.2 := by
  have fresh := Reader.received_readResponse
    (Reader.start (client.outside.incoming network) client.session.config.timeout target.url) .get
  rcases read : (Reader.start (client.outside.incoming network) client.session.config.timeout
    target.url).readResponse .get with ⟨outcome, reader⟩
  rw [read] at fresh
  cases outcome with
  | error failure =>
    rw [listen_of_error client (.output output) state read]
    exact ⟨[], (List.append_nil _).symm, .failed failure rfl⟩
  | ok response =>
    let extent := Extent.select .get response.code response.fields
    have noted (read : Reader.BodyRead Content) (after : Reader) :
        (((((client.report reader.journal).receive target response).report
          (Extent.reports .get response.code response.fields)).take reader after).conclude response
            read).1.outside.events =
          client.outside.events ++ [.answered target response, .took reader.feed after.feed] := by
      rw [(Reaches.conclude _ response read).outside, List.append_nil]
      exact List.append_assoc client.outside.events [_] [_]
    rw [listen_of_response client (.output output) state read]
    dsimp only
    cases away : response.location?.isSome with
    | true =>
      have body : reader.readContent response extent (.output output) state =
          (⟨.unread, none⟩, reader, state) := by
        rw [Reader.readContent, if_pos away]
      rw [body]
      exact ⟨_, noted _ _, .referred away rfl⟩
    | false =>
      obtain ⟨value, grown, begins⟩ := Reader.copyTo_conserves keeps fresh extent state
      rcases copied : reader.copyTo extent output state with ⟨⟨count, failure⟩, after, later⟩
      rw [copied] at value grown begins
      have body : reader.readContent response extent (.output output) state =
          (⟨.copied count, failure⟩, after, later) := by
        rw [Reader.readContent, if_neg (by simp [away]), copied]
      have stays : response.location? = none := by simpa using away
      have streamed : Streamed (held state) (held later)
          [.answered target response, .took reader.feed after.feed]
          (reader.feed.taken after.feed) :=
        ⟨⟨response, _, _, ⟨[], target, [], rfl, List.forall_mem_nil _⟩, stays, rfl, begins⟩, grown⟩
      rw [body]
      exact ⟨_, noted ⟨.copied count, failure⟩ after,
        delivers_conclude _ stays (congrArg Content.copied value) streamed⟩

/-- Whatever an exchange comes to, its events tell what the output was given. -/
theorem delivers_exchange (request : Request) (asksPage : request.method = .get) :
    ∃ events,
      (client.exchange network target request (.output output) state).1.outside.events =
        client.outside.events ++ events ∧
      Delivers (held state)
        (held (client.exchange network target request (.output output) state).2.1) events
        (client.exchange network target request (.output output) state).2.2 := by
  obtain ⟨-, front, approached, -⟩ :=
    Connection.approach_connect network client.session.config target client.outside
  rcases opened : Connection.connect network client.session.config target client.outside with
    ⟨outside, outcome⟩
  rw [opened] at approached
  cases outcome with
  | error failure =>
    rw [exchange_of_connect_error client request (.output output) state opened]
    exact ⟨front, approached, .failed failure rfl⟩
  | ok connection =>
    rw [exchange_of_connect client request (.output output) state opened]
    let begun : Client σ := { client.report [.detail] with outside }
    obtain ⟨sent, grown, -⟩ := Outside.events_send network request begun.session.config.lineEnding
      (begun.ask target request).outside
    rcases taken : request.send begun.session.config.lineEnding (Outside.channel network)
      (begun.ask target request).outside with ⟨handed, result⟩
    rw [taken] at grown
    have asked : handed.events =
        client.outside.events ++ (front ++ .asked target request :: sent) := by
      have reached : outside.events = client.outside.events ++ front := approached
      rw [grown]
      simp [ask, begun, reached]
    cases result with
    | error failure =>
      rw [converse_of_send_error begun request (.output output) state taken]
      refine ⟨front ++ .asked target request :: sent ++ [.hungUp], ?_, .failed failure rfl⟩
      simp [asked]
    | ok count =>
      rw [converse_of_send begun request (.output output) state taken, asksPage]
      obtain ⟨events, heard, delivers⟩ := delivers_listen keeps network
        { begun.ask target request with outside := handed } target state
      refine ⟨front ++ .asked target request :: sent ++ events ++ [.hungUp], ?_,
        delivers.around _ (List.forall_mem_singleton.2 rfl)⟩
      simp [heard, asked]

private theorem delivers_of_sent {referer : Option Text} {later : Client σ} {after : τ}
    {outcome : Except Failure Response}
    (sent : client.exchange network target (client.session.request .get target referer)
      (.output output) state = (later, after, outcome)) :
    ∃ events, later.outside.events = client.outside.events ++ events ∧
      Delivers (held state) (held after) events outcome := by
  have given := delivers_exchange keeps network client target state
    (client.session.request .get target referer) rfl
  rwa [sent] at given

/-- However long the chain of references is, only its end reaches the output. -/
theorem leaves_downloadFrom (url : Text) (referer : Option Text) (budget : Budget) :
    let copy := downloadFrom network client url referer budget output state
    ∃ events, copy.1.outside.events = client.outside.events ++ events ∧
      Leaves (held state) (held copy.2.1) copy.1.session copy.2.2 events := by
  fun_induction downloadFrom network client url referer budget output state with
  | case1 client url referer budget state failure invalid =>
    exact ⟨[], (List.append_nil _).symm, .nothing rfl rfl⟩
  | case2 client url referer budget state target parsed spent =>
    exact ⟨[], (List.append_nil _).symm, .nothing rfl rfl⟩
  | case3 client url referer budget state target parsed next entered later after failure sent =>
    obtain ⟨events, logged, delivers⟩ := delivers_of_sent keeps network client target state sent
    refine ⟨events, logged, ?_⟩
    cases delivers with
    | failed failure same => exact .nothing same rfl
    | corrupted cause streamed => exact .corrupted cause rfl rfl streamed
  | case4 client url referer budget state target parsed next entered later after response sent
      location refers ih =>
    obtain ⟨events, logged, delivers⟩ := delivers_of_sent keeps network client target state sent
    obtain ⟨more, further, leaves⟩ := ih
    have same : held after = held state := by
      cases delivers with
      | referred away same => exact same
      | settled stays => simp [refers] at stays
    refine ⟨events ++ more, ?_, (same ▸ leaves).behind events⟩
    rw [further, logged, List.append_assoc]
  | case5 client url referer budget state target parsed next entered later after response sent
      settled =>
    obtain ⟨events, logged, delivers⟩ := delivers_of_sent keeps network client target state sent
    refine ⟨events, logged, ?_⟩
    cases delivers with
    | referred away same => simp [settled] at away
    | settled stays counted streamed => exact .settled counted streamed

end

/-- An output that takes each write whole or not at all is given, in a download, some part of a
body. A positive number says that this is that many bytes from the beginning of the body of the
last response, and zero that it is nothing, unless the last failure is corruption. Of a response
that refers to another place nothing is even read. -/
theorem download_counts_given {output : Output τ} {held : τ → Bytes} (keeps : output.Keeps held)
    (network : Network σ) (client : Client σ) (url : Text) (state : τ) :
    let copy := client.download network url output state
    ∃ log part, copy.1.outside.events = client.outside.events ++ log ∧
      held copy.2.1 = held state ++ part ∧
      (0 < copy.2.2 → part.length = copy.2.2 ∧ ∃ head before after,
        LastAnswered log head before after ∧
          part =
            ((Extent.select .get head.code head.fields).body before.bytes).take copy.2.2) ∧
      (copy.2.2 = 0 →
        part = [] ∨ ∃ cause, copy.1.session.lastFailure = some (.corrupt cause)) ∧
      (part ≠ [] → ∃ head before after, LastAnswered log head before after ∧
        head.location? = none ∧ part = before.taken after) ∧
      ∀ early before after late, log = early ++ .took before after :: late →
        ∃ opening target head, early = opening ++ [.answered target head] ∧
          (head.location?.isSome = true → after = before) := by
  intro copy
  obtain ⟨log, logged, leaves⟩ := leaves_downloadFrom keeps network (client.report [.notice]) state
    url none client.budget
  obtain ⟨trace, there⟩ := continues_download network client url output state
  have same : trace = log :=
    List.append_cancel_left (there.reaches.outside.symm.trans logged)
  subst same
  have skips {early late : List Event} {before after : Feed}
      (split : trace = early ++ .took before after :: late) := there.trail.skipped_of_took split
  have last {part : Bytes} (streamed : Streamed (held state) (held copy.2.1) trace part) :
      ∃ head before after, LastAnswered trace head before after ∧ head.location? = none ∧
        part = before.taken after := by
    obtain ⟨⟨head, before, after, last, stays, taken, -⟩, -⟩ := streamed
    exact ⟨head, before, after, last, stays, taken⟩
  cases leaves with
  | nothing kept counted =>
    refine ⟨trace, [], logged, kept.trans (List.append_nil _).symm, ?_, fun _ => .inl rfl, ?_,
      fun _ _ _ _ => skips⟩
    · exact fun positive => absurd counted positive.ne'
    · exact fun nonempty => absurd rfl nonempty
  | corrupted cause noted counted streamed =>
    refine ⟨trace, _, logged, streamed.grown, ?_, fun _ => .inr ⟨cause, noted⟩,
      fun _ => last streamed, fun _ _ _ _ => skips⟩
    exact fun positive => absurd counted positive.ne'
  | @settled part counted streamed =>
    refine ⟨trace, part, logged, streamed.grown, ?_, ?_, fun _ => last streamed,
      fun _ _ _ _ => skips⟩
    · obtain ⟨head, before, after, last, -, -, begins⟩ := streamed.last
      exact fun _ => ⟨counted.symm, head, before, after, last,
        counted ▸ List.prefix_iff_eq_take.1 begins⟩
    · exact fun zero => .inl (List.eq_nil_of_length_eq_zero (counted.symm.trans zero))

/-- A body comes in two pieces after a reference with a body of its own. The output has room for
the first piece only. -/
theorem download_counts_given_of_refused :
    let feeds : List Feed :=
      [[.piece (Text.utf8 "HTTP/1.0 302 Found\r\nLocation: /b\r\n\r\nmoved".toList)],
        ["HTTP/1.0 200 OK\r\n\r\nhel", "lo"].map fun text => .piece (Text.utf8 text.toList)]
    let client := Client.start (.start .initial [] 0) feeds []
    let copy := client.download Network.inTurn "http://s.com/a".toList Sink.output (.bounded 4)
    Sink.output.Keeps Sink.held ∧ copy.2.2 = 3 ∧ copy.2.1.held = Text.utf8 "hel".toList ∧
      copy.1.session.lastFailure = some (.io (.reported "no room".toList)) ∧
      ∃ head before after, LastAnswered copy.1.outside.events head before after ∧
        head.location? = none ∧ copy.2.1.held = before.taken after := by
  intro feeds client copy
  have counted : copy.2.2 = 3 := by decide +kernel
  have kept : copy.2.1.held = Text.utf8 "hel".toList := by decide +kernel
  have failed : copy.1.session.lastFailure = some (.io (.reported "no room".toList)) := by
    decide +kernel
  obtain ⟨log, part, logged, grown, -, -, last, -⟩ := download_counts_given Sink.keeps_output
    Network.inTurn client "http://s.com/a".toList (Sink.bounded 4)
  have same : copy.2.1.held = part := grown
  have whole : copy.1.outside.events = log := logged
  refine ⟨Sink.keeps_output, counted, kept, failed, ?_⟩
  rw [whole, same]
  refine last fun none => ?_
  rw [none, kept] at same
  exact absurd same (by decide)

end Client

end WebClient
