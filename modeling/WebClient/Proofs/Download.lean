import WebClient.Proofs.Budget
import WebClient.Proofs.Lockstep
import WebClient.Proofs.Segmentation

/-!
# Getting and downloading

Getting a page and downloading it are carried out by different means: one reads every
body and looks for tags in it, the other reads the last body only. Where no body fails
or is markup they come to the same: what is done on the network, what is kept in the
session, and the bytes that are given.
-/

set_option autoImplicit false

namespace WebClient

variable {σ τ : Type}

/-! ## Plain bodies -/

namespace Reader

/-- The response to a request for a page, if its head can be read, has a body that comes
to its end and is not markup. -/
def HasPlainBody (reader : Reader) : Prop :=
  ∀ response after, reader.readResponse .get = (.ok response, after) →
    let body := (after.readText (Extent.select .get response.code response.fields)).1
    body.failure = none ∧ Markup.isMarkup body.value = false

instance (reader : Reader) : Decidable reader.HasPlainBody :=
  match read : reader.readResponse .get with
  | (.error _, _) => .isTrue fun _ _ given => nomatch read.symm.trans given
  | (.ok response, after) =>
    let body := (after.readText (Extent.select .get response.code response.fields)).1
    decidable_of_iff (body.failure = none ∧ Markup.isMarkup body.value = false) <| by
      constructor
      · intro plain _ _ given
        cases read.symm.trans given
        exact plain
      · intro plain
        exact plain response after read

/-- Whether a body that arrives whole is plain does not depend on how it arrives. -/
theorem HasPlainBody.of_agree {bytes : Bytes} {left right : Reader}
    (plain : left.HasPlainBody) (agree : Agree bytes left right) : right.HasPlainBody := by
  intro response after given
  have alike : Alike bytes.tail (left.readResponse .get) (right.readResponse .get) :=
    alike_readHeaded agree
  rcases read : left.readResponse .get with ⟨outcome, first⟩
  obtain ⟨second, rest, beside, -, onward⟩ := alike.beside read
  cases beside.symm.trans given
  have bodies := (alike_readText onward (Extent.select .get response.code response.fields)).1
  dsimp only
  rw [← bodies]
  exact plain response first read

end Reader

/-- All responses to requests for a page have plain bodies, in any state that the network
can come to. -/
def Network.BringsPlainBodies (network : Network σ) (config : Config) (start : σ) : Prop :=
  ∀ peers url, network.Reaches start peers →
    (Reader.start (network.incoming peers) config.timeout url).HasPlainBody

namespace Client

/-! ## One exchange -/

/-- What an exchange comes to when the body is read as text, and what when it goes to an
output: failures are the same, of a response that refers elsewhere the output gets
nothing, and otherwise it gets the bytes of the text. -/
inductive Answers (ready : τ → Prop) (held : τ → Bytes) (state : τ) :
    Except Failure Response → τ → Except Failure Response → Prop
  | failed (failure : Failure) : Answers ready held state (.error failure) state (.error failure)
  | referred {response : Response} {location : Text} (text : Text)
    (names : response.location? = some location) :
    Answers ready held state (.ok { response with content := .text text }) state
      (.ok { response with content := .unread })
  | settled {response : Response} {part : Bytes} {later : τ}
    (stays : response.location? = none)
    (plain : Markup.isMarkup (Text.latin1 part) = false) (kept : ready later)
    (grown : held later = held state ++ part) :
    Answers ready held state (.ok { response with content := .text (Text.latin1 part) }) later
      (.ok { response with content := .copied part.length })

namespace Lockstep

variable {network : Network σ} {config : Config} {start : σ} {left right : Client σ}
  {output : Output τ} {ready : τ → Prop} {held : τ → Bytes} {state : τ}

theorem listen (lockstep : Lockstep network start left right)
    (same : left.session.config = config) (plain : network.BringsPlainBodies config start)
    (collects : output.Collects ready held) (isReady : ready state) (target : Target) :
    let one := left.listen network target .get .text ()
    let other := right.listen network target .get (.output output) state
    Lockstep network start one.1 other.1 ∧
      Answers ready held state one.2.2 other.2.1 other.2.2 := by
  rcases read : (Reader.start (left.outside.incoming network) left.session.config.timeout
    target.url).readResponse .get with ⟨outcome, reader⟩
  have beside : (Reader.start (right.outside.incoming network) right.session.config.timeout
      target.url).readResponse .get = (outcome, reader) := by
    rw [Outside.incoming, lockstep.outside.peers, lockstep.config]
    exact read
  cases outcome with
  | error failure =>
    rw [listen_of_error left .text () read, listen_of_error right (.output output) state beside]
    exact ⟨lockstep.report _, .failed failure⟩
  | ok response =>
    obtain ⟨complete, unmarked⟩ := plain left.outside.peers target.url
      lockstep.outside.reached response reader (same ▸ read)
    have heads := (lockstep.report reader.journal).receive target response
    have extents := heads.report (Extent.reports .get response.code response.fields)
    rcases body : reader.readText (Extent.select .get response.code response.fields)
      with ⟨⟨text, failure⟩, after⟩
    rw [body] at complete unmarked
    cases complete
    have first : reader.readContent response (Extent.select .get response.code response.fields)
        .text () = (⟨.text text, none⟩, after, ()) := by
      simp only [Reader.readContent, body]
    rw [listen_of_complete left .text () read first]
    cases names : response.location? with
    | some location =>
      have second : reader.readContent response
          (Extent.select .get response.code response.fields) (.output output) state =
            (⟨.unread, none⟩, reader, state) := by
        simp only [Reader.readContent, names, Option.isSome_some, if_true]
      rw [listen_of_complete right (.output output) state beside second]
      exact ⟨extents.take _ _ _ _, .referred text names⟩
    | none =>
      obtain ⟨part, later, copied, value, kept, grown⟩ := Reader.copyTo_of_collects collects
        isReady reader (Extent.select .get response.code response.fields)
      rw [body] at copied value
      have second : reader.readContent response
          (Extent.select .get response.code response.fields) (.output output) state =
            (⟨.copied part.length, none⟩, after, later) := by
        simp only [Reader.readContent, names, copied]
        rfl
      rw [listen_of_complete right (.output output) state beside second]
      dsimp only at value
      subst value
      exact ⟨extents.take _ _ _ _, .settled names unmarked kept grown⟩

/-- One exchange keeps both in step, however far it gets. -/
theorem exchange (lockstep : Lockstep network start left right)
    (same : left.session.config = config) (plain : network.BringsPlainBodies config start)
    (collects : output.Collects ready held) (isReady : ready state) (target : Target)
    {request : Request} (asksPage : request.method = .get) :
    let one := left.exchange network target request .text ()
    let other := right.exchange network target request (.output output) state
    Lockstep network start one.1 other.1 ∧
      Answers ready held state one.2.2 other.2.1 other.2.2 := by
  obtain ⟨outcome, first, second, opened, beside, connected⟩ :=
    Connection.both_connect lockstep.outside left.session.config target
  have begun := lockstep.report [.detail]
  rw [← lockstep.config] at beside
  cases outcome with
  | error failure =>
    rw [exchange_of_connect_error left request .text () opened,
      exchange_of_connect_error right request (.output output) state beside]
    exact ⟨begun.move connected, .failed failure⟩
  | ok connection =>
    have asked := (begun.move connected).ask target request
    obtain ⟨result, before, below, sent, alsoSent, taken⟩ :=
      asked.outside.send_request request left.session.config.lineEnding
    rw [exchange_of_connect left request .text () opened,
      exchange_of_connect right request (.output output) state beside]
    dsimp only
    rw [← lockstep.config] at alsoSent
    cases result with
    | error failure =>
      rw [converse_of_send_error { left.report [.detail] with outside := first } request .text ()
          sent,
        converse_of_send_error { right.report [.detail] with outside := second } request
          (.output output) state alsoSent]
      exact ⟨(asked.move taken).move taken.hangUp, .failed failure⟩
    | ok count =>
      rw [converse_of_send { left.report [.detail] with outside := first } request .text () sent,
        converse_of_send { right.report [.detail] with outside := second } request
          (.output output) state alsoSent, asksPage]
      obtain ⟨listened, answers⟩ := (asked.move taken).listen same plain collects isReady target
      exact ⟨listened.move listened.outside.hangUp, answers⟩

private theorem exchange_of_sent (lockstep : Lockstep network start left right)
    (same : left.session.config = config) (plain : network.BringsPlainBodies config start)
    (collects : output.Collects ready held) (isReady : ready state) (target : Target)
    (referer : Option Text) {later : Client σ} {after : τ} {given : Except Failure Response}
    (sent : right.exchange network target (right.session.request .get target referer)
      (.output output) state = (later, after, given)) :
    ∃ first outcome, left.exchange network target (left.session.request .get target referer)
        .text () = (first, (), outcome) ∧
      Lockstep network start first later ∧ Answers ready held state outcome after given := by
  have asksPage : (left.session.request .get target referer).method = .get := rfl
  obtain ⟨moved, answers⟩ := lockstep.exchange same plain collects isReady target asksPage
  rw [← lockstep.request .get target referer, sent, lockstep.request .get target referer]
    at moved answers
  exact ⟨_, _, rfl, moved, answers⟩

end Lockstep

/-! ## A chain of exchanges -/

/-- A page with its text and a download with its count have come to the same bytes. -/
structure Agrees (network : Network σ) (start : σ) (ready : τ → Prop) (held : τ → Bytes)
    (state : τ) (page : Client σ × Text) (copy : Client σ × τ × Nat) (part : Bytes) : Prop where
  lockstep : Lockstep network start page.1 copy.1
  text : page.2 = Text.latin1 part
  count : copy.2.2 = part.length
  kept : ready copy.2.1
  grown : held copy.2.1 = held state ++ part

private theorem agrees_fetch {network : Network σ} {config : Config} {start : σ}
    (plain : network.BringsPlainBodies config start) {output : Output τ} {ready : τ → Prop}
    {held : τ → Bytes} (collects : output.Collects ready held) {left right : Client σ}
    (lockstep : Lockstep network start left right) (same : left.session.config = config)
    (url : Text) (referer : Option Text) (budget : Budget) {state : τ} (isReady : ready state) :
    ∃ part, Agrees network start ready held state
      ((fetch network left url referer budget).result.1,
        (fetch network left url referer budget).result.2.1)
      (downloadFrom network right url referer budget output state) part := by
  -- Along the download. The fetch has no other steps, as a page that is not markup calls
  -- for nothing else.
  fun_induction downloadFrom network right url referer budget output state
    generalizing left with
  | case1 right url referer budget state failure invalid =>
    rw [result_fetch_of_invalid network left referer budget invalid]
    exact ⟨[], lockstep.fail failure, rfl, rfl, isReady, (List.append_nil _).symm⟩
  | case2 right url referer budget state target parsed spent =>
    rw [result_fetch_of_spent network left referer parsed spent]
    exact ⟨[], lockstep.fail _, rfl, rfl, isReady, (List.append_nil _).symm⟩
  | case3 right url referer budget state target parsed next entered later after failure sent =>
    obtain ⟨first, outcome, exchanged, moved, answers⟩ :=
      lockstep.exchange_of_sent same plain collects isReady target referer sent
    cases answers with
    | failed failure =>
      rw [result_fetch network left referer parsed entered,
        result_settle_of_error _ _ exchanged]
      exact ⟨[], moved.fail failure, rfl, rfl, isReady, (List.append_nil _).symm⟩
  | case4 right url referer budget state target parsed next entered later after response sent
      location refers ih =>
    obtain ⟨first, outcome, exchanged, moved, answers⟩ :=
      lockstep.exchange_of_sent same plain collects isReady target referer sent
    have kept : first.session.config = config := by
      have advanced := Advances.exchange network left target
        (left.session.request .get target referer) .text ()
      rw [exchanged] at advanced
      exact advanced.config.trans same
    cases answers with
    | referred text names =>
      cases names.symm.trans refers
      rw [result_fetch network left referer parsed entered,
        result_settle_of_location exchanged names]
      exact ih moved kept isReady
    | settled stays => cases stays.symm.trans refers
  | case5 right url referer budget state target parsed next entered later after response sent
      settled =>
    obtain ⟨first, outcome, exchanged, moved, answers⟩ :=
      lockstep.exchange_of_sent same plain collects isReady target referer sent
    cases answers with
    | referred text names => cases names.symm.trans settled
    | @settled response part _ stays unmarked kept grown =>
      rw [result_fetch network left referer parsed entered,
        result_settle_of_plain _ _ exchanged stays unmarked]
      exact ⟨part, moved, rfl, rfl, kept, grown⟩

/-- Getting a page and downloading it to an output that takes everything do the same on
the network and leave the same behind, wherever the chain of references ends. The text
that is got is that of the bytes which the output was given, and their number is what
the download gives. -/
theorem get_eq_download (network : Network σ) (client : Client σ) (url : Text)
    (plain : network.BringsPlainBodies client.session.config client.outside.peers)
    {output : Output τ} {ready : τ → Prop} {held : τ → Bytes}
    (collects : output.Collects ready held) {state : τ} (isReady : ready state) :
    let page := client.get network url
    let copy := client.download network url output state
    copy.1.outside.deeds = page.1.outside.deeds ∧
      copy.1.session.jar = page.1.session.jar ∧
      copy.1.session.requestsSent = page.1.session.requestsSent ∧
      copy.1.session.lastStatus = page.1.session.lastStatus ∧
      copy.1.session.lastFailure = page.1.session.lastFailure ∧
      ∃ part, page.2 = Text.latin1 part ∧ held copy.2.1 = held state ++ part ∧
        copy.2.2 = part.length := by
  intro page copy
  have begun : Lockstep network client.outside.peers (client.report [.notice])
      (client.report [.notice]) := (Lockstep.refl client).report [.notice]
  obtain ⟨part, agrees⟩ := agrees_fetch plain collects begun rfl url none client.budget isReady
  have ended := agrees.lockstep
  obtain ⟨count, same⟩ := ended.session
  exact ⟨ended.outside.deeds, congrArg (·.jar) same, congrArg (·.requestsSent) same,
    congrArg (·.lastStatus) same, congrArg (·.lastFailure) same, part, agrees.text,
    agrees.grown, agrees.count⟩

end Client

/-! ## A page that has moved -/

namespace Network

def moved (first later : Feed) : Network Bool where
  dial gone _ _ := (gone, .connected)
  tunnel gone _ := (gone, .taken)
  channel := { write gone _ := (gone, none), flush gone := (gone, none) }
  secure gone _ _ _ := (gone, .established)
  incoming gone := if gone then later else first
  hangUp _ := true

private theorem bringsPlainBodies_moved {first later : Feed} {bytes rest : Bytes} {config : Config}
    (brings : first.Brings bytes) (brought : later.Brings rest)
    (plain : (Reader.start first config.timeout []).HasPlainBody)
    (alsoPlain : (Reader.start later config.timeout []).HasPlainBody) (start : Bool) :
    (moved first later).BringsPlainBodies config start := by
  intro gone url _
  cases gone with
  | false => exact plain.of_agree (.start brings brings _ _ _)
  | true => exact alsoPlain.of_agree (.start brought brought _ _ _)

end Network

namespace Client

theorem get_eq_download_of_moved :
    let away := Text.utf8 "HTTP/1.0 302 Found\r\nLocation: /b\r\nSet-Cookie: k=v\r\n\r\nb".toList
    let here := Text.utf8 "HTTP/1.0 200 OK\r\n\r\nhi".toList
    let network := Network.moved [.piece away] [.piece here]
    let client : Client Bool := .start (.start .initial [] 0) false []
    let page := client.get network "http://s.com/a".toList
    let copy := client.download network "http://s.com/a".toList Sink.output .unlimited
    network.BringsPlainBodies .initial false ∧ Sink.output.Collects Sink.TakesAll Sink.held ∧
      Sink.unlimited.TakesAll ∧ copy.1.outside.deeds = page.1.outside.deeds ∧
      copy.1.session.jar = page.1.session.jar ∧ page.2 = "hi".toList ∧
      Text.latin1 copy.2.1.held = page.2 ∧ copy.2.2 = copy.2.1.held.length := by
  intro away here network client page copy
  have plain : network.BringsPlainBodies .initial false :=
    Network.bringsPlainBodies_moved (.piece away) (.piece here) (by decide +kernel)
      (by decide +kernel) false
  have takesAll : Sink.unlimited.TakesAll := ⟨fun _ _ => rfl, rfl⟩
  have text : page.2 = "hi".toList := by decide +kernel
  obtain ⟨deeds, jar, -, -, -, part, same, held, count⟩ := get_eq_download network client
    "http://s.com/a".toList plain Sink.collects_output takesAll
  have given : copy.2.1.held = part := held
  exact ⟨plain, Sink.collects_output, takesAll, deeds, jar, text, given ▸ same.symm,
    given ▸ count⟩

end Client

end WebClient
