import WebClient.Client.Call
import WebClient.Proofs.Referral
import WebClient.Proofs.Segmentation

/-!
# Answers to short requests

Whether the answer to a short request has a head is decided by the first data that
comes, and by that data alone. Answers that are cut differently are taken alike as
long as the decision is the same for both; where it is not, the texts differ.
-/

set_option autoImplicit false

namespace WebClient

/-! ## The decision -/

namespace Feed

def ShowsHead (feed : Feed) : Prop :=
  "HTTP".toList <+: Text.latin1 feed.opening

instance (feed : Feed) : Decidable feed.ShowsHead :=
  inferInstanceAs (Decidable ("HTTP".toList <+: _))

private theorem showsHead_of_take {size : Nat} (room : 4 ≤ size) {feed divided : Feed}
    (cut : divided.opening = feed.opening.take size) :
    divided.ShowsHead ↔ feed.ShowsHead := by
  unfold ShowsHead
  rw [cut, Text.latin1, List.map_take, List.prefix_take_iff]
  exact and_iff_left room

/-- What begins like a status line shows it as long as the first four bytes come at once. -/
theorem showsHead_iff {feed : Feed} {bytes : Bytes} (brings : feed.Brings bytes) :
    feed.ShowsHead ↔ "HTTP".toList <+: Text.latin1 bytes ∧ 4 ≤ feed.opening.length := by
  have whole : Text.latin1 feed.opening <+: Text.latin1 bytes :=
    (opening_prefix_of_brings brings).map _
  constructor
  · intro shows
    exact ⟨shows.trans whole, by simpa [Text.length_latin1] using shows.length_le⟩
  · rintro ⟨begins, long⟩
    exact List.prefix_of_prefix_length_le begins whole (by simpa [Text.length_latin1] using long)

end Feed

namespace Reader

variable {reader left right : Reader} {bytes : Bytes}

theorem startsWithStatus_of_brings (brings : reader.feed.Brings bytes) :
    ∃ feed, reader.startsWithStatus = (.ok (decide reader.feed.ShowsHead), { reader with feed }) ∧
      feed.Brings bytes := by
  have same : "HTTP".toList.isPrefixOf (Text.latin1 reader.feed.opening) =
      decide reader.feed.ShowsHead := by
    rw [Bool.eq_iff_iff, List.isPrefixOf_iff_prefix, decide_eq_true_iff]
    exact Iff.rfl
  rcases Feed.fetchAfter_of_brings brings reader.limit 0 with ⟨rfl, nothing, ended⟩ |
    ⟨later, rest, rfl, -, given, left_over⟩
  · refine ⟨[], ?_, .nil⟩
    rw [← same, nothing]
    simp only [startsWithStatus, Feed.fetch, ended]
    rfl
  · refine ⟨.piece reader.feed.opening :: rest, ?_, ?_⟩
    · rw [← same]
      simp only [startsWithStatus, Feed.fetch, given]
    · obtain ⟨pieces, rfl, rfl⟩ := left_over
      exact ⟨reader.feed.opening :: pieces, rfl, rfl⟩

theorem readResponse_of_showsHead (brings : reader.feed.Brings bytes)
    (shows : reader.feed.ShowsHead) :
    ∃ feed, reader.readResponse .shortGet = readHeaded { reader with feed } ∧
      feed.Brings bytes := by
  obtain ⟨feed, decided, same⟩ := startsWithStatus_of_brings brings
  rw [decide_eq_true shows] at decided
  exact ⟨feed, by simp only [readResponse, decided], same⟩

theorem readResponse_of_not_showsHead (brings : reader.feed.Brings bytes)
    (bare : ¬ reader.feed.ShowsHead) :
    ∃ feed, reader.readResponse .shortGet =
      (.ok .headless, skipHead { reader with feed }) ∧ feed.Brings bytes := by
  obtain ⟨feed, decided, same⟩ := startsWithStatus_of_brings brings
  rw [decide_eq_false bare] at decided
  exact ⟨feed, by simp only [readResponse, decided], same⟩

private theorem readHeaded_suffix (brings : reader.feed.Brings bytes) :
    ∃ rest, rest <:+ bytes.tail ∧ reader.readHeaded.2.feed.Brings rest := by
  obtain ⟨-, rest, ending, agree⟩ := alike_readHeaded (.refl brings)
  exact ⟨rest, ending, agree.brings⟩

private theorem alike_readResponse (agree : Agree bytes left right)
    (decision : left.feed.ShowsHead ↔ right.feed.ShowsHead) :
    Alike bytes (left.readResponse .shortGet) (right.readResponse .shortGet) := by
  by_cases shows : left.feed.ShowsHead
  · obtain ⟨first, read, same⟩ := readResponse_of_showsHead agree.brings shows
    obtain ⟨second, beside, alsoSame⟩ :=
      readResponse_of_showsHead agree.brought (decision.1 shows)
    rw [read, beside]
    exact (alike_readHeaded (agree.onward same alsoSame)).mono (List.tail_suffix bytes)
  · obtain ⟨first, read, same⟩ := readResponse_of_not_showsHead agree.brings shows
    obtain ⟨second, beside, alsoSame⟩ :=
      readResponse_of_not_showsHead agree.brought (mt decision.2 shows)
    rw [read, beside]
    exact .of_agree ((agree.onward same alsoSame).map skipHead fun _ _ _ => rfl) List.suffix_rfl

private theorem readContent_of_brings (brings : reader.feed.Brings bytes) (response : Response) :
    ∃ rest, reader.readContent response .untilClose .text () =
      (⟨.text (Text.latin1 bytes), none⟩,
        { reader with feed := rest, received := reader.received + bytes.length }, ()) := by
  obtain ⟨rest, read, -⟩ := readTextFrom_of_brings brings .untilClose []
  exact ⟨rest, by simp only [readContent, readText, read]; rfl⟩

end Reader

/-! ## The answer -/

def Network.answering {σ : Type} (network : Network σ) (feed : Feed) : Network σ :=
  { network with incoming := fun _ => feed }

namespace Client

variable {σ : Type} {left right feed : Feed} {bytes : Bytes}

open Reader (Agree)

def hearing (client : Client σ) (target : Target) (feed : Feed) : Reader :=
  .start feed client.session.config.timeout target.url

theorem showsHead_hearing (client : Client σ) (target : Target) (feed : Feed) :
    (client.hearing target feed).feed.ShowsHead ↔ feed.ShowsHead :=
  Feed.showsHead_of_take (by decide) (Feed.opening_divided feed)

theorem listen_of_unread (network : Network σ) (client : Client σ) {target : Target}
    {failure : Failure} {reader : Reader}
    (read : (client.hearing target feed).readResponse .shortGet = (.error failure, reader)) :
    client.listen (network.answering feed) target .shortGet .text () =
      (client.report reader.journal, (), .error failure) :=
  listen_of_error client .text () read

theorem listen_of_brings (network : Network σ) (client : Client σ) {target : Target}
    {response : Response} {reader : Reader}
    (read : (client.hearing target feed).readResponse .shortGet = (.ok response, reader))
    (brings : reader.feed.Brings bytes) :
    ∃ rest, client.listen (network.answering feed) target .shortGet .text () =
      ((((client.report reader.journal).receive target response).report
        (Extent.reports .shortGet response.code response.fields)).take reader
        { reader with feed := rest, received := reader.received + bytes.length }, (),
        .ok { response with content := .text (Text.latin1 bytes) }) := by
  obtain ⟨rest, body⟩ := Reader.readContent_of_brings brings response
  exact ⟨rest, listen_of_complete client .text () read body⟩

/-- Where the first data decides alike, the answer is taken alike. -/
theorem listen_alike (network : Network σ) (client : Client σ) (target : Target)
    (brings : left.Brings bytes) (brought : right.Brings bytes)
    (decision : left.ShowsHead ↔ right.ShowsHead) :
    let one := client.listen (network.answering left) target .shortGet .text ()
    let other := client.listen (network.answering right) target .shortGet .text ()
    one.2.2 = other.2.2 ∧ one.1.session = other.1.session := by
  have agree : Agree bytes (client.hearing target left) (client.hearing target right) :=
    .start brings brought _ _ _
  have alike := Reader.alike_readResponse agree <|
    (client.showsHead_hearing target left).trans <|
      decision.trans (client.showsHead_hearing target right).symm
  rcases read : (client.hearing target left).readResponse .shortGet with ⟨outcome, first⟩
  obtain ⟨second, rest, beside, -, onward⟩ := alike.beside read
  cases outcome with
  | error failure =>
    rw [listen_of_unread network client read, listen_of_unread network client beside,
      onward.journal]
    exact ⟨rfl, rfl⟩
  | ok response =>
    obtain ⟨_, one⟩ := listen_of_brings network client read onward.brings
    obtain ⟨_, other⟩ := listen_of_brings network client beside onward.brought
    rw [one, other]
    refine ⟨rfl, ?_⟩
    simp only [take, receive, report, onward.journal, onward.received]

private theorem listen_of_not_showsHead (network : Network σ) (client : Client σ) (target : Target)
    (brings : left.Brings bytes) (bare : ¬ left.ShowsHead) :
    ∃ response, (client.listen (network.answering left) target .shortGet .text ()).2.2 =
      .ok response ∧ response.text = Text.latin1 bytes := by
  have bare : ¬ (client.hearing target left).feed.ShowsHead :=
    mt (client.showsHead_hearing target left).1 bare
  obtain ⟨feed, read, same⟩ := Reader.readResponse_of_not_showsHead brings.divided bare
  obtain ⟨_, given⟩ := listen_of_brings network client read same
  exact ⟨_, congrArg (·.2.2) given, rfl⟩

private theorem listen_of_showsHead (network : Network σ) (client : Client σ) (target : Target)
    (brings : left.Brings bytes) (shows : left.ShowsHead) {response : Response}
    (given : (client.listen (network.answering left) target .shortGet .text ()).2.2 =
      .ok response) :
    ∃ rest, rest <:+ bytes.tail ∧ response.text = Text.latin1 rest := by
  have shows : (client.hearing target left).feed.ShowsHead :=
    (client.showsHead_hearing target left).2 shows
  obtain ⟨feed, read, same⟩ := Reader.readResponse_of_showsHead brings.divided shows
  obtain ⟨rest, ending, brought⟩ : ∃ rest, rest <:+ bytes.tail ∧
      (Reader.readHeaded { client.hearing target left with feed }).2.feed.Brings rest :=
    Reader.readHeaded_suffix same
  rw [← read] at brought
  rcases headed : (client.hearing target left).readResponse .shortGet with ⟨outcome, next⟩
  rw [headed] at brought
  cases outcome with
  | error failure =>
    rw [listen_of_unread network client headed] at given
    cases given
  | ok head =>
    obtain ⟨_, listened⟩ := listen_of_brings network client headed brought
    rw [listened] at given
    cases given
    exact ⟨rest, ending, rfl⟩

/-! ## The call -/

private theorem connect_answering (network : Network σ) (feed : Feed) (config : Config)
    (target : Target) (outside : Outside σ) :
    Connection.connect (network.answering feed) config target outside =
      Connection.connect network config target outside := rfl

private theorem send_answering (network : Network σ) (feed : Feed) (request : Request)
    (ending : LineEnding) (outside : Outside σ) :
    request.send ending (Outside.channel (network.answering feed)) outside =
      request.send ending (Outside.channel network) outside := rfl

/-- A request that is not taken comes to the same, whatever would have been delivered. -/
theorem exchange_of_not_takes (network : Network σ) (client : Client σ) {target : Target}
    {request : Request}
    (refused : ∀ after, ¬ Outside.Takes network client.session.config target request
      client.outside after) :
    ∃ later failure, ∀ feed, client.exchange (network.answering feed) target request .text () =
      (later, (), .error failure) := by
  rcases opened : Connection.connect network client.session.config target client.outside
    with ⟨outside, outcome⟩
  cases outcome with
  | error failure =>
    refine ⟨{ client.report [.detail] with outside }, failure, fun feed => ?_⟩
    exact exchange_of_connect_error client request .text ()
      ((connect_answering network feed _ _ _).trans opened)
  | ok connection =>
    rcases sent : request.send client.session.config.lineEnding (Outside.channel network)
      (outside.note (.asked target request)) with ⟨after, result⟩
    cases result with
    | ok count => exact absurd ⟨outside, connection, count, opened, sent⟩ (refused after)
    | error failure =>
      refine ⟨client.asked (after.hangUp network), failure, fun feed => ?_⟩
      rw [exchange_of_connect client request .text ()
          ((connect_answering network feed _ _ _).trans opened),
        converse_of_send_error { client.report [.detail] with outside := outside } request .text ()
          ((send_answering network feed _ _ _).trans sent)]
      rfl

/-- The short request for a URL reaches the other end. -/
def AsksShort (network : Network σ) (client : Client σ) (url : Text) (target : Target)
    (after : Outside σ) : Prop :=
  Target.parse url = .ok target ∧
    Outside.Takes network client.session.config target
      (client.session.request .shortGet target none) client.outside after

private theorem roundTrip_of_not_asked (network : Network σ) (client : Client σ) (url : Text)
    (refused : ∀ target after, ¬ AsksShort network client url target after) :
    ∃ later, ∀ feed, client.roundTrip (network.answering feed) url .shortGet .empty none =
      (later, none) := by
  cases parsed : Target.parse url with
  | error failure =>
    refine ⟨client.fail failure, fun feed => ?_⟩
    simp only [roundTrip, parsed]
  | ok target =>
    obtain ⟨later, failure, exchanged⟩ := exchange_of_not_takes network client
      fun after taken => refused target after ⟨parsed, taken⟩
    refine ⟨later.fail failure, fun feed => ?_⟩
    have same : client.session.attach (client.session.request .shortGet target none) .empty none =
        client.session.request .shortGet target none := rfl
    simp only [roundTrip, parsed, same, exchanged]

theorem roundTrip_of_asked {network : Network σ} {client : Client σ} {url : Text}
    {target : Target} {after : Outside σ} (asked : AsksShort network client url target after)
    (feed : Feed) :
    client.roundTrip (network.answering feed) url .shortGet .empty none =
      let heard := (client.asked after).listen (network.answering feed) target .shortGet .text ()
      let later := { heard.1 with outside := heard.1.outside.hangUp network }
      match heard.2.2 with
      | .ok response => (later, some response)
      | .error failure => (later.fail failure, none) := by
  obtain ⟨parsed, taken⟩ := asked
  have beside : Outside.Takes (network.answering feed) client.session.config target
    (client.session.request .shortGet target none) client.outside after := taken
  have exchanged := exchange_of_takes client .text () beside
  have same : client.session.attach (client.session.request .shortGet target none) .empty none =
      client.session.request .shortGet target none := rfl
  have method : (client.session.request .shortGet target none).method = .shortGet := rfl
  rcases heard : (client.asked after).listen (network.answering feed) target .shortGet .text ()
    with ⟨later, ⟨⟩, outcome⟩
  rw [method, heard] at exchanged
  simp only [roundTrip, parsed, same, exchanged]
  cases outcome <;> rfl

def shortText (network : Network σ) (client : Client σ) (url : Text) (feed : Feed) : Text :=
  (((client.roundTrip (network.answering feed) url .shortGet .empty none).2).map
    Response.text).getD []

private theorem shortText_of_not_showsHead {network : Network σ} {client : Client σ} {url : Text}
    {target : Target} {after : Outside σ} (asked : AsksShort network client url target after)
    (brings : feed.Brings bytes) (bare : ¬ feed.ShowsHead) :
    shortText network client url feed = Text.latin1 bytes := by
  obtain ⟨response, given, text⟩ :=
    listen_of_not_showsHead network (client.asked after) target brings bare
  rw [shortText, roundTrip_of_asked asked feed]
  simp only [given]
  exact text

private theorem length_shortText_of_showsHead {network : Network σ} {client : Client σ} {url : Text}
    {target : Target} {after : Outside σ} (asked : AsksShort network client url target after)
    (brings : feed.Brings bytes) (shows : feed.ShowsHead) :
    (shortText network client url feed).length < bytes.length := by
  -- At least the first byte of the head is gone, or there is no text at all.
  have nonempty : 0 < bytes.length := by
    have long := ((Feed.showsHead_iff brings).1 shows).1.length_le
    rw [Text.length_latin1] at long
    exact Nat.lt_of_lt_of_le (by decide) long
  rw [shortText, roundTrip_of_asked asked feed]
  cases given : ((client.asked after).listen (network.answering feed) target .shortGet
    .text ()).2.2 with
  | error failure => simpa [given] using nonempty
  | ok response =>
    obtain ⟨rest, ending, text⟩ :=
      listen_of_showsHead network (client.asked after) target brings shows given
    have shorter := ending.length_le
    rw [List.length_tail] at shorter
    simp only [given, Option.map_some, Option.getD_some, text, Text.length_latin1]
    omega

theorem roundTrip_alike {network : Network σ} {client : Client σ} {url : Text}
    {target : Target} {after : Outside σ} (asked : AsksShort network client url target after)
    (brings : left.Brings bytes) (brought : right.Brings bytes)
    (decision : left.ShowsHead ↔ right.ShowsHead) :
    let one := client.roundTrip (network.answering left) url .shortGet .empty none
    let other := client.roundTrip (network.answering right) url .shortGet .empty none
    one.2 = other.2 ∧ one.1.session = other.1.session := by
  obtain ⟨outcomes, sessions⟩ :=
    listen_alike network (client.asked after) target brings brought decision
  rw [roundTrip_of_asked asked left, roundTrip_of_asked asked right]
  dsimp only
  rw [← outcomes]
  cases ((client.asked after).listen (network.answering left) target .shortGet .text ()).2.2 with
  | ok response => exact ⟨rfl, sessions⟩
  | error failure => exact ⟨rfl, congrArg (·.fail failure) sessions⟩

/-- Where the decision is not the same, the texts are not: a bare body is longer. -/
theorem shortText_ne {network : Network σ} {client : Client σ} {url : Text}
    {target : Target} {after : Outside σ} (asked : AsksShort network client url target after)
    (brings : left.Brings bytes) (brought : right.Brings bytes) (shows : left.ShowsHead)
    (bare : ¬ right.ShowsHead) :
    shortText network client url left ≠ shortText network client url right := by
  intro same
  have shorter := length_shortText_of_showsHead asked brings shows
  rw [same, shortText_of_not_showsHead asked brought bare, Text.length_latin1] at shorter
  exact Nat.lt_irrefl _ shorter

/-- The texts are the same exactly if the decision is. -/
theorem shortText_eq_iff {network : Network σ} {client : Client σ} {url : Text}
    {target : Target} {after : Outside σ} (asked : AsksShort network client url target after)
    (brings : left.Brings bytes) (brought : right.Brings bytes) :
    shortText network client url left = shortText network client url right ↔
      (left.ShowsHead ↔ right.ShowsHead) := by
  constructor
  · intro same
    by_cases one : left.ShowsHead <;> by_cases other : right.ShowsHead
    · exact iff_of_true one other
    · exact absurd same (shortText_ne asked brings brought one other)
    · exact absurd same.symm (shortText_ne asked brought brings other one)
    · exact iff_of_false one other
  · intro decision
    rw [shortText, shortText, (roundTrip_alike asked brings brought decision).1]

/-- The answer to a short request is the same for two ways of cutting it exactly if both
or neither bring the four letters of a status line at once. A request that is not taken
has no answer, and an answer that does not begin so is a bare body in either way. -/
theorem getShort_answering_iff (brings : left.Brings bytes) (brought : right.Brings bytes)
    (network : Network σ) (client : Client σ) (url : Text) :
    let one := client.getShort (network.answering left) url
    let other := client.getShort (network.answering right) url
    let response (feed : Feed) := ((client.report [.notice]).roundTrip (network.answering feed)
      url .shortGet .empty none).2
    (one.2 = other.2 ↔
      ∀ target after, AsksShort network client url target after →
        "HTTP".toList <+: Text.latin1 bytes →
        (4 ≤ left.opening.length ↔ 4 ≤ right.opening.length)) ∧
      (one.2 = other.2 → one.1.session = other.1.session ∧ response left = response right) := by
  intro one other response
  have decides : (left.ShowsHead ↔ right.ShowsHead) ↔ ("HTTP".toList <+: Text.latin1 bytes →
      (4 ≤ left.opening.length ↔ 4 ≤ right.opening.length)) := by
    rw [Feed.showsHead_iff brings, Feed.showsHead_iff brought]
    exact and_congr_right_iff
  by_cases asks : ∃ target after, AsksShort network (client.report [.notice]) url target after
  · obtain ⟨target, after, asked⟩ := asks
    have texts : one.2 = other.2 ↔ (left.ShowsHead ↔ right.ShowsHead) :=
      shortText_eq_iff asked brings brought
    refine ⟨texts.trans ⟨fun decision _ _ _ => decides.1 decision, fun same =>
      decides.2 (same target after asked)⟩, fun same => ?_⟩
    obtain ⟨responses, sessions⟩ := roundTrip_alike asked brings brought (texts.1 same)
    exact ⟨sessions, responses⟩
  · have never : ∀ target after, ¬ AsksShort network (client.report [.notice]) url target after :=
      fun target after asked => asks ⟨target, after, asked⟩
    obtain ⟨later, failed⟩ := roundTrip_of_not_asked network (client.report [.notice]) url never
    have alone : one = other := by
      simp only [one, other, getShort, failed]
    refine ⟨iff_of_true (congrArg Prod.snd alone) fun target after asked =>
      absurd asked (never target after), fun _ => ⟨congrArg (·.1.session) alone, ?_⟩⟩
    simp only [response, failed]

open Referral (client page)

/-- Four letters at once are enough. -/
theorem getShort_answering_of_late_cut :
    let left : Feed := ["HTTP", "/1.0 200 OK\r\n\r\nhi"].map fun piece =>
      .piece (Text.utf8 piece.toList)
    let bytes := Text.utf8 "HTTP/1.0 200 OK\r\n\r\nhi".toList
    let one := client.getShort ((Network.steady []).answering left) page.url
    let other := client.getShort ((Network.steady []).answering [.piece bytes]) page.url
    left.Brings bytes ∧ Feed.Brings [.piece bytes] bytes ∧ one.2 = other.2 ∧
      one.1.session = other.1.session := by
  intro left bytes one other
  have brings : left.Brings bytes :=
    ⟨["HTTP", "/1.0 200 OK\r\n\r\nhi"].map fun piece => Text.utf8 piece.toList, rfl,
      by decide +kernel⟩
  obtain ⟨texts, rest⟩ :=
    getShort_answering_iff brings (.piece bytes) (Network.steady []) client page.url
  have same : one.2 = other.2 :=
    texts.2 fun _ _ _ _ => iff_of_true (by decide +kernel) (by decide +kernel)
  exact ⟨brings, .piece bytes, same, (rest same).1⟩

/-- An answer cut inside those letters is taken for a bare body. -/
theorem not_getShort_answering_of_early_cut :
    ¬ ∀ (left right : Feed) (bytes : Bytes) (network : Network Unit) (client : Client Unit)
      (url : Text), left.Brings bytes → right.Brings bytes →
      (client.getShort (network.answering left) url).2 =
        (client.getShort (network.answering right) url).2 := by
  intro always
  have brings : Feed.Brings (["HT", "TP/1.0 200 OK\r\n\r\nhi"].map fun piece =>
      .piece (Text.utf8 piece.toList)) (Text.utf8 "HTTP/1.0 200 OK\r\n\r\nhi".toList) :=
    ⟨["HT", "TP/1.0 200 OK\r\n\r\nhi"].map fun piece => Text.utf8 piece.toList, rfl,
      by decide +kernel⟩
  have same := always _ _ _ (Network.steady []) client page.url brings (.piece _)
  exact absurd same (by decide +kernel)

end Client

end WebClient
