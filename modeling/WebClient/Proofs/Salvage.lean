import WebClient.Client.Call
import WebClient.Proofs.BodyExtent
import WebClient.Proofs.FrameSplice
import WebClient.Proofs.RecursionLimit
import WebClient.Proofs.Referral

/-!
# What is kept of a body that breaks off

A body may break off at any place. After corruption nothing of it is kept, and the page is
empty; after any other failure the page is what was delivered, and is gone on with as if that
were all. The rules below say so for one response, and with it for pages that stand in each
other's place to any depth: whatever a frame comes to, the next one is fetched.
-/

set_option autoImplicit false

namespace WebClient

variable {σ : Type}

/-! ## Bodies -/

structure Salvage where
  bytes : Bytes
  failure : Option Failure
  deriving DecidableEq, Repr

def Salvage.IsCorrupt (salvage : Salvage) : Prop :=
  ∃ cause, salvage.failure = some (.corrupt cause)

/-- Of the data before the first halt a body has what belongs to it. If that is not all of
the body, it breaks off for the reason of the halt. -/
def Reader.salvage (reader : Reader) (extent : Extent) : Salvage :=
  let stretch := reader.feed.stretch reader.limit
  match extent with
  | .untilClose => ⟨stretch.data, stretch.halt.failure reader none⟩
  | .length count =>
    if count ≤ stretch.data.length then ⟨stretch.data.take count, none⟩
    else
      ⟨stretch.data,
        stretch.halt.failure reader (some (.malformed (.bodyEnded stretch.data.length count)))⟩

theorem Reader.readText_eq_salvage {reader : Reader} (fresh : reader.received = 0)
    (extent : Extent) :
    (reader.readText extent).1 =
      ⟨Text.latin1 (reader.salvage extent).bytes, (reader.salvage extent).failure⟩ := by
  cases extent with
  | untilClose =>
    have unbounded : ∀ count ∈ reader.wanted .untilClose,
        (reader.feed.stretch reader.limit).data.length < count := by
      rintro _ ⟨⟩
    exact congrArg Prod.fst (readTextFrom_of_short unbounded [])
  | length count =>
    have wants : reader.wanted (.length count) = some count := by simp [wanted, fresh]
    by_cases enough : count ≤ (reader.feed.stretch reader.limit).data.length
    · rw [salvage, if_pos enough]
      exact congrArg Prod.fst (readTextFrom_of_enough wants enough [])
    · have short := Nat.lt_of_not_le enough
      have bounded : ∀ wanted ∈ reader.wanted (.length count),
          (reader.feed.stretch reader.limit).data.length < wanted := by
        rw [wants]
        rintro _ ⟨⟩
        exact short
      have read := congrArg Prod.fst (readTextFrom_of_short bounded [])
      have cause : shortfall (reader.feed.stretch reader.limit).data.length (.length count) =
          some (.malformed (.bodyEnded (reader.feed.stretch reader.limit).data.length count)) :=
        if_pos short
      rw [fresh, Nat.zero_add, cause] at read
      rw [salvage, if_neg enough]
      exact read

def Response.keep (head : Response) (salvage : Salvage) : Response :=
  { head with
    content := .text (Text.latin1 salvage.bytes)
    isTruncated := head.isTruncated || salvage.failure.isSome }

theorem Failure.isCorrupt_eq_true_iff {failure : Failure} :
    failure.isCorrupt = true ↔ ∃ cause, failure = .corrupt cause := by
  cases failure <;> simp [isCorrupt]

namespace Client

variable {network : Network σ} {client : Client σ} {target : Target} {request : Request}

/-! ## One response -/

/-- The request is taken, and the head of the response to it is read. The body is still to
come. -/
def Receives (network : Network σ) (client : Client σ) (target : Target) (request : Request)
    (head : Response) (reader : Reader) : Prop :=
  ∃ after, Outside.Takes network client.session.config target request client.outside after ∧
    (Reader.start (network.incoming after.peers) client.session.config.timeout
      target.url).readResponse request.method = (.ok head, reader)

def salvage (request : Request) (head : Response) (reader : Reader) : Salvage :=
  reader.salvage (Extent.select request.method head.code head.fields)

/-- What is kept of the response to a request, and the client that has taken note of it. -/
inductive Retains (network : Network σ) (client : Client σ) (target : Target)
    (request : Request) : Client σ → Option Response → Prop
  | unheard {later : Client σ} {failure : Failure}
      (unheard : ¬ ∃ head reader, Receives network client target request head reader)
      (exchanged : client.exchange network target request .text () = (later, (), .error failure)) :
      Retains network client target request (later.fail failure) none
  | corrupted {head : Response} {reader : Reader} {later : Client σ} {cause : Corruption}
      (received : Receives network client target request head reader)
      (breaks : (salvage request head reader).failure = some (.corrupt cause))
      (exchanged : (client.exchange network target request .text ()).1 = later) :
      Retains network client target request (later.fail (.corrupt cause)) none
  | kept {head : Response} {reader : Reader} {later : Client σ}
      (received : Receives network client target request head reader)
      (intact : ¬ (salvage request head reader).IsCorrupt)
      (exchanged : (client.exchange network target request .text ()).1 = later)
      (noted : later.session.lastFailure =
        (salvage request head reader).failure.or client.session.lastFailure) :
      Retains network client target request later
        (some (head.keep (salvage request head reader)))

/-- A body that is not corrupted is kept, and what it breaks off with is taken note of. -/
theorem conclude_of_not_isCorrupt (client : Client σ) (head : Response) {salvage : Salvage}
    (intact : ¬ salvage.IsCorrupt) :
    ∃ later, client.conclude head ⟨.text (Text.latin1 salvage.bytes), salvage.failure⟩ =
        (later, .ok (head.keep salvage)) ∧
      later.session.lastFailure = salvage.failure.or client.session.lastFailure := by
  cases breaks : salvage.failure with
  | none =>
    have whole : head.keep salvage =
        { head with content := .text (Text.latin1 salvage.bytes) } := by
      simp [Response.keep, breaks]
    rw [whole]
    exact ⟨_, rfl, rfl⟩
  | some failure =>
    have sound : ¬ failure.isCorrupt = true := by
      intro corrupt
      obtain ⟨cause, rfl⟩ := Failure.isCorrupt_eq_true_iff.1 corrupt
      exact intact ⟨cause, breaks⟩
    have cut : head.keep salvage =
        { head with content := .text (Text.latin1 salvage.bytes), isTruncated := true } := by
      simp [Response.keep, breaks]
    rw [cut]
    simp only [conclude, if_neg sound]
    exact ⟨_, rfl, rfl⟩

private theorem lastFailure_receive (client : Client σ) (target : Target) (response : Response) :
    (client.receive target response).session.lastFailure = client.session.lastFailure := by
  rw [receive, Session.receive_eq]

/-- Once the head has been read, all depends on what comes of the body. -/
theorem exchange_of_receives {head : Response} {reader : Reader}
    (received : Receives network client target request head reader) :
    ∃ heard : Client σ, heard.session.lastFailure = client.session.lastFailure ∧
      client.exchange network target request .text () =
        let concluded := heard.conclude head
          ⟨.text (Text.latin1 (salvage request head reader).bytes),
            (salvage request head reader).failure⟩
        ({ concluded.1 with outside := concluded.1.outside.hangUp network }, (), concluded.2) := by
  obtain ⟨after, taken, read⟩ := received
  have fresh := Reader.received_readResponse
    (Reader.start (network.incoming after.peers) client.session.config.timeout target.url)
    request.method
  rw [read] at fresh
  have body := Reader.readText_eq_salvage fresh
    (Extent.select request.method head.code head.fields)
  rcases text : reader.readText (Extent.select request.method head.code head.fields)
    with ⟨given, rest⟩
  rw [text] at body
  have content : reader.readContent head (Extent.select request.method head.code head.fields)
      .text () =
      (⟨.text (Text.latin1 (salvage request head reader).bytes),
        (salvage request head reader).failure⟩, rest, ()) := by
    simp only [Reader.readContent, text, body, salvage]
  have listened := listen_of_response (client.asked after) .text () read
  rw [content] at listened
  have exchanged := exchange_of_takes client .text () taken
  rw [listened] at exchanged
  refine ⟨_, ?_, exchanged⟩
  exact lastFailure_receive ((client.asked after).report reader.journal) target head

/-- If no head was read, then an exchange fails. -/
theorem exists_error_of_not_receives
    (unheard : ¬ ∃ head reader, Receives network client target request head reader) :
    ∃ later failure,
      client.exchange network target request .text () = (later, (), .error failure) := by
  rcases made : Connection.connect network client.session.config target client.outside with
    ⟨opened, failure | connection⟩
  · exact ⟨_, failure, exchange_of_connect_error client request .text () made⟩
  rcases sent : request.send client.session.config.lineEnding (Outside.channel network)
    (opened.note (.asked target request)) with ⟨after, failure | count⟩
  · have conversed : ({ client.report [.detail] with outside := opened } : Client σ).converse
        network target request .text () = _ := converse_of_send_error _ request .text () sent
    rw [exchange_of_connect client request .text () made, conversed]
    exact ⟨_, failure, rfl⟩
  have taken : Outside.Takes network client.session.config target request client.outside after :=
    ⟨opened, connection, count, made, sent⟩
  rw [exchange_of_takes client .text () taken]
  rcases read : (Reader.start (network.incoming after.peers) client.session.config.timeout
    target.url).readResponse request.method with ⟨failure | head, reader⟩
  · rw [listen_of_error (client.asked after) .text () read]
    exact ⟨_, failure, rfl⟩
  · exact absurd ⟨head, reader, after, taken, read⟩ unheard

theorem exchange_of_corrupt {head : Response} {reader : Reader} {cause : Corruption}
    (received : Receives network client target request head reader)
    (breaks : (salvage request head reader).failure = some (.corrupt cause)) :
    ∃ later, client.exchange network target request .text () =
      (later, (), .error (.corrupt cause)) := by
  obtain ⟨heard, -, exchanged⟩ := exchange_of_receives received
  rw [exchanged, breaks]
  exact ⟨_, rfl⟩

theorem exchange_of_intact {head : Response} {reader : Reader}
    (received : Receives network client target request head reader)
    (intact : ¬ (salvage request head reader).IsCorrupt) :
    ∃ later,
      client.exchange network target request .text () =
        (later, (), .ok (head.keep (salvage request head reader))) ∧
      later.session.lastFailure =
        (salvage request head reader).failure.or client.session.lastFailure := by
  obtain ⟨heard, same, exchanged⟩ := exchange_of_receives received
  obtain ⟨later, concluded, noted⟩ := heard.conclude_of_not_isCorrupt head intact
  rw [concluded] at exchanged
  exact ⟨_, exchanged, same ▸ noted⟩

/-- Every exchange keeps of its response what the rules say. -/
theorem retains_exchange (network : Network σ) (client : Client σ) (target : Target)
    (request : Request) :
    (∃ later failure,
      client.exchange network target request .text () = (later, (), .error failure) ∧
      Retains network client target request (later.fail failure) none) ∨
    ∃ later response,
      client.exchange network target request .text () = (later, (), .ok response) ∧
      Retains network client target request later (some response) := by
  by_cases hears : ∃ head reader, Receives network client target request head reader
  · obtain ⟨head, reader, received⟩ := hears
    by_cases corrupt : (salvage request head reader).IsCorrupt
    · obtain ⟨cause, breaks⟩ := corrupt
      obtain ⟨later, exchanged⟩ := exchange_of_corrupt received breaks
      exact .inl ⟨later, _, exchanged, .corrupted received breaks (congrArg Prod.fst exchanged)⟩
    · obtain ⟨later, exchanged, noted⟩ := exchange_of_intact received corrupt
      exact .inr ⟨later, _, exchanged, .kept received corrupt (congrArg Prod.fst exchanged) noted⟩
  · obtain ⟨later, failure, exchanged⟩ := exists_error_of_not_receives hears
    exact .inl ⟨later, failure, exchanged, .unheard hears exchanged⟩

theorem Retains.exchange_none {after : Client σ}
    (retains : Retains network client target request after none) :
    ∃ later failure,
      client.exchange network target request .text () = (later, (), .error failure) ∧
      after = later.fail failure := by
  cases retains with
  | unheard unheard exchanged => exact ⟨_, _, exchanged, rfl⟩
  | corrupted received breaks exchanged =>
    obtain ⟨later, same⟩ := exchange_of_corrupt received breaks
    refine ⟨later, _, same, ?_⟩
    rw [← exchanged, same]

theorem Retains.exchange_some {after : Client σ} {response : Response}
    (retains : Retains network client target request after (some response)) :
    client.exchange network target request .text () = (after, (), .ok response) := by
  cases retains with
  | kept received intact exchanged noted =>
    obtain ⟨later, same, -⟩ := exchange_of_intact received intact
    rw [← exchanged, same]

/-! ## Pages -/

mutual

/-- What fetching the page at a URL comes to: the client afterwards, the page, and what is
left of the budget. -/
inductive Fetches (network : Network σ) :
    Client σ → Text → Option Text → Budget → Client σ × Text × Budget → Prop
  | invalid {client : Client σ} {url : Text} {referer : Option Text} {budget : Budget}
      {failure : Failure} (invalid : Target.parse url = .error failure) :
      Fetches network client url referer budget (client.fail failure, [], budget)
  | spent {client : Client σ} {url : Text} {referer : Option Text} {budget : Budget}
      {target : Target} (parsed : Target.parse url = .ok target) (spent : budget.enter? = none) :
      Fetches network client url referer budget
        (client.fail (.budgetSpent url budget.limit), [], budget)
  | asked {client : Client σ} {url : Text} {referer : Option Text} {budget next : Budget}
      {target : Target} {result : Client σ × Text × Budget}
      (parsed : Target.parse url = .ok target) (entered : budget.enter? = some next)
      (settles : Settles network client target (client.session.request .get target referer) next
        result) :
      Fetches network client url referer budget result

/-- What a request comes to. A response of which nothing is kept gives an empty page; of any
other the text is what was delivered. Into a document with frames their pages are put, each
directly behind the tag of its frame. -/
inductive Settles (network : Network σ) :
    Client σ → Target → Request → Budget → Client σ × Text × Budget → Prop
  | lost {client later : Client σ} {target : Target} {request : Request} {budget : Budget}
      (retains : Retains network client target request later none) :
      Settles network client target request budget (later, [], budget)
  | moved {client heard : Client σ} {target : Target} {request : Request} {budget : Budget}
      {response : Response} {next : FollowUp} {result : Client σ × Text × Budget}
      (retains : Retains network client target request heard (some response))
      (calls : response.followUp? target heard.session.config = some next)
      (fetches : Fetches network heard next.url (some target.url) budget result) :
      Settles network client target request budget result
  | framed {client heard later : Client σ} {target : Target} {request : Request}
      {budget left : Budget} {response : Response} {insets : List Markup.Inset}
      {parts : List Text} {tail : Text}
      (retains : Retains network client target request heard (some response))
      (stays : response.followUp? target heard.session.config = none)
      (shows : heard.session.config.loadFrames = true ∧
        Response.isScanned heard.session.config response.text = true)
      (frames : FetchesAll network heard target (Markup.frames response.text) budget
        (later, insets, left))
      (whole : response.text = parts.flatten ++ tail) (cuts : Markup.Cuts 0 parts insets) :
      Settles network client target request budget
        (later, Markup.withInsets parts insets ++ tail, left)
  | plain {client heard : Client σ} {target : Target} {request : Request} {budget : Budget}
      {response : Response} (retains : Retains network client target request heard (some response))
      (stays : response.followUp? target heard.session.config = none)
      (plain : ¬ (heard.session.config.loadFrames = true ∧
        Response.isScanned heard.session.config response.text = true)) :
      Settles network client target request budget (heard, response.text, budget)

/-- What fetching the pages for frames comes to. Each is fetched from where the one before it
left off, whatever that came to, and each has its inset. -/
inductive FetchesAll (network : Network σ) :
    Client σ → Target → List Markup.Frame → Budget → Client σ × List Markup.Inset × Budget → Prop
  | nil {client : Client σ} {target : Target} {budget : Budget} :
      FetchesAll network client target [] budget (client, [], budget)
  | cons {client between later : Client σ} {target : Target} {frame : Markup.Frame}
      {rest : List Markup.Frame} {budget left last : Budget} {text : Text}
      {insets : List Markup.Inset}
      (first : Fetches network client (target.resolve frame.source) (some target.url) budget
        (between, text, left))
      (others : FetchesAll network between target rest left (later, insets, last)) :
      FetchesAll network client target (frame :: rest) budget
        (later, ⟨frame, target.resolve frame.source, text⟩ :: insets, last)

end

theorem FetchesAll.map_frame {client : Client σ} {target : Target} {frames : List Markup.Frame}
    {budget : Budget} {result : Client σ × List Markup.Inset × Budget} :
    FetchesAll network client target frames budget result →
      result.2.1.map Markup.Inset.frame = frames
  | .nil => rfl
  | .cons _ others => congrArg (List.cons _) others.map_frame

theorem Settles.of_splice {client heard later : Client σ} {budget left : Budget}
    {response : Response} {insets : List Markup.Inset}
    (retains : Retains network client target request heard (some response))
    (stays : response.followUp? target heard.session.config = none)
    (shows : heard.session.config.loadFrames = true ∧
      Response.isScanned heard.session.config response.text = true)
    (frames : FetchesAll network heard target (Markup.frames response.text) budget
      (later, insets, left)) :
    Settles network client target request budget
      (later, Markup.splice response.text insets, left) := by
  have first : insets.map Markup.Inset.frame <+: Markup.frames response.text := by
    rw [frames.map_frame]
  obtain ⟨parts, tail, whole, cuts⟩ := Markup.exists_cuts_of_prefix first
  rw [whole, Markup.splice_eq_withInsets cuts]
  exact .framed retains stays shows frames whole cuts

def Visit.Obeys {bound : Nat} (visit : Visit σ bound) (network : Network σ) : Prop :=
  ∀ client url referer budget within,
    Fetches network client url (some referer) budget (visit client url referer budget within).result

section Obeying

variable {bound : Nat} {visit : Visit σ bound} (obeys : Visit.Obeys visit network)

include obeys

private theorem fetchesAll_visitFrames (target : Target) (frames : List Markup.Frame)
    (client : Client σ) (budget : Budget) (within : budget.remaining ≤ bound) :
    FetchesAll network client target frames budget
      (visitFrames visit target frames client budget within).result := by
  induction frames generalizing client budget with
  | nil => exact .nil
  | cons frame rest ih => exact .cons (obeys client _ target.url budget within) (ih _ _ _)

theorem settles_settle (client : Client σ) (target : Target) (request : Request)
    (budget : Budget) (within : budget.remaining ≤ bound) :
    Settles network client target request budget
      (settle network visit client target request budget within).result := by
  rcases retains_exchange network client target request with
    ⟨later, failure, exchanged, retains⟩ | ⟨heard, response, exchanged, retains⟩
  · rw [result_settle_of_error visit within exchanged]
    exact .lost retains
  unfold settle
  rw [exchanged]
  dsimp only
  cases calls : response.followUp? target heard.session.config with
  | some next => exact .moved retains calls (obeys heard next.url target.url budget within)
  | none =>
    dsimp only
    unfold inlineFrames
    split
    · rename_i shows
      exact .of_splice retains calls (Bool.and_eq_true_iff.1 shows)
        (fetchesAll_visitFrames obeys target (Markup.frames response.text) heard budget within)
    · rename_i plain
      exact .plain retains calls (mt Bool.and_eq_true_iff.2 plain)

end Obeying

/-- Fetching comes to what the rules say, on every path and at every depth. -/
theorem fetches_fetch (network : Network σ) (client : Client σ) (url : Text)
    (referer : Option Text) (budget : Budget) :
    Fetches network client url referer budget (fetch network client url referer budget).result := by
  induction client, url, referer, budget using fetch.induct network with
  | case1 client url referer budget failure invalid =>
    rw [result_fetch_of_invalid network client referer budget invalid]
    exact .invalid invalid
  | case2 client url referer budget target parsed spent =>
    rw [result_fetch_of_spent network client referer parsed spent]
    exact .spent parsed spent
  | case3 client url referer budget target parsed next entered fewer ih =>
    rw [result_fetch network client referer parsed entered]
    -- What the page leads to is fetched with the rest of the budget, where the rules hold.
    have obeys : Visit.Obeys (revisit network next.remaining) network :=
      fun client url referer left within => ih client url referer left within
    exact .asked parsed entered (settles_settle obeys client target _ next (Nat.le_refl _))

private theorem obeys_revisit (network : Network σ) (bound : Nat) :
    Visit.Obeys (revisit network bound) network :=
  fun client url referer left _ => fetches_fetch network client url (some referer) left

/-! ## The rules leave nothing open -/

/-- What comes of frames is what comes of the first, and of the others from there. -/
theorem result_visitFrames_of_first {bound : Nat} {visit : Visit σ bound} {frame : Markup.Frame}
    {rest : List Markup.Frame} {between : Client σ} {budget left : Budget} {text : Text}
    {result : Client σ × List Markup.Inset × Budget} (within : budget.remaining ≤ bound)
    (first : (visit client (target.resolve frame.source) target.url budget within).result =
      (between, text, left))
    (others : ∀ within, (visitFrames visit target rest between left within).result = result) :
    (visitFrames visit target (frame :: rest) client budget within).result =
      (result.1, ⟨frame, target.resolve frame.source, text⟩ :: result.2.1, result.2.2) := by
  rcases page : visit client (target.resolve frame.source) target.url budget within
    with ⟨later, value, unspent, spent⟩
  rw [page] at first
  cases first
  rw [← others spent]
  simp only [visitFrames, page]
  rfl

mutual

theorem Fetches.result_eq {client : Client σ} {url : Text} {referer : Option Text}
    {budget : Budget} {result : Client σ × Text × Budget} :
    Fetches network client url referer budget result →
      (fetch network client url referer budget).result = result
  | .invalid invalid => result_fetch_of_invalid network client referer budget invalid
  | .spent parsed spent => result_fetch_of_spent network client referer parsed spent
  | .asked parsed entered settles =>
    (result_fetch network client referer parsed entered).trans (settles.result_eq (Nat.le_refl _))

theorem Settles.result_eq {client : Client σ} {target : Target} {request : Request}
    {budget : Budget} {result : Client σ × Text × Budget} :
    Settles network client target request budget result →
      ∀ {bound : Nat} (within : budget.remaining ≤ bound),
        (settle network (revisit network bound) client target request budget within).result =
          result
  | .lost retains, _, within => by
    obtain ⟨later, failure, exchanged, rfl⟩ := retains.exchange_none
    exact result_settle_of_error _ within exchanged
  | .moved retains calls fetches, _, within => by
    simp only [settle, retains.exchange_some, calls]
    exact fetches.result_eq
  | .framed retains stays shows frames whole cuts, _, within => by
    have all := frames.result_eq within
    simp only [Leg.result, Prod.mk.injEq] at all
    obtain ⟨client, insets, left⟩ := all
    rw [← Markup.splice_eq_withInsets cuts, ← whole]
    simp only [settle, inlineFrames, retains.exchange_some, stays, shows, Bool.and_self, if_true,
      Leg.result, client, insets, left]
  | .plain retains stays plain, _, within => by
    simp only [settle, inlineFrames, retains.exchange_some, stays, Bool.and_eq_true, if_neg plain,
      Leg.result]

theorem FetchesAll.result_eq {client : Client σ} {target : Target} {frames : List Markup.Frame}
    {budget : Budget} {result : Client σ × List Markup.Inset × Budget} :
    FetchesAll network client target frames budget result →
      ∀ {bound : Nat} (within : budget.remaining ≤ bound),
        (visitFrames (revisit network bound) target frames client budget within).result = result
  | .nil, _, _ => rfl
  | .cons first others, _, within =>
    result_visitFrames_of_first within first.result_eq others.result_eq

end

/-! ## Calls -/

/-- A call comes down to sending a body to a URL, by a client that is ready to. -/
inductive Posts (client : Client σ) : Call → Client σ → Text → Body → Text → Prop
  | params (url : Text) (params : Form.Params) :
      Posts client (.post url params) client url (.text (Form.encode params))
        client.session.config.contentType
  | bytes (url : Text) (bytes : Bytes) (contentType : Text) :
      Posts client (.postBytes url bytes contentType) client url (.bytes bytes) contentType
  | file {url path contentType : Text} {body : Body} (opened : client.fileBody path = .ok body) :
      Posts client (.postFile url path contentType) client url body contentType
  | parts {url : Text} {parts : Multipart.Parts} {types : Multipart.Types}
      {encoded : Multipart.Encoded} {draws : Multipart.Draws}
      (drawn : Multipart.encode? parts types client.session.draws = some (encoded, draws)) :
      Posts client (.postMultipart url parts types)
        { client with session := { client.session with draws } } url (.bytes encoded.body)
        encoded.contentType

private theorem perform_of_posts {call : Call} {ready : Client σ} {url : Text} {body : Body}
    {contentType : Text} (posts : Posts client call ready url body contentType) :
    client.perform network call =
      (ready.postBody network url body contentType).map id Outcome.text := by
  cases posts with
  | params | bytes => rfl
  | file opened => simp only [perform, postFile, opened]
  | parts drawn => simp only [perform, postMultipart, drawn]

private theorem postBody_of_settles {url : Text} (parsed : Target.parse url = .ok target)
    {next : Budget} (entered : client.budget.enter? = some next) {body : Body} {contentType : Text}
    {result : Client σ × Text × Budget}
    (settles : Settles network (client.report [.notice]) target
      (client.session.attach (client.session.request .post target none) body (some contentType))
      next result) :
    client.postBody network url body contentType = (result.1, result.2.1) := by
  rw [postBody_of_entered network client parsed entered body contentType,
    settles.result_eq (Nat.le_refl _)]

private theorem getShort_of_retains {url : Text} (parsed : Target.parse url = .ok target)
    {later : Client σ} {response? : Option Response}
    (retains : Retains network (client.report [.notice]) target
      (client.session.request .shortGet target none) later response?) :
    client.getShort network url = (later, (response?.map Response.text).getD []) := by
  have bare : (client.report [.notice]).session.attach
      ((client.report [.notice]).session.request .shortGet target none) .empty none =
      client.session.request .shortGet target none := rfl
  cases response? with
  | none =>
    obtain ⟨before, failure, exchanged, rfl⟩ := retains.exchange_none
    simp only [getShort, roundTrip, parsed, bare, exchanged]
  | some response =>
    simp only [getShort, roundTrip, parsed, bare, retains.exchange_some]

/-- Getting a page, sending a body and asking with a request line alone come to just what the
rules say: of a body that is corrupted nothing is kept, of any other exactly what was delivered,
with what it broke off with as the last failure; and the pages of all frames are fetched in any
case. -/
theorem salvages_page (network : Network σ) (client : Client σ) :
    (∀ url,
      (∃ result, Fetches network (client.report [.notice]) url none client.budget result) ∧
      ∀ result, Fetches network (client.report [.notice]) url none client.budget result →
        client.get network url = (result.1.report [.notice], result.2.1)) ∧
    (∀ call ready url body contentType target next,
      Posts client call ready url body contentType → Target.parse url = .ok target →
      client.budget.enter? = some next →
      let request := ready.session.attach (ready.session.request .post target none) body
        (some contentType)
      (∃ result, Settles network (ready.report [.notice]) target request next result) ∧
      ∀ result, Settles network (ready.report [.notice]) target request next result →
        client.perform network call = (result.1, .text result.2.1)) ∧
    ∀ url target, Target.parse url = .ok target →
      let request := client.session.request .shortGet target none
      (∃ later response?,
        Retains network (client.report [.notice]) target request later response?) ∧
      ∀ later response?, Retains network (client.report [.notice]) target request later response? →
        client.getShort network url = (later, (response?.map Response.text).getD []) := by
  refine ⟨fun url => ⟨?_, fun result fetches => ?_⟩, ?_, ?_⟩
  · exact ⟨_, fetches_fetch network (client.report [.notice]) url none client.budget⟩
  · rw [← fetches.result_eq]
    rfl
  · intro call ready url body contentType target next posts parsed entered request
    refine ⟨⟨_, settles_settle (obeys_revisit network next.remaining) (ready.report [.notice])
      target request next (Nat.le_refl _)⟩, fun result settles => ?_⟩
    have affordable : ready.budget.enter? = some next := by cases posts <;> exact entered
    rw [perform_of_posts posts, postBody_of_settles parsed affordable settles]
    rfl
  · intro url target parsed request
    refine ⟨?_, fun later response? retains => getShort_of_retains parsed retains⟩
    rcases retains_exchange network (client.report [.notice]) target request with
      ⟨later, failure, -, retains⟩ | ⟨later, response, -, retains⟩
    · exact ⟨_, none, retains⟩
    · exact ⟨_, some response, retains⟩

/-- Of three frames the first is corrupted behind a byte and the second breaks off; the third
is fetched all the same. -/
theorem salvages_page_of_frames :
    let feed (text : String) : Feed := [.piece (Text.utf8 text.toList)]
    let corrupted := feed "HTTP/1.0 200 OK\r\n\r\nx" ++ [.fault (.corrupt .undecryptable)]
    let page := "<html><frame src=b><frame src=c><frame src=d></html>"
    let feeds := [
      feed ("HTTP/1.0 200 OK\r\n\r\n" ++ page), corrupted,
      feed "HTTP/1.0 200 OK\r\nContent-Length: 5\r\n\r\nhi" ++ [.fault (.io .connectionReset)],
      feed "HTTP/1.0 200 OK\r\n\r\nho"]
    let client := Client.start (.start .initial [] 0) feeds []
    let other := Client.start (.start .initial [] 0) [corrupted] []
    let url := "http://s.com/a".toList
    let target : Target := ⟨.http, "s.com".toList, 80, "/a".toList⟩
    let text := "<html><frame src=b>".toList ++
      "<!-- begin frame: http://s.com/b --><!-- end frame: http://s.com/b -->".toList ++
      "<frame src=c>".toList ++
      "<!-- begin frame: http://s.com/c -->hi<!-- end frame: http://s.com/c -->".toList ++
      "<frame src=d>".toList ++
      "<!-- begin frame: http://s.com/d -->ho<!-- end frame: http://s.com/d -->".toList ++
      "</html>".toList
    let call := Call.postBytes url [104, 105] "text/plain".toList
    let next : Budget := { used := 1, limit := 5 }
    (∃ later left,
      Fetches Network.inTurn (client.report [.notice]) url none client.budget (later, text, left) ∧
        later.session.lastFailure = some (.io .connectionReset)) ∧
      Posts client call client url (.bytes [104, 105]) "text/plain".toList ∧
      Target.parse url = .ok target ∧ client.budget.enter? = some next ∧
      (∃ later left,
        Settles Network.inTurn (client.report [.notice]) target
          (client.session.attach (client.session.request .post target none) (.bytes [104, 105])
            (some "text/plain".toList)) next (later, text, left) ∧
        client.perform Network.inTurn call = (later, .text text)) ∧
      ∃ later response?,
        Retains Network.inTurn (other.report [.notice]) target
          (other.session.request .shortGet target none) later response? ∧
        other.getShort Network.inTurn url = (later, []) ∧
        later.session.lastFailure = some (.corrupt .undecryptable) := by
  intro feed corrupted page feeds client other url target text call next
  have parsed : Target.parse url = .ok target := by decide +kernel
  have entered : client.budget.enter? = some next := by decide +kernel
  have posts : Posts client call client url (.bytes [104, 105]) "text/plain".toList := .bytes _ _ _
  obtain ⟨pages, posted, -⟩ := salvages_page Network.inTurn client
  obtain ⟨-, -, shorts⟩ := salvages_page Network.inTurn other
  refine ⟨?_, posts, parsed, entered, ?_, ?_⟩
  · obtain ⟨⟨⟨later, given, left⟩, fetches⟩, unique⟩ := pages url
    have same := unique _ fetches
    have whole : given = text := (congrArg Prod.snd same).symm.trans (by decide +kernel)
    have last : (later.report [.notice]).session.lastFailure = some (.io .connectionReset) :=
      (congrArg (·.1.session.lastFailure) same).symm.trans (by decide +kernel)
    exact ⟨later, left, whole ▸ fetches, last⟩
  · obtain ⟨⟨⟨later, given, left⟩, settles⟩, unique⟩ := posted _ _ _ _ _ _ _ posts parsed entered
    have same := unique _ settles
    have whole : given = text := Outcome.text.inj <|
      (congrArg Prod.snd same).symm.trans (by decide +kernel)
    exact ⟨later, left, whole ▸ settles, whole ▸ same⟩
  · obtain ⟨⟨later, response?, retains⟩, unique⟩ := shorts url target parsed
    have same := unique _ _ retains
    have last : later.session.lastFailure = some (.corrupt .undecryptable) :=
      (congrArg (·.1.session.lastFailure) same).symm.trans (by decide +kernel)
    have nothing : (response?.map Response.text).getD [] = [] :=
      (congrArg Prod.snd same).symm.trans (by decide +kernel)
    exact ⟨later, response?, retains, nothing ▸ same, last⟩

end Client

end WebClient
