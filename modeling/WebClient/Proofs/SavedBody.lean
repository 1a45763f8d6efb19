import WebClient.CommandLine
import WebClient.Files.Lemmas
import WebClient.Network.Steady
import WebClient.Proofs.Latin1
import WebClient.Proofs.Salvage
import WebClient.Proofs.Utf8

/-!
# Bodies in files

What the command leaves in its output file when the body of a response has been delivered
whole. A page that was got is in the file byte for byte. The answer to a post has been text
in between, so that each byte beyond ASCII is two in the file.
-/

set_option autoImplicit false

namespace WebClient

variable {σ τ : Type}

/-! ## Writing once more -/

namespace Files

variable {files after : Files} {path : Text} {content : Bytes}

/-- Whether a file can be written does not depend on its content. -/
theorem exists_write (written : files.write path content = .ok after) (other : Bytes) :
    ∃ final, files.write path other = .ok final := by
  obtain ⟨directory, part, place, followed, slash, dots, gone, free, -⟩ :=
    write_eq_ok_iff.1 written
  exact ⟨_, write_eq_ok_iff.2 ⟨directory, part, place, followed, slash, dots, gone, free, rfl⟩⟩

/-- What was written can be written again. -/
theorem exists_write_again (written : files.write path content = .ok after) (other : Bytes) :
    ∃ final, after.write path other = .ok final := by
  obtain ⟨directory, part, place, followed, slash, dots, gone, free, rfl⟩ :=
    write_eq_ok_iff.1 written
  have there : isAt place path := by
    simp [isAt, slash, ofPath_of_approach followed, (go_eq_ok_iff.1 gone).2]
  exact ⟨_, write_eq_ok_iff.2 ⟨directory, part, place,
    approach_mono (fun _ => hasDirectory_put there) followed, slash, dots, gone,
    not_hasDirectory_put there free, rfl⟩⟩

end Files

/-! ## Bodies that are delivered whole -/

namespace Client

variable {network : Network σ} {client : Client σ} {target : Target} {request : Request}
  {body : Bytes}

/-- A response is received that refers nowhere else, and the whole of its body is delivered. -/
def Serves (network : Network σ) (client : Client σ) (target : Target) (request : Request)
    (body : Bytes) : Prop :=
  ∃ head reader, Receives network client target request head reader ∧ head.location? = none ∧
    salvage request head reader = ⟨body, none⟩

theorem files_exchange (network : Network σ) (client : Client σ) (target : Target)
    (request : Request) (intake : Intake τ) (state : τ) :
    (client.exchange network target request intake state).1.outside.files =
      client.outside.files :=
  (Advances.exchange network client target request intake state).outside.files

/-- Read as text, the body has a character for each byte. -/
theorem exchange_text_of_serves (serves : Serves network client target request body) :
    ∃ later response,
      client.exchange network target request .text () = (later, (), .ok response) ∧
      response.location? = none ∧ response.text = Text.latin1 body := by
  obtain ⟨head, reader, received, stays, whole⟩ := serves
  have intact : ¬ (salvage request head reader).IsCorrupt := by
    rintro ⟨cause, breaks⟩
    rw [whole] at breaks
    cases breaks
  obtain ⟨later, exchanged, -⟩ := exchange_of_intact received intact
  rw [whole] at exchanged
  exact ⟨later, head.keep ⟨body, none⟩, exchanged, stays, rfl⟩

/-- Copied to an output that takes everything, the body is there byte for byte. -/
theorem exchange_output_of_serves {output : Output τ} {ready : τ → Prop} {held : τ → Bytes}
    (collects : output.Collects ready held) {state : τ} (isReady : ready state)
    (serves : Serves network client target request body) :
    ∃ later final response,
      client.exchange network target request (.output output) state =
        (later, final, .ok response) ∧
      response.location? = none ∧ held final = held state ++ body := by
  obtain ⟨head, reader, ⟨after, taken, read⟩, stays, whole⟩ := serves
  have fresh := Reader.received_readResponse
    (Reader.start (network.incoming after.peers) client.session.config.timeout target.url)
    request.method
  rw [read] at fresh
  obtain ⟨part, final, copied, text, -, grown⟩ := Reader.copyTo_of_collects collects isReady reader
    (Extent.select request.method head.code head.fields)
  have bytes := Reader.readText_eq_salvage fresh
    (Extent.select request.method head.code head.fields)
  rw [show reader.salvage _ = ⟨body, none⟩ from whole] at bytes
  obtain rfl : part = body := by
    rw [bytes] at text
    exact (Text.latin1_injective text).symm
  rw [bytes] at copied
  have content : reader.readContent head (Extent.select request.method head.code head.fields)
      (.output output) state = (⟨.copied part.length, none⟩,
        (reader.readText (Extent.select request.method head.code head.fields)).2, final) := by
    simp only [Reader.readContent, stays, copied]
    rfl
  have listened := listen_of_complete (client.asked after) (.output output) state read content
  have exchanged := exchange_of_takes client (.output output) state taken
  rw [listened] at exchanged
  exact ⟨_, final, { head with content := .copied part.length }, exchanged, stays, grown⟩

private theorem held_download {url : Text} (parsed : Target.parse url = .ok target)
    (affordable : client.session.config.recursionLimit ≠ 0)
    (serves : Serves network client target (client.session.request .get target none) body) :
    (client.download network url Sink.output .unlimited).2.1.held = body ∧
      (client.download network url Sink.output .unlimited).1.outside.files =
        client.outside.files := by
  obtain ⟨next, entered⟩ := exists_enter?_budget affordable
  have takesAll : Sink.unlimited.TakesAll := ⟨fun _ _ => rfl, rfl⟩
  let begun := client.report [.notice]
  have served : Serves network begun target (begun.session.request .get target none) body := serves
  obtain ⟨later, sink, response, exchanged, stays, grown⟩ :=
    exchange_output_of_serves Sink.collects_output takesAll served
  have files := files_exchange network begun target (begun.session.request .get target none)
    (.output Sink.output) .unlimited
  rw [exchanged] at files
  have downloaded : client.download network url Sink.output .unlimited =
      (later, sink, response.copied) := by
    show downloadFrom network begun url none client.budget Sink.output .unlimited = _
    rw [downloadFrom_of_entered begun none Sink.output .unlimited parsed entered, exchanged]
    simp only [stays]
  rw [downloaded]
  exact ⟨grown, files⟩

/-- A post whose answer is not markup gives the text of that answer. -/
theorem postBody_of_serves {url : Text} (parsed : Target.parse url = .ok target)
    (affordable : client.session.config.recursionLimit ≠ 0) {sent : Body} {contentType : Text}
    (serves : Serves network client target
      (client.session.attach (client.session.request .post target none) sent (some contentType))
      body)
    (plain : Markup.isMarkup (Text.latin1 body) = false) :
    ∃ later, client.postBody network url sent contentType = (later, Text.latin1 body) ∧
      later.outside.files = client.outside.files := by
  obtain ⟨next, entered⟩ := exists_enter?_budget affordable
  let begun := client.report [.notice]
  have served : Serves network begun target (begun.session.attach
    (begun.session.request .post target none) sent (some contentType)) body := serves
  obtain ⟨later, response, exchanged, stays, text⟩ := exchange_text_of_serves served
  have files := files_exchange network begun target (begun.session.attach
    (begun.session.request .post target none) sent (some contentType)) .text ()
  rw [exchanged] at files
  have settled := result_settle_of_plain (revisit network next.remaining) (Nat.le_refl _)
    exchanged stays (text ▸ plain)
  refine ⟨later, ?_, files⟩
  rw [postBody_of_entered network client parsed entered sent contentType, ← text]
  exact Prod.ext (congrArg (·.1) settled) (congrArg (·.2.1) settled)

end Client

/-! ## Output files -/

namespace CommandLine

section

variable {network : Network σ} {peers : σ} {files : Files} {now : Int} {client : Client σ}
  {options : Options} {config : Config} {verb url path : Text} {arguments : List Text}

structure Options.Saves (options : Options) (config : Config) (verb url path : Text) : Prop where
  verb : ∃ word, options.verb = some word ∧ Text.lower word = verb
  url : options.setting? .url = some url
  path : options.setting? .outfile = some path
  config : options.config = .ok config

def begun (config : Config) (peers : σ) (files : Files) (now : Int) : Client σ :=
  .start (.start config [] now) peers files

def posted (options : Options) (client : Client σ) : Except Failure Body :=
  match options.setting? .file with
  | some path => client.fileBody path
  | none => .ok (.text (Form.encode options.params))

private theorem outside_closing (client : Client σ) (reply : Reply) :
    (closing client reply).outside = client.outside := by
  unfold closing
  split <;> rfl

private theorem run_of_carryOut? (given : read arguments = .options options)
    (saves : options.Saves config verb url path) {later : Client σ} {reply : Reply}
    (carried : carryOut? network options (begun config peers files now) verb url =
      some (later, reply)) :
    (run network peers files now arguments).reply = reply ∧
      (run network peers files now arguments).client.outside = later.outside := by
  obtain ⟨word, named, rfl⟩ := saves.verb
  have same : runWith network peers files now options = (closing later reply, reply) := by
    unfold runWith
    simp only [named, saves.url, saves.config]
    rw [begun] at carried
    rw [carried]
  simp only [run, given, same]
  exact ⟨trivial, outside_closing later reply⟩

private theorem carryOut?_get (saved : options.setting? .outfile = some path) :
    carryOut? network options client "get".toList url =
      some (download network client (Form.appendQuery url (Form.encode options.params)) path) := by
  simp only [carryOut?, saved]
  rfl

private theorem carryOut?_post {sent : Body} (sends : posted options client = .ok sent) :
    carryOut? network options client "post".toList url =
      let posted := client.postBody network url sent client.session.config.contentType
      some (emit posted.1 posted.2 (options.setting? .outfile)) := by
  unfold posted at sends
  cases file : options.setting? .file with
  | none =>
    rw [file] at sends
    cases sends
    simp only [carryOut?, file]
    rfl
  | some source =>
    rw [file] at sends
    have same : client.postFile network url source client.session.config.contentType =
        client.postBody network url sent client.session.config.contentType := by
      simp only [Client.postFile, show client.fileBody source = .ok sent from sends]
    simp only [carryOut?, file, same]
    rfl

/-- What is saved is in the file. -/
theorem save_of_write {content : Bytes} {after : Files}
    (written : client.outside.files.write path content = .ok after) :
    save client path content =
      .ok { client with outside := { client.outside with files := after } } := by
  rw [save, written]
  rfl

private theorem download_of_serves {emptied : Files} {target : Target} {body : Bytes}
    (writable : client.outside.files.write path [] = .ok emptied)
    (parsed : Target.parse url = .ok target)
    (affordable : client.session.config.recursionLimit ≠ 0)
    (serves : Client.Serves network
      { client with outside := { client.outside with files := emptied } } target
      (client.session.request .get target none) body) :
    ∃ later, download network client url path = (later, .finished 0 [] []) ∧
      later.outside.files.content? path = some body := by
  let ready : Client σ := { client with outside := { client.outside with files := emptied } }
  have affords : ready.session.config.recursionLimit ≠ 0 := affordable
  obtain ⟨held, kept⟩ := Client.held_download parsed affords serves
  rcases copied : ready.download network url Sink.output .unlimited with ⟨later, sink, count⟩
  rw [copied] at held kept
  obtain ⟨final, written⟩ := Files.exists_write_again writable sink.held
  have rewritten : (later.report [.notice]).outside.files.write path sink.held = .ok final := by
    rw [← written]
    exact congrArg (Files.write · path sink.held) kept
  refine ⟨{ later.report [.notice] with outside := { later.outside with files := final } }, ?_, ?_⟩
  · simp only [download, save_of_write writable]
    rw [show Client.download network _ url Sink.output .unlimited = _ from copied]
    simp only [save_of_write rewritten]
    rfl
  · rw [← held]
    exact Files.content?_of_write written

private theorem emit_of_write {text : Text} {after : Files}
    (written : client.outside.files.write path text.utf8 = .ok after) :
    ∃ later, emit client text (some path) = (later, .finished 0 [] []) ∧
      later.outside.files.content? path = some text.utf8 := by
  refine ⟨{ client with outside := { client.outside with files := after } }, ?_, ?_⟩
  · simp only [emit, save_of_write written]
  · exact Files.content?_of_write written

/-- Where a response is delivered whole and a file can be written, a page that was got is in
the file byte for byte. The answer to a post that is not markup is in it as the UTF-8 of its
text, which are the same bytes exactly if all of them are ASCII. -/
theorem content?_of_run (network : Network σ) (peers : σ) (now : Int) {emptied : Files}
    (given : read arguments = .options options)
    (saves : options.Saves config verb url path) (writable : files.write path [] = .ok emptied)
    (affordable : config.recursionLimit ≠ 0) (body : Bytes) :
    let run := run network peers files now arguments
    (verb = "get".toList → ∀ target,
      Target.parse (Form.appendQuery url (Form.encode options.params)) = .ok target →
      Client.Serves network (begun config peers emptied now) target
        ((begun config peers emptied now).session.request .get target none) body →
      run.reply = .finished 0 [] [] ∧ run.client.outside.files.content? path = some body) ∧
    (verb = "post".toList → ∀ target sent, Target.parse url = .ok target →
      posted options (begun config peers files now) = .ok sent →
      Client.Serves network (begun config peers files now) target
        ((begun config peers files now).session.attach
          ((begun config peers files now).session.request .post target none) sent
          (some config.contentType)) body →
      Markup.isMarkup (Text.latin1 body) = false →
      run.reply = .finished 0 [] [] ∧
        run.client.outside.files.content? path = some (Text.utf8 (Text.latin1 body))) ∧
    (Text.utf8 (Text.latin1 body) = body ↔ ∀ byte ∈ body, byte.toNat < 128) := by
  intro run
  refine ⟨?_, ?_, Text.utf8_latin1_eq_self_iff⟩
  · rintro rfl target parsed serves
    have beginning : (begun config peers files now).outside.files.write path [] = .ok emptied :=
      writable
    obtain ⟨later, saved, content⟩ := download_of_serves beginning parsed affordable serves
    obtain ⟨reply, outside⟩ := run_of_carryOut? given saves
      ((carryOut?_get saves.path).trans (congrArg some saved))
    exact ⟨reply, outside ▸ content⟩
  · rintro rfl target sent parsed sends serves plain
    let client := begun config peers files now
    obtain ⟨answered, answers, kept⟩ :
        ∃ later, client.postBody network url sent client.session.config.contentType =
          (later, Text.latin1 body) ∧ later.outside.files = client.outside.files :=
      Client.postBody_of_serves parsed affordable serves plain
    obtain ⟨final, written⟩ := Files.exists_write writable (Text.latin1 body).utf8
    have rewritten : answered.outside.files.write path (Text.latin1 body).utf8 = .ok final := by
      rw [kept]
      exact written
    obtain ⟨later, emitted, content⟩ := emit_of_write rewritten
    have carried : carryOut? network options (begun config peers files now) "post".toList url =
        some (later, .finished 0 [] []) := by
      rw [carryOut?_post sends, saves.path, answers]
      exact congrArg some emitted
    obtain ⟨reply, outside⟩ := run_of_carryOut? given saves carried
    exact ⟨reply, outside ▸ content⟩

end

/-! ## A word with an accent -/

namespace Accented

def word : Bytes := [99, 97, 102, 233]

def feed : Feed := [.piece (Text.utf8 "HTTP/1.0 200 OK\r\n\r\n".toList ++ word)]

def network : Network Unit := .steady feed

def page : Target := ⟨.http, "h.com".toList, 80, "/a".toList⟩

def arguments (verb : String) : List Text :=
  [verb, "-url", String.ofList page.url, "-outfile", "o"].map String.toList

def options (verb : String) : Options :=
  ⟨some verb.toList, [(.url, page.url), (.outfile, "o".toList)], [], []⟩

theorem serves {client : Client Unit} {request : Request} {after : Outside Unit}
    (config : client.session.config = .initial)
    (method : request.method = .get ∨ request.method = .post)
    (taken : Outside.Takes network .initial page request client.outside after) :
    Client.Serves network client page request word := by
  let head : Response := ⟨200, "HTTP/1.0 200 OK".toList, [], .unread, false⟩
  let reader : Reader := ⟨[.piece word], .body, Config.initial.timeout, page.url, 0, []⟩
  have read : (Reader.start feed Config.initial.timeout page.url).readHeaded =
      (.ok head, reader) := by decide +kernel
  refine ⟨head, reader, ⟨after, config ▸ taken, ?_⟩, by decide, ?_⟩
  · rw [config, ← read]
    rcases method with same | same <;> rw [same] <;> rfl
  · unfold Client.salvage
    rcases method with same | same <;> rw [same] <;> decide +kernel

private theorem read_get : read (arguments "get") = .options (options "get") := by decide +kernel

theorem read_post : read (arguments "post") = .options (options "post") := by decide +kernel

theorem saves {verb : String} (small : Text.lower verb.toList = verb.toList) :
    (options verb).Saves .initial verb.toList page.url "o".toList :=
  ⟨⟨verb.toList, rfl, small⟩, rfl, rfl, rfl⟩

theorem write_nil : Files.write [] "o".toList [] = .ok [("o".toList, [])] := by decide +kernel

private theorem serves_get :
    let client : Client Unit := begun .initial () [("o".toList, [])] 0
    Client.Serves network client page (client.session.request .get page none) word := by
  intro client
  obtain ⟨after, taken⟩ := Referral.takes_steady feed .initial client.session page none rfl
    client.outside
  exact serves rfl (.inl rfl) taken

theorem serves_post :
    let client : Client Unit := begun .initial () [] 0
    Client.Serves network client page
      (client.session.attach (client.session.request .post page none) (.text [])
        (some Config.initial.contentType)) word :=
  serves rfl (.inr rfl) ⟨_, _, 0, rfl, Prod.ext rfl (by decide +kernel)⟩

end Accented

open Accented (network page word)

/-- Got, the word is in the file as it is. Posted for, it has a byte more there. -/
theorem content?_of_run_of_accent :
    let files (verb : String) :=
      (run network () [] 0 (Accented.arguments verb)).client.outside.files
    read (Accented.arguments "get") = .options (Accented.options "get") ∧
      (Accented.options "get").Saves .initial "get".toList page.url "o".toList ∧
      Files.write [] "o".toList [] = .ok [("o".toList, [])] ∧
      (files "get").content? "o".toList = some word ∧
      (files "post").content? "o".toList = some [99, 97, 102, 195, 169] := by
  intro files
  obtain ⟨gets, -⟩ := content?_of_run network () 0 Accented.read_get
    (Accented.saves (by decide)) Accented.write_nil (by decide) word
  obtain ⟨-, posts, -⟩ := content?_of_run network () 0 Accented.read_post
    (Accented.saves (by decide)) Accented.write_nil (by decide) word
  have loaded := gets rfl page (by decide +kernel) Accented.serves_get
  have saved := posts rfl page (.text []) (by decide +kernel) rfl Accented.serves_post
    (by decide +kernel)
  exact ⟨Accented.read_get, Accented.saves (by decide), Accented.write_nil, loaded.2,
    saved.2.trans (by decide +kernel)⟩

/-- The answer to a post is not always saved as it came. -/
theorem not_content?_of_post :
    ¬ ∀ (network : Network Unit) (files emptied : Files) (arguments : List Text)
      (options : Options) (config : Config) (url path : Text) (target : Target) (sent : Body)
      (body : Bytes),
      read arguments = .options options → options.Saves config "post".toList url path →
      files.write path [] = .ok emptied → config.recursionLimit ≠ 0 →
      Target.parse url = .ok target → posted options (begun config () files 0) = .ok sent →
      Client.Serves network (begun config () files 0) target
        ((begun config () files 0).session.attach
          ((begun config () files 0).session.request .post target none) sent
          (some config.contentType)) body →
      Markup.isMarkup (Text.latin1 body) = false →
      (run network () files 0 arguments).client.outside.files.content? path = some body := by
  intro always
  have kept := always network [] _ (Accented.arguments "post") _ .initial page.url "o".toList page
    (.text []) word Accented.read_post (Accented.saves (by decide)) Accented.write_nil (by decide)
    (by decide +kernel) rfl Accented.serves_post (by decide +kernel)
  have grown : (run network () [] 0 (Accented.arguments "post")).client.outside.files.content?
      "o".toList = some [99, 97, 102, 195, 169] := by decide +kernel
  exact absurd (grown.symm.trans kept) (by decide)

end CommandLine

end WebClient
