import WebClient.Proofs.Lines
import WebClient.Proofs.Trimming
import WebClient.Session

/-!
# The head of a request for a page

Which lines a receiver reads. The host of a target has no blanks, so a head is
read as it was meant unless there are line endings in a path.
-/

set_option autoImplicit false

namespace WebClient

namespace Text

private theorem isUnbroken_of_isBlank {text : Text} (solid : ∀ c ∈ text, isBlank c = false) :
    IsUnbroken text :=
  ⟨fun member => absurd (solid _ member) (by decide),
    fun member => absurd (solid _ member) (by decide)⟩

theorem isDigit_of_mem_ofNat {value : Nat} {c : Char} (member : c ∈ ofNat value) :
    c.isDigit = true :=
  Nat.isDigit_of_mem_toDigits (by decide) (by decide) member

theorem isUnbroken_ofNat (value : Nat) : IsUnbroken (ofNat value) :=
  ⟨fun member => absurd (isDigit_of_mem_ofNat member) (by decide),
    fun member => absurd (isDigit_of_mem_ofNat member) (by decide)⟩

end Text

namespace Base64

private theorem isUnbroken_digit (value : Nat) : digit value ≠ '\r' ∧ digit value ≠ '\n' := by
  have bound : value % 64 < 64 := Nat.mod_lt _ (by decide)
  have all : ∀ six < 64, alphabet.getD six '=' ≠ '\r' ∧ alphabet.getD six '=' ≠ '\n' := by
    decide +kernel
  exact all _ bound

private theorem isUnbroken_encode (bytes : Bytes) : Text.IsUnbroken (encode bytes) := by
  fun_induction encode bytes with
  | case1 => simp
  | case2 a => simp [isUnbroken_digit]
  | case3 a b => simp [isUnbroken_digit]
  | case4 a b c rest ih => simp [isUnbroken_digit, ih]

end Base64

namespace Target

theorem isBlank_of_mem_host {url : Text} {target : Target} (accepted : parse url = .ok target) :
    ∀ c ∈ target.host, Text.isBlank c = false := by
  obtain ⟨scheme, after, host, port, -, split, rfl⟩ := exists_of_parse accepted
  unfold hostAndPort? at split
  obtain ⟨-, named⟩ := Option.filter_eq_some_iff.1 split
  simp only [Bool.and_eq_true, Bool.not_eq_true', List.any_eq_false, Bool.not_eq_true] at named
  intro c member
  obtain ⟨letter, written, rfl⟩ := List.mem_map.1 member
  rw [Text.isBlank_toLower]
  exact named.2 letter written

end Target

namespace Target

theorem isUnbroken_authority {url : Text} {target : Target}
    (accepted : parse url = .ok target) : target.authority.IsUnbroken := by
  have host := Text.isUnbroken_of_isBlank (isBlank_of_mem_host accepted)
  unfold authority
  split
  · exact host
  · simpa [host] using Text.isUnbroken_ofNat _

/-- In the URL of a target only the path may have line endings. -/
theorem isUnbroken_url_iff {url : Text} {target : Target} (accepted : parse url = .ok target) :
    target.url.IsUnbroken ↔ target.path.IsUnbroken := by
  have name : target.scheme.name.IsUnbroken := by cases target.scheme <;> decide
  have mark : Text.IsUnbroken "://".toList := by decide
  simp only [Target.url, origin, Text.isUnbroken_append, name, mark,
    isUnbroken_authority accepted, true_and]

end Target

namespace Config

structure IsClean (config : Config) : Prop where
  userAgent : config.userAgent.IsUnbroken
  accept : config.accept.IsUnbroken
  extraFields : ∀ field ∈ config.extraFields, field.1.IsUnbroken ∧ field.2.IsUnbroken

/-- The names of the fields that a configuration calls for on a request for a page. -/
def fieldNames (config : Config) (isReferred : Bool) : List Text :=
  ["Connection".toList]
    ++ (if config.sendReferer && isReferred then ["Referer".toList] else [])
    ++ (if config.sendUserAgent then ["User-Agent".toList] else [])
    ++ (if config.sendHost then ["Host".toList] else [])
    ++ (if config.sendAccept then ["Accept".toList] else [])
    ++ (if config.basicAuth.isSome then ["Authorization".toList] else [])
    ++ config.extraFields.map Prod.fst

end Config

namespace Request

private theorem forall_mem_optional {name : String} {value : Option Text} {P : Text × Text → Prop} :
    (∀ field ∈ optional name value, P field) ↔ ∀ text ∈ value, P (name.toList, text) := by
  cases value <;> simp [optional]

private theorem map_fst_optional (name : String) (value : Option Text) :
    (optional name value).map Prod.fst = if value.isSome then [name.toList] else [] := by
  cases value <;> rfl

theorem isUnbroken_headLines_iff {request : Request} :
    (∀ line ∈ request.headLines, line.IsUnbroken) ↔
      request.requestLine.IsUnbroken ∧
        ∀ field ∈ request.fields, field.1.IsUnbroken ∧ field.2.IsUnbroken := by
  have mark : Text.IsUnbroken ": ".toList := by decide
  simp only [headLines, List.forall_mem_cons, List.forall_mem_map, Text.isUnbroken_append, mark,
    and_true]

theorem isUnbroken_requestLine_iff {request : Request} :
    request.requestLine.IsUnbroken ↔ request.target.IsUnbroken := by
  have verb : request.method.verb.IsUnbroken := by cases request.method <;> decide
  unfold requestLine
  split <;> simp [verb]

private theorem requestLine_ne_nil (request : Request) : request.requestLine ≠ [] := by
  cases verb : request.method <;> simp [requestLine, verb, Method.verb]

theorem headLines_ne_nil (request : Request) : ∀ line ∈ request.headLines, line ≠ [] := by
  simp only [headLines, List.forall_mem_cons, List.forall_mem_map]
  refine ⟨requestLine_ne_nil request, fun field _ => ?_⟩
  simp

def named (name : String) (fields : List (Text × Text)) : List (Text × Text) :=
  fields.filter fun field => field.1 == name.toList

theorem named_append (name : String) (early late : List (Text × Text)) :
    named name (early ++ late) = named name early ++ named name late :=
  List.filter_append early late

theorem named_optional_self (name : String) (value : Option Text) :
    named name (optional name value) = optional name value := by
  cases value <;> simp [named, optional]

theorem named_optional_of_ne {name other : String} (apart : other.toList ≠ name.toList)
    (value : Option Text) : named name (optional other value) = [] := by
  cases value <;> simp [named, optional, apart]

/-- A name that no fixed field has but the referer is found among the further fields. -/
theorem named_fields {request : Request} (whole : request.method ≠ .shortGet) {name : String}
    (apart : ∀ fixed ∈ ["Connection", "User-Agent", "Host", "Accept", "Content-type",
      "Content-encoding", "Authorization", "Content-length"], fixed.toList ≠ name.toList) :
    named name request.fields =
      named name (optional "Referer" request.referer) ++ named name request.extra := by
  simp only [List.forall_mem_cons] at apart
  obtain ⟨connection, agent, host, accept, type, encoding, token, length, -⟩ := apart
  have first (value : Text) : named name [("Connection".toList, value)] = [] :=
    named_optional_of_ne connection (some value)
  unfold fields
  split
  · contradiction
  · simp only [named_append, first, named_optional_of_ne agent, named_optional_of_ne host,
      named_optional_of_ne accept, named_optional_of_ne type, named_optional_of_ne encoding,
      named_optional_of_ne token, named_optional_of_ne length, List.nil_append, List.append_nil]

theorem named_referer_fields {request : Request} (whole : request.method ≠ .shortGet) :
    named "Referer" request.fields =
      optional "Referer" request.referer ++ named "Referer" request.extra := by
  rw [named_fields whole (by decide), named_optional_self]

theorem named_cookie_fields {request : Request} (whole : request.method ≠ .shortGet) :
    named "Cookie" request.fields = named "Cookie" request.extra := by
  rw [named_fields whole (by decide), named_optional_of_ne (by decide), List.nil_append]

end Request

namespace Session

private theorem cookieField?_of_empty {session : Session}
    (empty : ∀ jar ∈ session.jar, jar.cookies = [])
    (target : Target) : session.cookieField? target = none := by
  unfold cookieField?
  cases stored : session.jar with
  | none => rfl
  | some jar =>
    have none : jar.cookies = [] := empty jar (by rw [stored]; rfl)
    simp [Jar.field?, Jar.sentTo, none]

theorem fields_request (session : Session) (target : Target) (referer : Option Text)
    (empty : ∀ jar ∈ session.jar, jar.cookies = []) :
    (session.request .get target referer).fields =
      [("Connection".toList,
        if session.config.keepAlive then "Keep-Alive".toList else "close".toList)]
      ++ Request.optional "Referer" (if session.config.sendReferer then referer else none)
      ++ Request.optional "User-Agent"
        (if session.config.sendUserAgent then some session.config.userAgent else none)
      ++ Request.optional "Host"
        (if session.config.sendHost then some target.authority else none)
      ++ Request.optional "Accept"
        (if session.config.sendAccept then some session.config.accept else none)
      ++ Request.optional "Authorization" (session.config.basicAuth.map fun (user, password) =>
        "Basic ".toList ++ credentials user password)
      ++ session.config.extraFields := by
  have cookies : Request.optional "Cookie" (session.cookieField? target) = [] := by
    rw [cookieField?_of_empty empty target]
    rfl
  have token : (session.config.basicAuth.map fun (user, password) =>
      credentials user password).map ("Basic ".toList ++ ·) =
        session.config.basicAuth.map fun (user, password) =>
          "Basic ".toList ++ credentials user password := by
    cases session.config.basicAuth <;> rfl
  simp only [request, Request.fields, Request.plain, cookies, token, List.append_nil]
  simp only [Request.optional, Body.length?, Option.map_none, Option.toList_none, List.append_nil]

private theorem isSome_ite (flag : Bool) (value : Option Text) :
    (if flag then value else none).isSome = (flag && value.isSome) := by
  cases flag <;> rfl

private theorem forall_mem_ite {flag : Bool} {value : Option Text} {P : Text → Prop} :
    (∀ text ∈ if flag then value else none, P text) ↔ (flag = true → ∀ text ∈ value, P text) := by
  cases flag <;> simp

private theorem fieldNames_request (session : Session) (target : Target) (referer : Option Text)
    (empty : ∀ jar ∈ session.jar, jar.cookies = []) :
    (session.request .get target referer).fields.map Prod.fst =
      session.config.fieldNames referer.isSome := by
  rw [fields_request session target referer empty]
  simp only [List.map_append, Request.map_fst_optional, Config.fieldNames, Option.isSome_map,
    isSome_ite, Option.isSome_some, Bool.and_true, List.map_cons, List.map_nil]

theorem isUnbroken_requestTarget_iff (config : Config) {target : Target} {url : Text}
    (accepted : Target.parse url = .ok target) :
    (requestTarget config target).IsUnbroken ↔ target.path.IsUnbroken := by
  unfold requestTarget
  split
  · exact Target.isUnbroken_url_iff accepted
  · rfl

/-- In a request that a clean configuration makes for a page, only the path and the
referer may have line endings. -/
theorem isUnbroken_request_iff {session : Session} {target : Target} {url : Text}
    (accepted : Target.parse url = .ok target) (referer : Option Text)
    (clean : session.config.IsClean) (empty : ∀ jar ∈ session.jar, jar.cookies = []) :
    (∀ line ∈ (session.request .get target referer).headLines, line.IsUnbroken) ↔
      target.path.IsUnbroken ∧
        (session.config.sendReferer = true → ∀ text ∈ referer, text.IsUnbroken) := by
  rw [Request.isUnbroken_headLines_iff, fields_request session target referer empty]
  simp only [List.forall_mem_append, Request.forall_mem_optional, forall_mem_ite]
  constructor
  · rintro ⟨line, ⟨⟨⟨⟨⟨⟨-, referred⟩, -⟩, -⟩, -⟩, -⟩, -⟩⟩
    rw [Request.isUnbroken_requestLine_iff] at line
    exact ⟨(isUnbroken_requestTarget_iff _ accepted).1 line,
      fun sends text cited => (referred sends text cited).2⟩
  · rintro ⟨path, referred⟩
    have line := (isUnbroken_requestTarget_iff session.config accepted).2 path
    refine ⟨Request.isUnbroken_requestLine_iff.2 line, ⟨⟨⟨⟨⟨⟨?_, ?_⟩, ?_⟩, ?_⟩, ?_⟩, ?_⟩, ?_⟩⟩
    · cases session.config.keepAlive <;> decide
    · exact fun sends text cited => ⟨by decide, referred sends text cited⟩
    · rintro - text ⟨⟩
      exact ⟨by decide, clean.userAgent⟩
    · rintro - text ⟨⟩
      exact ⟨by decide, Target.isUnbroken_authority accepted⟩
    · rintro - text ⟨⟩
      exact ⟨by decide, clean.accept⟩
    · intro text given
      obtain ⟨⟨user, password⟩, -, rfl⟩ := Option.map_eq_some_iff.1 given
      have scheme : Text.IsUnbroken "Basic ".toList := by decide
      exact ⟨by decide, Text.isUnbroken_append.2 ⟨scheme, Base64.isUnbroken_encode _⟩⟩
    · exact clean.extraFields

/-- The head of a request for a page is read as the request line, one line for each
field that the configuration calls for and a blank line, exactly if no path in it
has a line ending. -/
theorem split_head_request_iff {session : Session} {target : Target} {url : Text}
    (accepted : Target.parse url = .ok target) (ending : LineEnding) (referrer : Option Target)
    (cited : ∀ page ∈ referrer, ∃ source, Target.parse source = .ok page)
    (clean : session.config.IsClean) (empty : ∀ jar ∈ session.jar, jar.cookies = []) :
    let request := session.request .get target (referrer.map Target.url)
    request.fields.map Prod.fst = session.config.fieldNames referrer.isSome ∧
      (∀ line ∈ request.headLines, line ≠ []) ∧
      (Lines.split (request.head ending) = (request.headLines.map Text.utf8 ++ [[]], []) ↔
        target.path.IsUnbroken ∧
          (session.config.sendReferer = true → ∀ page ∈ referrer, page.path.IsUnbroken)) := by
  intro request
  refine ⟨?_, request.headLines_ne_nil, ?_⟩
  · rw [fieldNames_request session target _ empty, Option.isSome_map]
  · rw [Request.split_head_iff, isUnbroken_request_iff accepted _ clean empty]
    refine and_congr_right fun _ => forall_congr' fun _ => ?_
    cases referrer with
    | none => simp
    | some page =>
      obtain ⟨source, parsed⟩ := cited page rfl
      simpa using Target.isUnbroken_url_iff parsed

theorem split_head_request_of_plain :
    let session := Session.start .initial [] 0
    let page : Target := ⟨.http, "h.com".toList, 80, "/a".toList⟩
    let request := session.request .get page (some page.url)
    Lines.split (request.head .crlf) = (request.headLines.map Text.utf8 ++ [[]], []) := by
  have accepted : Target.parse "http://h.com/a".toList =
      .ok ⟨.http, "h.com".toList, 80, "/a".toList⟩ := by decide +kernel
  have clean : (Session.start .initial [] 0).config.IsClean :=
    ⟨by decide, by decide, fun field member => by cases member⟩
  have empty : ∀ jar ∈ (Session.start .initial [] 0).jar, jar.cookies = [] := by
    rintro jar ⟨⟩
    rfl
  have unbroken : Text.IsUnbroken "/a".toList := by decide
  refine (split_head_request_iff accepted .crlf (some _) ?_ clean empty).2.2.2 ?_
  · rintro page ⟨⟩
    exact ⟨_, accepted⟩
  · exact ⟨unbroken, fun _ page same => by cases same; exact unbroken⟩

/-- A URL with line endings inside adds a field, and ends the head early. -/
theorem split_head_request_of_broken :
    ∃ target, Target.parse "http://h.com/a HTTP/1.0\r\nX-Evil: 1\r\n\r\nz".toList = .ok target ∧
      (Lines.split (((Session.start .initial [] 0).request .get target none).head .crlf)).1 =
        ["GET /a HTTP/1.0", "X-Evil: 1", "", "z HTTP/1.0", "Connection: close",
          "User-Agent: Sonda/0.1.0", "Host: h.com", "Accept: */*", ""].map
            fun line => Text.utf8 line.toList :=
  ⟨⟨.http, "h.com".toList, 80, "/a HTTP/1.0\r\nX-Evil: 1\r\n\r\nz".toList⟩, by decide +kernel,
    by decide +kernel⟩

end Session

end WebClient
