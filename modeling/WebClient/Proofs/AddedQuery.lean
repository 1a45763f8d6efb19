import WebClient.Proofs.FormDecode

/-!
# Parameters added to a URL

Parameters are written behind a URL as it was given, while a URL is read without the blanks
around it and up to its fragment. Where this makes them the query of the target.
-/

set_option autoImplicit false

namespace WebClient

namespace Form

/-! ## What is written -/

def isWritten (c : Char) : Bool :=
  c.isAlphanum || "-_.*+%=&".toList.contains c

private theorem isWritten_hexDigit {value : Nat} (small : value < 16) :
    isWritten (hexDigit value) = true := by
  revert value
  decide

theorem Writes.isWritten {byte : UInt8} {written : Text} (writes : Writes byte written) :
    ∀ c ∈ written, isWritten c = true := by
  cases writes with
  | plain own =>
    rw [List.forall_mem_singleton]
    rcases own with letter | mark
    · simp [Form.isWritten, letter]
    · exact List.all_eq_true.1 (by decide : "-_.*".toList.all Form.isWritten) _ mark
  | space => exact List.all_eq_true.1 (by decide)
  | escape small alsoSmall =>
    simp only [List.forall_mem_cons, List.not_mem_nil, false_implies, implies_true, and_true]
    exact ⟨by decide, isWritten_hexDigit small, isWritten_hexDigit alsoSmall⟩

private theorem isWritten_of_mem_encodeComponent {text : Text} :
    ∀ c ∈ encodeComponent text, isWritten c = true := by
  intro c member
  obtain ⟨byte, -, listed⟩ := List.mem_flatMap.1 member
  exact (writes_encodeByte byte).isWritten c listed

private theorem isWritten_of_mem_encode (params : Params) :
    ∀ c ∈ encode params, isWritten c = true := by
  have pair (param : Text × Text) : ∀ c ∈ encodeComponent param.1 ++ '=' :: encodeComponent param.2,
      isWritten c = true := by
    rw [List.forall_mem_append, List.forall_mem_cons]
    exact ⟨isWritten_of_mem_encodeComponent, by decide, isWritten_of_mem_encodeComponent⟩
  unfold encode
  induction params with
  | nil => simp
  | cons param params ih =>
    cases params with
    | nil =>
      rw [List.map_singleton, List.intercalate_singleton]
      exact pair param
    | cons next params =>
      rw [List.map_cons, List.map_cons, List.intercalate_cons_cons, List.forall_mem_append,
        List.forall_mem_append]
      exact ⟨⟨pair param, List.all_eq_true.1 (by decide)⟩, ih⟩

private theorem encode_ne_nil {params : Params} (nonempty : params ≠ []) : encode params ≠ [] := by
  obtain ⟨param, params, rfl⟩ := List.exists_cons_of_ne_nil nonempty
  cases params with
  | nil => simp [encode]
  | cons next params => simp [encode, List.intercalate_cons_cons]

private theorem solid_of_isWritten {c : Char} (written : isWritten c = true) :
    Text.isBlank c = false ∧ c ≠ '#' ∧ c ≠ ';' := by
  rw [isWritten, Bool.or_eq_true] at written
  rcases written with letter | mark
  · refine ⟨Text.isBlank_of_isAlphanum letter, ?_, ?_⟩
    all_goals
      rintro rfl
      cases letter
  · have solid : "-_.*+%=&".toList.all fun c => !Text.isBlank c && c != '#' && c != ';' := by decide
    simpa [and_assoc] using List.all_eq_true.1 solid c (by simpa using mark)

def separator (text : Text) : Char :=
  if '?' ∈ text then '&' else '?'

def added (url : Text) (params : Params) : Text :=
  separator url :: encode params

private theorem appendQuery_encode {params : Params} (nonempty : params ≠ []) (url : Text) :
    appendQuery url (encode params) = url ++ added url params := by
  rw [appendQuery, if_neg (by simpa using encode_ne_nil nonempty), added, separator]
  split <;> rfl

theorem solid_of_mem_added {url : Text} {params : Params} :
    ∀ c ∈ added url params, Text.isBlank c = false ∧ c ≠ '#' ∧ c ≠ ';' := by
  refine List.forall_mem_cons.2 ⟨?_, fun c member => ?_⟩
  · unfold separator
    split <;> decide
  · exact solid_of_isWritten (isWritten_of_mem_encode params c member)

private theorem isEnded_added (url : Text) (params : Params) : (added url params).IsEnded :=
  Text.isEnded_of_solid fun c member => (solid_of_mem_added c member).1

theorem not_mem_added (url : Text) (params : Params) :
    '#' ∉ added url params ∧ ';' ∉ added url params :=
  ⟨fun member => (solid_of_mem_added _ member).2.1 rfl,
    fun member => (solid_of_mem_added _ member).2.2 rfl⟩

end Form

namespace Target

open Form

variable {url authority tail : Text} {target : Target}

/-! ## Where it is found -/

structure IsBreak (c : Char) : Prop where
  foreign : isSchemeChar c = false
  apart : c ∉ "://".toList
  unescaped : c ∉ "amp;".toList

private theorem isBreak_of_isBlank {c : Char} (blank : Text.isBlank c = true) : IsBreak c := by
  have other {text : Text} (solid : text.any Text.isBlank = false) : c ∉ text :=
    fun member => List.any_eq_false.1 solid c member blank
  refine ⟨Bool.eq_false_iff.2 fun plain => ?_, other (by decide), other (by decide)⟩
  exact Text.ne_of_isBlank blank (isBlank_of_isSchemeChar plain) rfl

private theorem isBreak_separator (text : Text) : IsBreak (separator text) := by
  unfold separator
  split <;> exact ⟨by decide, by decide, by decide⟩

theorem Parts.mem_tail_iff (parts : Parts url authority tail target) {mark : Char}
    (separates : IsBreak mark) (solid : Text.isBlank mark = false) (outside : mark ∉ authority) :
    mark ∈ tail ↔ mark ∈ url := by
  calc mark ∈ tail
    _ ↔ mark ∈ authority ++ tail := by rw [List.mem_append, or_iff_right outside]
    _ ↔ mark ∈ unescape (Text.trim url) :=
      (mem_iff_of_schemeAndRest? separates.foreign separates.apart parts.named).symm
    _ ↔ mark ∈ Text.trim url := mem_unescape_iff separates.unescaped
    _ ↔ mark ∈ url := Text.mem_trim_iff solid

theorem Parts.fragment_iff (parts : Parts url authority tail target) : '#' ∈ tail ↔ '#' ∈ url :=
  parts.mem_tail_iff ⟨by decide, by decide, by decide⟩ (by decide)
    (isAuthority_iff.1 parts.uninterrupted).1

theorem Parts.query_iff (parts : Parts url authority tail target) : '?' ∈ tail ↔ '?' ∈ url :=
  parts.mem_tail_iff ⟨by decide, by decide, by decide⟩ (by decide)
    (isAuthority_iff.1 parts.uninterrupted).2.2

variable {params : Params}

private theorem exists_isBreak (url : Text) (params : Params) :
    ∃ mark rest, Text.trailing url ++ added url params = mark :: rest ∧ IsBreak mark := by
  cases blanks : Text.trailing url with
  | nil => exact ⟨_, _, rfl, isBreak_separator url⟩
  | cons mark rest =>
    have member : mark ∈ Text.trailing url := blanks ▸ .head _
    exact ⟨mark, _, rfl, isBreak_of_isBlank (Text.isBlank_of_mem_trailing member)⟩

/-- What is added is found behind the blanks at the end of the URL, which are then inside. -/
theorem Parts.schemeAndRest?_added (parts : Parts url authority tail target) (params : Params) :
    schemeAndRest? (unescape (Text.trim (url ++ added url params))) =
      some (target.scheme, authority ++ (tail ++ (Text.trailing url ++ added url params))) := by
  have occupied : Text.trim url ≠ [] := by
    intro empty
    obtain ⟨host, split, -⟩ := parts.split
    have named := parts.named
    rw [empty] at named
    have none : authority ++ tail = [] := (Prod.mk.inj (Option.some.inj named)).2.symm
    exact authority_ne_nil split (List.append_eq_nil_iff.1 none).1
  have trimmed : Text.trim (url ++ added url params) =
      Text.trim url ++ (Text.trailing url ++ added url params) :=
    Text.trim_append_cons occupied (isEnded_added url params)
  have unescaped : ';' ∉ Text.trailing url ++ added url params :=
    List.not_mem_append (Text.not_mem_trailing (by decide)) (not_mem_added url params).2
  obtain ⟨mark, rest, shape, separates⟩ := exists_isBreak url params
  rw [shape] at trimmed unescaped ⊢
  rw [trimmed, unescape_append_cons separates.unescaped, unescape_of_not_mem unescaped,
    schemeAndRest?_append_cons separates.foreign separates.apart, parts.named]
  exact congrArg (fun after => some (target.scheme, after)) (List.append_assoc _ _ _)

/-- What is added is part of what follows the authority, unless it becomes part of it. -/
theorem Parts.append (parts : Parts url authority tail target)
    (follows : IsTail (tail ++ (Text.trailing url ++ added url params))) :
    Parts (url ++ added url params) authority (tail ++ (Text.trailing url ++ added url params))
      { target with
        path := rooted (Text.before '#' (tail ++ (Text.trailing url ++ added url params))) } :=
  ⟨parts.schemeAndRest?_added params, parts.uninterrupted, follows, parts.split, rfl⟩

theorem IsTail.append (follows : IsTail tail) (nonempty : tail ≠ []) (rest : Text) :
    IsTail (tail ++ rest) := by
  obtain ⟨first, more, rfl⟩ := List.exists_cons_of_ne_nil nonempty
  exact follows

private theorem rooted_append (nonempty : tail ≠ []) (rest : Text) :
    rooted (tail ++ rest) = rooted tail ++ rest := by
  obtain ⟨first, more, rfl⟩ := List.exists_cons_of_ne_nil nonempty
  by_cases query : first = '?'
  · rw [query]
    rfl
  · have same (text : Text) : rooted (first :: text) = first :: text := by
      rw [rooted]
      · exact List.cons_ne_nil _ _
      · exact fun _ marked => query (List.cons.inj marked).1
    rw [List.cons_append, same, same, List.cons_append]

/-- The fragment of a URL takes in what is added to it. -/
theorem Parts.parse_added_of_fragment (parts : Parts url authority tail target)
    (fragment : '#' ∈ tail) : parse (url ++ added url params) = .ok target := by
  have follows := parts.follows.append (List.ne_nil_of_mem fragment)
  have same (rest : Text) : Text.before '#' (tail ++ rest) = Text.before '#' tail := by
    obtain ⟨front, back, rfl⟩ := List.append_of_mem fragment
    rw [List.append_assoc, List.cons_append, Text.before_append_mark, Text.before_append_mark]
  rw [(parts.append (follows _)).parse_eq, same, ← parts.path]

theorem Parts.separator_eq (parts : Parts url authority tail target) (whole : '#' ∉ tail) :
    separator url = separator target.path := by
  have kept : '?' ∈ target.path ↔ '?' ∈ url := by
    rw [parts.path, mem_rooted_iff (by decide), Text.before_eq_self whole, parts.query_iff]
  simp only [separator, kept]

/-- Without a fragment, a path or a query takes in the blanks at the end of the URL and what
is added behind them. -/
theorem Parts.parse_added_of_whole (parts : Parts url authority tail target)
    (whole : '#' ∉ tail) (begun : tail ≠ [] ∨ url.IsEnded) :
    parse (url ++ added url params) =
      .ok { target with path := target.path ++ (Text.trailing url ++ added url params) } := by
  have placed : IsTail (tail ++ (Text.trailing url ++ added url params)) ∧
      rooted (tail ++ (Text.trailing url ++ added url params)) =
        rooted tail ++ (Text.trailing url ++ added url params) := by
    by_cases bare : tail = []
    · have unasked : '?' ∉ url := by simp [← parts.query_iff, bare]
      have query : added url params = '?' :: encode params := by
        rw [added, separator, if_neg unasked]
      rw [bare, Text.trailing_eq_nil_iff.2 (begun.resolve_left (not_not_intro bare)), query]
      exact ⟨isTail_cons rfl _, rfl⟩
    · exact ⟨parts.follows.append bare _, rooted_append bare _⟩
  have absent : '#' ∉ tail ++ (Text.trailing url ++ added url params) :=
    List.not_mem_append whole
      (List.not_mem_append (Text.not_mem_trailing (by decide)) (not_mem_added _ _).1)
  rw [(parts.append placed.1).parse_eq, Text.before_eq_self absent, placed.2, parts.path,
    Text.before_eq_self whole]

/-- Behind a host that no path follows, a blank comes to stand in the authority. -/
theorem Parts.parse_added_of_bare (parts : Parts url authority tail target)
    (bare : tail = []) (blank : ¬ url.IsEnded) (other : Target) :
    parse (url ++ added url params) ≠ .ok other := by
  have unasked : '?' ∉ url := by simp [← parts.query_iff, bare]
  have named := parts.schemeAndRest?_added params
  rw [bare, List.nil_append, ← List.append_assoc, added, separator, if_neg unasked] at named
  have uninterrupted : IsAuthority (authority ++ Text.trailing url) :=
    List.forall_mem_append.2 ⟨parts.uninterrupted,
      isAuthority_iff.2 ⟨Text.not_mem_trailing (by decide), Text.not_mem_trailing (by decide),
        Text.not_mem_trailing (by decide)⟩⟩
  rw [ne_eq, parse_eq_ok_iff, added, separator, if_neg unasked,
    ofClean?_of_named named uninterrupted (isTail_cons rfl _)]
  intro accepted
  obtain ⟨⟨host, port⟩, split, -⟩ := Option.map_eq_some_iff.1 accepted
  have ended := Text.IsEnded.of_append authority (isEnded_of_hostAndPort? split)
  exact blank (Text.isEnded_of_isEnded_trailing ended)

/-- Parameters that are added to a URL are the query of its target, or the rest of it, exactly
if the URL has neither a fragment nor a blank at its end. A fragment takes them in. -/
theorem parse_appendQuery_iff (accepted : parse url = .ok target) (nonempty : params ≠ []) :
    ('#' ∈ url → parse (appendQuery url (encode params)) = .ok target) ∧
      (parse (appendQuery url (encode params)) =
          .ok { target with path := target.path ++ separator target.path :: encode params } ↔
        '#' ∉ url ∧ url.IsEnded) := by
  obtain ⟨authority, tail, parts⟩ := exists_parts_of_parse accepted
  rw [appendQuery_encode nonempty, ← parts.fragment_iff]
  refine ⟨parts.parse_added_of_fragment, fun placed => ?_, fun ⟨whole, ended⟩ => ?_⟩
  · have whole : '#' ∉ tail := by
      intro lost
      rw [parts.parse_added_of_fragment lost] at placed
      have path := congrArg Target.path (Except.ok.inj placed)
      exact List.cons_ne_nil _ _ (List.self_eq_append_right.1 path)
    refine ⟨whole, ?_⟩
    by_contra blank
    by_cases bare : tail = []
    · exact parts.parse_added_of_bare bare blank _ placed
    · rw [parts.parse_added_of_whole whole (.inl bare), added, parts.separator_eq whole] at placed
      have path := congrArg Target.path (Except.ok.inj placed)
      have none := List.append_left_eq_self.1 (List.append_cancel_left path)
      exact blank (Text.trailing_eq_nil_iff.1 none)
  · rw [parts.parse_added_of_whole whole (.inr ended), Text.trailing_eq_nil_iff.2 ended, added,
      parts.separator_eq whole]
    rfl

theorem parse_appendQuery_iff_of_query :
    parse "http://h.com/a?b".toList = .ok ⟨.http, "h.com".toList, 80, "/a?b".toList⟩ ∧
      parse (appendQuery "http://h.com/a?b".toList (encode [("x y".toList, "&".toList)])) =
        .ok ⟨.http, "h.com".toList, 80, "/a?b&x+y=%26".toList⟩ := by
  have accepted : parse "http://h.com/a?b".toList =
      .ok ⟨.http, "h.com".toList, 80, "/a?b".toList⟩ := by decide
  have ended : Text.IsEnded "http://h.com/a?b".toList := by
    rintro c ⟨⟩
    decide
  exact ⟨accepted, (parse_appendQuery_iff accepted (by decide)).2.2 ⟨by decide, ended⟩⟩

/-- The parameters are dropped with the fragment. -/
theorem not_parse_appendQuery_of_fragment :
    parse "http://h.com/a#top".toList = .ok ⟨.http, "h.com".toList, 80, "/a".toList⟩ ∧
      parse (appendQuery "http://h.com/a#top".toList (encode [("x".toList, "1".toList)])) ≠
        .ok ⟨.http, "h.com".toList, 80, "/a?x=1".toList⟩ := by
  decide

end Target

end WebClient
