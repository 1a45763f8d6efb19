import WebClient.Proofs.UrlParts

/-!
# The normal form of a URL

What is certain of a target that was read, and when the URL that is written for it is read
as the same target again.
-/

set_option autoImplicit false

namespace WebClient.Target

structure IsNormal (target : Target) : Prop where
  nonempty : target.host ≠ []
  lower : Text.lower target.host = target.host
  solid : ∀ c ∈ target.host, Text.isBlank c = false
  plain : '/' ∉ target.host ∧ '?' ∉ target.host ∧ '#' ∉ target.host ∧ '@' ∉ target.host
  rooted : ∃ rest, target.path = '/' :: rest
  whole : '#' ∉ target.path

/-- A target whose URL is read as it was written. A port that is the scheme's own is not
written, so that the last colon of the host would be taken for the mark of a port. -/
structure IsStable (target : Target) : Prop where
  unescaped : ¬ escape <:+: target.url
  ended : target.url.IsEnded
  port : ':' ∉ target.host ∨ target.port ≠ target.scheme.defaultPort

variable {target : Target} {text : Text}

theorem isNormal_of_parse (accepted : parse text = .ok target) : IsNormal target := by
  obtain ⟨authority, tail, parts⟩ := exists_parts_of_parse accepted
  obtain ⟨host, split, folded⟩ := parts.split
  obtain ⟨address, last, plain, names, nonempty, solid⟩ := exists_names split
  have within : host ⊆ authority := List.Subset.trans names.host_prefix.subset last.subset
  obtain ⟨fragment, slash, query⟩ := isAuthority_iff.1 parts.uninterrupted
  have absent {mark : Char} (caseless : mark.isLower = false) (free : mark ∉ host) :
      mark ∉ target.host :=
    fun member => free (Text.mem_of_mem_lower caseless (folded ▸ member))
  refine ⟨?_, ?_, isBlank_of_mem_host accepted, ⟨?_, ?_, ?_, ?_⟩, ?_, ?_⟩
  · simpa [folded, Text.lower] using nonempty
  · rw [folded, Text.lower_lower]
  · exact absent (by decide) fun member => slash (within member)
  · exact absent (by decide) fun member => query (within member)
  · exact absent (by decide) fun member => fragment (within member)
  · exact absent (by decide) fun member => plain (names.host_prefix.subset member)
  · rw [parts.path]
    exact exists_rooted_before_eq_cons parts.follows
  · rw [parts.path, mem_rooted_iff (by decide)]
    exact Text.not_mem_before '#' tail

/-! ## The URL of a target -/

theorem not_mem_authority {mark : Char} (absent : mark ∉ target.host) (apart : mark ≠ ':')
    (other : mark.isDigit = false) : mark ∉ target.authority := by
  unfold authority
  split
  · exact absent
  · exact List.not_mem_append absent
      (List.not_mem_cons_of_ne_of_not_mem apart (Text.not_mem_ofNat other _))

theorem IsNormal.isAuthority_unescape (normal : IsNormal target) :
    IsAuthority (unescape target.authority) := by
  obtain ⟨slash, query, fragment, -⟩ := normal.plain
  rw [isAuthority_iff]
  refine ⟨fun member => ?_, fun member => ?_, fun member => ?_⟩
  · exact not_mem_authority fragment (by decide) (by decide) (subset_unescape _ member)
  · exact not_mem_authority slash (by decide) (by decide) (subset_unescape _ member)
  · exact not_mem_authority query (by decide) (by decide) (subset_unescape _ member)

theorem IsNormal.plain_authority (normal : IsNormal target) : '@' ∉ target.authority :=
  not_mem_authority normal.plain.2.2.2 (by decide) (by decide)

theorem unescape_origin_append (target : Target) (rest : Text) :
    unescape (target.origin ++ '/' :: rest) =
      target.scheme.name ++ "://".toList ++
        (unescape target.authority ++ '/' :: unescape rest) := by
  have slash : '/' ∉ "amp;".toList := by decide
  have front : target.origin = target.scheme.name ++ ":/".toList ++ '/' :: target.authority := by
    simp [origin]
  have name : unescape (target.scheme.name ++ ":/".toList) = target.scheme.name ++ ":/".toList := by
    cases target.scheme <;> rfl
  rw [unescape_append_cons slash, front, unescape_append_cons slash, name,
    unescape_cons (by decide), unescape_cons (by decide)]
  simp

private theorem trim_origin_append (target : Target) (rest : Text) :
    Text.trim (target.origin ++ '/' :: rest) = target.origin ++ '/' :: Text.trimEnd rest := by
  have begun (more : Text) : Text.trimStart (target.origin ++ more) = target.origin ++ more := by
    rw [origin]
    cases target.scheme <;> exact Text.trimStart_cons (by decide) _
  rw [Text.trim, begun, Text.trimEnd_append_cons _ (by decide)]

theorem IsNormal.exists_url (normal : IsNormal target) :
    ∃ rest, target.path = '/' :: rest ∧ target.url = target.origin ++ '/' :: rest := by
  obtain ⟨rest, path⟩ := normal.rooted
  exact ⟨rest, path, by rw [url, path]⟩

/-- A path behind the origin of a target leaves the authority where it is. -/
theorem IsNormal.ofClean?_origin_append (normal : IsNormal target) (rest : Text) :
    ofClean? (unescape (Text.trim (target.origin ++ '/' :: rest))) =
      (hostAndPort? target.scheme (unescape target.authority)).map fun (host, port) =>
        ⟨target.scheme, Text.lower host, port,
          '/' :: Text.before '#' (unescape (Text.trimEnd rest))⟩ := by
  rw [trim_origin_append, unescape_origin_append,
    ofClean?_of_named (schemeAndRest?_named _ _) normal.isAuthority_unescape (isTail_cons rfl _)]
  rfl

/-! ## Reading it again -/

private theorem names_authority
    (distinct : ':' ∉ target.host ∨ target.port ≠ target.scheme.defaultPort) :
    Names target.scheme target.host target.authority target.port := by
  unfold authority
  split
  · rename_i own
    rw [own]
    exact .bare (distinct.resolve_right (not_not_intro own))
  · have within : target.port.toNat ≤ Text.max16 := Nat.le_of_lt_succ target.port.toNat_lt
    have names : Names target.scheme target.host
        (target.host ++ ':' :: Text.ofNat target.port.toNat)
        (UInt16.ofNat target.port.toNat) :=
      .numbered (Text.not_mem_ofNat (by decide) _) (Text.decimal?_ofNat within)
    rwa [UInt16.ofNat_toNat] at names

theorem IsNormal.hostAndPort?_authority (normal : IsNormal target)
    (distinct : ':' ∉ target.host ∨ target.port ≠ target.scheme.defaultPort) :
    hostAndPort? target.scheme target.authority = some (target.host, target.port) :=
  hostAndPort?_of_names normal.plain_authority (names_authority distinct)
    normal.nonempty normal.solid

private theorem unescape_colon_ofNat (value : Nat) :
    unescape (':' :: Text.ofNat value) = ':' :: Text.ofNat value :=
  unescape_of_not_mem
    (List.not_mem_cons_of_ne_of_not_mem (by decide) (Text.not_mem_ofNat (by decide) value))

/-- If the host is found again, then nothing in the authority was an escape, and no colon
was taken for the mark of a port. -/
theorem IsNormal.of_hostAndPort? (normal : IsNormal target) {host : Text} {port : UInt16}
    (split : hostAndPort? target.scheme (unescape target.authority) = some (host, port))
    (same : Text.lower host = target.host) :
    unescape target.authority = target.authority ∧
      (':' ∉ target.host ∨ target.port ≠ target.scheme.defaultPort) := by
  have plain : '@' ∉ unescape target.authority := fun member =>
    normal.plain_authority (subset_unescape _ member)
  have names := (names_of_hostAndPort? plain split).1
  have size : host.length = target.host.length := by rw [← same, Text.length_lower]
  have fixed (found : host = unescape target.host) : unescape target.host = target.host :=
    unescape_of_not_infix (not_infix_of_length_unescape (by rw [← found, size]))
  by_cases own : target.port = target.scheme.defaultPort
  · have written : target.authority = target.host := if_pos own
    rw [written] at names ⊢
    obtain ⟨found, single⟩ := names.eq_of_length (size ▸ length_unescape_le target.host)
    exact ⟨fixed found, .inl fun colon => single (Text.mem_of_mem_lower (by decide) (same ▸ colon))⟩
  · have written : target.authority = target.host ++ ':' :: Text.ofNat target.port.toNat :=
      if_neg own
    rw [written, unescape_append_cons (by decide), unescape_colon_ofNat] at names ⊢
    have found := names.eq_of_append_cons (Text.not_mem_ofNat (by decide) _)
    exact ⟨by rw [fixed found], .inr own⟩

/-- Nothing was lost of a path that is the same again. -/
theorem eq_of_before_unescape_trimEnd {path : Text}
    (kept : Text.before '#' (unescape (Text.trimEnd path)) = path) :
    path.IsEnded ∧ unescape path = path := by
  have shrunk := length_unescape_le (Text.trimEnd path)
  have cut : path.length ≤ (unescape (Text.trimEnd path)).length := by
    conv_lhs => rw [← kept]
    exact (List.takeWhile_prefix _).length_le
  have trimmed : Text.trimEnd path = path := by
    have front : Text.trimEnd path <+: path := ⟨_, Text.trimEnd_append_trailing path⟩
    exact front.eq_of_length_le (by omega)
  rw [trimmed] at cut
  exact ⟨Text.trimEnd_eq_self_iff.1 trimmed,
    unescape_of_not_infix (not_infix_of_length_unescape cut)⟩

theorem IsNormal.isStable_of_parse_url (normal : IsNormal target)
    (again : parse target.url = .ok target) : IsStable target := by
  obtain ⟨rest, path, written⟩ := normal.exists_url
  rw [written, parse_eq_ok_iff, normal.ofClean?_origin_append] at again
  obtain ⟨⟨host, port⟩, split, made⟩ := Option.map_eq_some_iff.1 again
  obtain ⟨authority, distinct⟩ := normal.of_hostAndPort? split (congrArg Target.host made)
  have kept : '/' :: Text.before '#' (unescape (Text.trimEnd rest)) = '/' :: rest :=
    (congrArg Target.path made).trans path
  obtain ⟨ended, unescaped⟩ := eq_of_before_unescape_trimEnd (List.cons.inj kept).2
  refine ⟨?_, ?_, distinct⟩
  · rw [← unescape_eq_self_iff, written, unescape_origin_append, authority, unescaped]
    simp [origin]
  · rw [written, Text.isEnded_append_cons]
    exact Text.isEnded_cons (fun _ => by decide) ended

theorem IsStable.unescape_authority (stable : IsStable target) :
    unescape target.authority = target.authority := by
  refine unescape_of_not_infix fun inside => stable.unescaped (inside.trans ?_)
  exact ⟨target.scheme.name ++ "://".toList, target.path, by simp [url, origin]⟩

/-- A path behind the origin of a target whose URL is stable is read on that origin. -/
theorem IsStable.parse_origin_append (stable : IsStable target) (normal : IsNormal target)
    {path : Text} (rooted : ∃ rest, path = '/' :: rest) (ended : path.IsEnded) :
    parse (target.origin ++ path) =
      .ok { target with path := Text.before '#' (unescape path) } := by
  obtain ⟨rest, rfl⟩ := rooted
  have trimmed := Text.trimEnd_eq_self_iff.2 (Text.IsEnded.of_append ['/'] ended)
  rw [parse_eq_ok_iff, normal.ofClean?_origin_append, stable.unescape_authority,
    normal.hostAndPort?_authority stable.port, trimmed, unescape_cons (by decide)]
  simp only [Option.map_some, normal.lower]
  rfl

theorem IsStable.parse_url (stable : IsStable target) (normal : IsNormal target) :
    parse target.url = .ok target := by
  have ended : target.path.IsEnded := Text.IsEnded.of_append target.origin stable.ended
  have unescaped : unescape target.path = target.path :=
    unescape_of_not_infix fun inside => stable.unescaped
      (inside.trans (List.suffix_append target.origin target.path).isInfix)
  rw [url, stable.parse_origin_append normal normal.rooted ended, unescaped,
    Text.before_eq_self normal.whole]

/-- A target that was read has its host in small letters and without the marks of the other
parts, and a path without a fragment. Its URL is read as the same target unless there is an
escape in it, or a blank at its end, or a colon of the host is all that could mark a port. -/
theorem isNormal_and_parse_url_iff (accepted : parse text = .ok target) :
    IsNormal target ∧
      (parse target.url = .ok target ↔
        ¬ escape <:+: target.url ∧ target.url.IsEnded ∧
          (':' ∉ target.host ∨ target.port ≠ target.scheme.defaultPort)) := by
  have normal := isNormal_of_parse accepted
  refine ⟨normal, fun again => ?_, fun ⟨unescaped, ended, port⟩ => ?_⟩
  · have stable := normal.isStable_of_parse_url again
    exact ⟨stable.unescaped, stable.ended, stable.port⟩
  · exact IsStable.parse_url ⟨unescaped, ended, port⟩ normal

/-- The port 80 is not written, and `b` is not a port. -/
theorem isNormal_and_not_parse_url_of_colon :
    parse "HTTP://A:b:80#top".toList = .ok ⟨.http, "a:b".toList, 80, "/".toList⟩ ∧
      IsNormal ⟨.http, "a:b".toList, 80, "/".toList⟩ ∧
      parse (url ⟨.http, "a:b".toList, 80, "/".toList⟩) ≠
        .ok ⟨.http, "a:b".toList, 80, "/".toList⟩ := by
  have accepted : parse "HTTP://A:b:80#top".toList = .ok ⟨.http, "a:b".toList, 80, "/".toList⟩ := by
    decide
  obtain ⟨normal, again⟩ := isNormal_and_parse_url_iff accepted
  exact ⟨accepted, normal, fun same => absurd (again.1 same).2.2 (by decide)⟩

end WebClient.Target
