import WebClient.Proofs.RelativeReference

/-!
# Fragments of references

A fragment is dropped when the URL is read that a reference was made into. By then the
reference has been put behind some part of the page's URL, which was chosen by how the
reference begins, fragment and all.
-/

set_option autoImplicit false

namespace WebClient

namespace Target

variable {target : Target} {url reference : Text}

/-! ## Reading a URL with a fragment -/

theorem cleaned_append_fragment (ended : reference.IsEnded) (fragment : Text) :
    cleaned (reference ++ '#' :: fragment) =
      cleaned reference ++ '#' :: unescape (Text.trimEnd fragment) := by
  rw [cleaned, Text.trim_append_solid (by decide) ended, unescape_append_cons (by decide),
    unescape_cons (by decide), cleaned]

private theorem ofClean?_append_fragment (url fragment : Text) :
    ofClean? (url ++ '#' :: fragment) = ofClean? url := by
  rw [ofClean?, schemeAndRest?_append_cons (by decide) (by decide), ofClean?]
  cases schemeAndRest? url with
  | none => rfl
  | some named => simp [Text.before_append_mark]

private theorem toOption_parse (url : Text) : (parse url).toOption = ofClean? (cleaned url) := by
  unfold parse cleaned
  cases ofClean? (unescape (Text.trim url)) <;> rfl

theorem toOption_parse_append_fragment (ended : url.IsEnded) (fragment : Text) :
    (parse (url ++ '#' :: fragment)).toOption = (parse url).toOption := by
  rw [toOption_parse, cleaned_append_fragment ended, ofClean?_append_fragment, toOption_parse]

/-! ## Where a reference is put -/

def lead (target : Target) (reference : Text) : Text :=
  if (splitScheme? reference).isSome then []
  else if "//".toList <+: reference then target.scheme.name ++ [':']
  else target.origin ++ target.base reference

theorem resolve_eq (nonempty : cleaned reference ≠ []) :
    target.resolve reference = target.lead (cleaned reference) ++ cleaned reference := by
  unfold lead
  split
  · rename_i named
    unfold cleaned at named ⊢
    rw [resolve, if_pos named]
    rfl
  · rename_i unnamed
    have unnamed : splitScheme? (cleaned reference) = none := by simpa using unnamed
    split
    · rename_i hosted
      obtain ⟨rest, shape⟩ := hosted
      unfold cleaned at shape unnamed ⊢
      rw [resolve, unnamed, ← shape]
      simp
    · rename_i hostless
      rw [resolve_of_unnamed unnamed hostless nonempty, List.append_assoc]

private theorem base_append (nonempty : reference ≠ []) (rest : Text) :
    target.base (reference ++ rest) = target.base reference := by
  obtain ⟨first, more, rfl⟩ := List.exists_cons_of_ne_nil nonempty
  by_cases slash : first = '/'
  · rw [slash]
    rfl
  · by_cases query : first = '?'
    · rw [query]
      rfl
    · simp [base, slash, query]

private theorem lead_append_fragment (nonempty : reference ≠ []) (fragment : Text) :
    target.lead (reference ++ '#' :: fragment) = target.lead reference := by
  have named : (splitScheme? (reference ++ '#' :: fragment)).isSome =
      (splitScheme? reference).isSome := by
    rw [splitScheme?_append_cons (by decide) (by decide), Option.isSome_map]
  have hosted : "//".toList <+: reference ++ '#' :: fragment ↔ "//".toList <+: reference :=
    ⟨Text.prefix_append_cons (by decide), fun begins => begins.trans (List.prefix_append _ _)⟩
  simp only [lead, named, hosted, base_append nonempty]

private theorem isEnded_resolve (nonempty : cleaned reference ≠ []) :
    (target.resolve reference).IsEnded := by
  have ended := isEnded_cleaned reference
  rw [resolve_eq nonempty]
  obtain ⟨first, rest, shape⟩ := List.exists_cons_of_ne_nil nonempty
  rw [shape] at ended ⊢
  exact (Text.isEnded_append_cons _).2 ended

private theorem resolve_append_fragment (ended : reference.IsEnded)
    (nonempty : cleaned reference ≠ []) (fragment : Text) :
    target.resolve (reference ++ '#' :: fragment) =
      target.resolve reference ++ '#' :: unescape (Text.trimEnd fragment) := by
  have shape := cleaned_append_fragment ended fragment
  have occupied : cleaned (reference ++ '#' :: fragment) ≠ [] := by simp [shape]
  rw [resolve_eq occupied, shape, lead_append_fragment nonempty, resolve_eq nonempty,
    List.append_assoc]

/-! ## A fragment alone -/

private theorem exists_directory_eq_concat (target : Target) :
    ∃ front, target.directory = front ++ ['/'] := by
  unfold directory
  split
  · exact ⟨_, rfl⟩
  · exact ⟨[], rfl⟩

theorem isEnded_append_directory (front : Text) (target : Target) :
    (front ++ target.directory).IsEnded := by
  have solid : Text.isBlank '/' = false := by decide
  obtain ⟨path, written⟩ := exists_directory_eq_concat target
  rw [written, ← List.append_assoc]
  exact (Text.isEnded_append_cons _).2 (Text.isEnded_of_solid (List.forall_mem_singleton.2 solid))

theorem IsNormal.directory_prefix_path (normal : IsNormal target) :
    target.directory <+: target.path := by
  have whole : target.pathOnly <+: target.path := List.takeWhile_prefix _
  refine List.IsPrefix.trans ?_ whole
  unfold directory
  cases cut : Text.cutLast? '/' target.pathOnly with
  | none =>
    obtain ⟨rest, path⟩ := normal.exists_pathOnly_eq_cons
    rw [path]
    exact ⟨rest, rfl⟩
  | some split =>
    obtain ⟨front, rest⟩ := split
    obtain ⟨path, -⟩ := Text.cutLast?_eq_some cut
    rw [path]
    exact ⟨rest, by simp⟩

/-- A fragment alone is taken for a name in the directory of the page. -/
theorem toOption_parse_resolve_bare (target : Target) (fragment : Text) :
    (parse (target.resolve ('#' :: fragment))).toOption =
      (parse (target.origin ++ target.directory)).toOption := by
  have nothing : Text.IsEnded [] := fun c last => by cases last
  have shape : cleaned ('#' :: fragment) = '#' :: unescape (Text.trimEnd fragment) :=
    cleaned_append_fragment nothing fragment
  have front : target.lead ('#' :: unescape (Text.trimEnd fragment)) =
      target.origin ++ target.directory := rfl
  rw [resolve_eq (by simp [shape]), shape, front,
    toOption_parse_append_fragment (isEnded_append_directory _ target)]

private theorem parse_origin_append_directory (stable : parse target.url = .ok target) :
    parse (target.origin ++ target.directory) =
      .ok { target with path := target.directory } := by
  have normal := isNormal_of_parse stable
  have isStable := normal.isStable_of_parse_url stable
  have inside := normal.directory_prefix_path
  have plain : unescape target.directory = target.directory := by
    refine unescape_of_not_infix fun escaped => isStable.unescaped ?_
    exact escaped.trans (inside.isInfix.trans (List.suffix_append _ _).isInfix)
  have whole : '#' ∉ target.directory := fun member => normal.whole (inside.subset member)
  rw [isStable.parse_origin_append normal normal.exists_directory_eq_cons
    (isEnded_append_directory [] target), plain, Text.before_eq_self whole]

/-- A fragment behind a reference does not change what the reference is read as, or that it
cannot be read, as long as there is a reference. The empty one is the page itself, and with
a fragment the directory of the page. -/
theorem parse_resolve_fragment_iff (trimmed : Text.trim reference = reference)
    (fragment : Text) :
    (reference ≠ [] →
      (parse (target.resolve (reference ++ '#' :: fragment))).toOption =
        (parse (target.resolve reference)).toOption) ∧
      (parse target.url = .ok target →
        ((parse (target.resolve ('#' :: fragment))).toOption =
            (parse (target.resolve [])).toOption ↔
          target.directory = target.path)) := by
  constructor
  · intro nonempty
    have ended := Text.isEnded_of_trim_eq_self trimmed
    have occupied : cleaned reference ≠ [] := by
      rw [cleaned, trimmed]
      exact unescape_ne_nil nonempty
    rw [resolve_append_fragment ended occupied,
      toOption_parse_append_fragment (isEnded_resolve occupied)]
  · intro stable
    have page : target.resolve [] = target.url := resolve_of_cleaned_eq_nil rfl
    rw [toOption_parse_resolve_bare, parse_origin_append_directory stable, page, stable]
    constructor
    · intro same
      exact congrArg Target.path (Option.some.inj same)
    · intro same
      rw [same]

theorem parse_resolve_fragment_iff_of_host :
    let page : Target := ⟨.https, "h.com".toList, 443, "/a/b/".toList⟩
    let reference := "//x.org:81?u&amp;v w".toList
    Text.trim reference = reference ∧ reference ≠ [] ∧ parse page.url = .ok page ∧
      (parse (page.resolve (reference ++ "#//y.org/#?".toList))).toOption =
        some ⟨.https, "x.org".toList, 81, "/?u&v w".toList⟩ ∧
      (parse (page.resolve "#top".toList)).toOption = some page := by
  intro page reference
  have trimmed : Text.trim reference = reference := by decide
  have nonempty : reference ≠ [] := by decide
  have stable : parse page.url = .ok page := by decide
  obtain ⟨kept, -⟩ := @parse_resolve_fragment_iff page reference trimmed "//y.org/#?".toList
  obtain ⟨-, bare⟩ := @parse_resolve_fragment_iff page reference trimmed "top".toList
  refine ⟨trimmed, nonempty, stable, (kept nonempty).trans (by decide), ?_⟩
  exact ((bare stable).2 (by decide)).trans (by decide)

/-- The page is `b`, and its directory is fetched. -/
theorem not_parse_resolve_fragment_of_page :
    let page : Target := ⟨.http, "h.com".toList, 80, "/a/b".toList⟩
    parse "http://h.com/a/b".toList = .ok page ∧ Text.trim [] = [] ∧ '#' ∉ ([] : Text) ∧
      (parse (page.resolve ([] ++ '#' :: "top".toList))).toOption ≠
        (parse (page.resolve [])).toOption := by
  decide

end Target

end WebClient
