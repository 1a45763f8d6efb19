import WebClient.Proofs.OffsetSearch

/-!
# The tag that asks for another page

A page asks to be replaced by the URL of the first tag that names one. Such a tag begins with
`<meta`, whether its name ends there or not; so a tag of another name can ask in place of the
first `meta` tag that does, and where none does. Where the first tag that asks is a `meta` tag,
it is the first of those.
-/

set_option autoImplicit false

namespace WebClient.Markup

/-- What stands behind the first `url=` of a content, without the blanks and then the quotes
around it. -/
def NamesUrl (content url : Text) : Prop :=
  ∃ passed spelled behind, content = passed ++ (spelled ++ behind) ∧
    Text.lower spelled = "url=".toList ∧
    (∀ front inner, passed = front ++ inner → inner ≠ [] →
      ¬ "url=".toList <+: Text.lower (inner ++ (spelled ++ behind))) ∧
    url = trimQuotes (Text.trim behind)

structure AsksFor (tag url : Text) : Prop where
  refreshes : ∃ kind, attribute? "http-equiv".toList tag = some kind ∧
    Text.sameFolded kind "refresh".toList = true
  named : ∃ content, attribute? "content".toList tag = some content ∧ NamesUrl content url
  occupied : url ≠ []

/-- A tag whose name is `meta` and ends there. -/
def IsMeta (tag : Tag) : Prop :=
  ∃ name c body, tag.inner = name ++ c :: body ∧ Text.lower name = "<meta".toList ∧
    (Text.isBlank c = true ∨ c = '/')

/-- Of the tags that count the first one that asks for a URL. -/
structure FirstAsks (counts : Tag → Prop) (text : Text) (tag : Tag) (url : Text) : Prop where
  is : Tag.IsOf opensMeta text tag
  counted : counts tag
  asks : AsksFor tag.inner url
  first : ∀ other, Tag.IsOf opensMeta text other → counts other →
    other.before.length < tag.before.length → ∀ url, ¬ AsksFor other.inner url

section

variable {text url content : Text} {tag other : Tag} {opens : Text → Bool}

/-! ## What a tag asks for -/

theorem contentUrl?_eq_some_iff :
    contentUrl? content = some url ↔ NamesUrl content url ∧ url ≠ [] := by
  cases cut : Text.cutFolded? "url=".toList content with
  | none =>
    rw [contentUrl?, cut]
    refine iff_of_false (Option.some_ne_none url).symm ?_
    rintro ⟨⟨passed, spelled, behind, whole, folded, first, -⟩, -⟩
    cases cut.symm.trans
      ((Text.cutFolded?_eq_some_iff (by decide)).2 ⟨spelled, whole, folded, first⟩)
  | some found =>
    obtain ⟨passed, behind⟩ := found
    rw [contentUrl?, cut]
    dsimp only
    constructor
    · intro said
      split at said
      · cases said
      · rename_i occupied
        cases said
        obtain ⟨spelled, whole, folded, first⟩ := (Text.cutFolded?_eq_some_iff (by decide)).1 cut
        exact ⟨⟨passed, spelled, behind, whole, folded, first, rfl⟩, by simpa using occupied⟩
    · rintro ⟨⟨passed, spelled, behind, whole, folded, first, rfl⟩, occupied⟩
      cases cut.symm.trans
        ((Text.cutFolded?_eq_some_iff (by decide)).2 ⟨spelled, whole, folded, first⟩)
      rw [if_neg (by simpa using occupied)]

theorem refreshUrl?_eq_some_iff {tag : Text} : refreshUrl? tag = some url ↔ AsksFor tag url := by
  rw [refreshUrl?]
  constructor
  · intro said
    split at said
    · rename_i kind found
      split at said
      · rename_i same
        obtain ⟨content, assigned, named⟩ := Option.bind_eq_some_iff.1 said
        obtain ⟨names, occupied⟩ := contentUrl?_eq_some_iff.1 named
        exact ⟨⟨kind, found, same⟩, ⟨content, assigned, names⟩, occupied⟩
      · cases said
    · cases said
  · rintro ⟨⟨kind, found, same⟩, ⟨content, assigned, names⟩, occupied⟩
    rw [found, assigned]
    dsimp only
    rw [if_pos same]
    exact contentUrl?_eq_some_iff.2 ⟨names, occupied⟩

theorem refreshUrl?_eq_none_iff {tag : Text} :
    refreshUrl? tag = none ↔ ∀ url, ¬ AsksFor tag url := by
  simp only [Option.eq_none_iff_forall_ne_some, ne_eq, refreshUrl?_eq_some_iff]

/-! ## The first tag that asks -/

/-- Tags begin one behind the other. -/
theorem pairwise_before_length (opens : Text → Bool) (before text : Text) :
    (tagsFrom opens before text).Pairwise fun left right =>
      left.before.length < right.before.length := by
  refine (pairwise_tagsFrom opens before text).imp fun {left right} passed => ?_
  have shorter := passed.length_le
  simp only [List.length_append, List.length_singleton] at shorter
  omega

theorem refresh?_eq_some_iff :
    refresh? text = some url ↔ ∃ tag, FirstAsks (fun _ => True) text tag url := by
  have ordered := pairwise_before_length opensMeta [] text
  rw [refresh?_eq_tagsFrom [], List.findSome?_eq_some_iff]
  constructor
  · rintro ⟨early, tag, late, split, said, silent⟩
    have member : tag ∈ tagsFrom opensMeta [] text :=
      split ▸ List.mem_append_right early (.head late)
    refine ⟨tag, (mem_tagsFrom_nil_iff rfl).1 member, trivial, refreshUrl?_eq_some_iff.1 said, ?_⟩
    intro other is _ shorter
    have listed := (mem_tagsFrom_nil_iff rfl).2 is
    rw [split] at listed ordered
    rcases List.mem_append.1 listed with earlier | later
    · exact refreshUrl?_eq_none_iff.1 (silent other earlier)
    · have behind := (List.pairwise_cons.1 (List.pairwise_append.1 ordered).2.1).1
      rcases List.mem_cons.1 later with rfl | later
      · exact absurd shorter (lt_irrefl _)
      · exact absurd (behind other later) shorter.asymm
  · rintro ⟨tag, is, -, asks, first⟩
    obtain ⟨early, late, split⟩ := List.append_of_mem ((mem_tagsFrom_nil_iff rfl).2 is)
    refine ⟨early, tag, late, split, refreshUrl?_eq_some_iff.2 asks, fun other earlier => ?_⟩
    have listed : other ∈ tagsFrom opensMeta [] text := split ▸ List.mem_append_left _ earlier
    rw [split] at ordered
    have shorter := (List.pairwise_append.1 ordered).2.2 other earlier tag (.head late)
    exact refreshUrl?_eq_none_iff.2
      (first other ((mem_tagsFrom_nil_iff rfl).1 listed) trivial shorter)

private theorem exists_firstAsks (is : Tag.IsOf opensMeta text tag) (asks : AsksFor tag.inner url) :
    ∃ first url, FirstAsks (fun _ => True) text first url := by
  cases said : refresh? text with
  | some url =>
    obtain ⟨first, asking⟩ := refresh?_eq_some_iff.1 said
    exact ⟨first, url, asking⟩
  | none =>
    rw [refresh?_eq_tagsFrom [], List.findSome?_eq_none_iff] at said
    have silent := said tag ((mem_tagsFrom_nil_iff rfl).2 is)
    exact absurd asks (refreshUrl?_eq_none_iff.1 silent url)

end

/-- The URL is that of the first tag that asks, and so, where that is a `meta` tag, of the first
`meta` tag that does. -/
theorem refresh?_of_first_isMeta (text : Text) :
    refreshBySlices? text = some (refresh? text) ∧
    (∀ url, refresh? text = some url ↔ ∃ tag, FirstAsks (fun _ => True) text tag url) ∧
    ((∀ tag url, FirstAsks (fun _ => True) text tag url → IsMeta tag) →
      ∀ url, refresh? text = some url ↔ ∃ tag, FirstAsks IsMeta text tag url) := by
  refine ⟨refreshBySlices?_eq text, fun url => refresh?_eq_some_iff, fun named url => ?_⟩
  rw [refresh?_eq_some_iff]
  constructor
  · rintro ⟨tag, asking⟩
    exact ⟨tag, asking.is, named tag url asking, asking.asks,
      fun other is _ => asking.first other is trivial⟩
  · rintro ⟨tag, asking⟩
    refine ⟨tag, asking.is, trivial, asking.asks, fun other is _ shorter url asks => ?_⟩
    -- The first tag that asks is a meta tag and does not stand behind this one.
    obtain ⟨first, said, foremost⟩ := exists_firstAsks is asks
    have notBehind : ¬ other.before.length < first.before.length := fun behind =>
      foremost.first other is trivial behind url asks
    exact asking.first first foremost.is (named first said foremost) (by omega) said foremost.asks

/-- A tag that asks for nothing is passed over for a later one. -/
theorem refresh?_of_first_isMeta_of_later :
    let early := "<META http-equiv=refresh content=30".toList
    let late := "<meta/ content=' 0; URL= \"/é\" ' HTTP-EQUIV=Refresh".toList
    let text := early ++ '>' :: (late ++ ['>'])
    (∀ tag url, FirstAsks (fun _ => True) text tag url → IsMeta tag) ∧
      ∃ tag, FirstAsks IsMeta text tag "/é".toList := by
  intro early late text
  have tags : tagsFrom opensMeta [] text =
      [⟨[], early, '>' :: (late ++ ['>'])⟩, ⟨early ++ ['>'], late, ['>']⟩] := by
    rw [tagsFrom_of_closed, tagsFrom_of_closed, tagsFrom] <;> decide
  have named : ∀ tag url, FirstAsks (fun _ => True) text tag url → IsMeta tag := by
    intro tag url asking
    have listed := (mem_tagsFrom_nil_iff rfl).2 asking.is
    rw [tags] at listed
    rcases List.mem_pair.1 listed with rfl | rfl
    · exact ⟨"<META".toList, ' ', _, rfl, by decide, by decide⟩
    · exact ⟨"<meta".toList, '/', _, rfl, by decide, by decide⟩
  exact ⟨named, ((refresh?_of_first_isMeta text).2.2 named _).1 (by decide)⟩

/-- A tag of another name that begins as `meta` does can ask where no `meta` tag stands. -/
theorem not_refresh?_of_metadata :
    let inner := "<metadata http-equiv=refresh content=\"0;url=/x\"".toList
    refresh? (inner ++ ['>']) = some "/x".toList ∧
      ¬ ∃ tag, FirstAsks IsMeta (inner ++ ['>']) tag "/x".toList := by
  intro inner
  refine ⟨by decide, ?_⟩
  rintro ⟨tag, asking⟩
  have tags : tagsFrom opensMeta [] (inner ++ ['>']) = [⟨[], inner, ['>']⟩] := by
    rw [tagsFrom_of_closed, tagsFrom] <;> decide
  have listed := (mem_tagsFrom_nil_iff rfl).2 asking.is
  rw [tags] at listed
  obtain ⟨name, c, body, whole, folded, ended⟩ := asking.counted
  rw [List.mem_singleton.1 listed] at whole
  have spelled := Text.dropFolded?_eq_some_iff.2 ⟨name, whole, folded⟩
  obtain rfl : 'd' = c := (List.cons.inj (Option.some.inj spelled)).1
  revert ended
  decide

end WebClient.Markup
