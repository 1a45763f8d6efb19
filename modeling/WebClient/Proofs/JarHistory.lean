import Mathlib.Data.List.Induction
import WebClient.Cookie.Jar

/-!
# Histories of a jar

A jar is what the changes made to it have left. Every cookie in it has come in by
one of them, and no cookie narrows one that stands before it, whatever the changes
were. A cookie that is added again changes nothing.
-/

set_option autoImplicit false

namespace WebClient

namespace Cookie

/-- A cookie is for the name of an older one and for no place that the older one is
not for, with domains and paths taken as written. -/
structure Narrows (cookie older : Cookie) : Prop where
  name : cookie.name = older.name
  domain : older.domain.getD [] <:+ cookie.domain.getD []
  path : older.path.getD [] <+: cookie.path.getD []

theorem replaces_iff {cookie older : Cookie} :
    cookie.replaces older = true ↔ cookie.Narrows older := by
  simp only [replaces, Bool.and_eq_true, beq_iff_eq, List.isSuffixOf_iff_suffix,
    List.isPrefixOf_iff_prefix]
  constructor
  · rintro ⟨⟨name, domain⟩, path⟩
    exact ⟨name, domain, path⟩
  · intro narrows
    exact ⟨⟨narrows.name, narrows.domain⟩, narrows.path⟩

theorem Narrows.refl (cookie : Cookie) : cookie.Narrows cookie :=
  ⟨rfl, List.suffix_rfl, List.prefix_rfl⟩

theorem Narrows.trans {cookie older oldest : Cookie} (first : cookie.Narrows older)
    (second : older.Narrows oldest) : cookie.Narrows oldest :=
  ⟨first.name.trans second.name, second.domain.trans first.domain,
    second.path.trans first.path⟩

end Cookie

namespace Jar

/-! ## Placing a cookie -/

/-- A cookie comes last if it narrows none, and otherwise takes the place of the first
one that it narrows. -/
theorem place_cases (cookie : Cookie) (cookies : List Cookie) :
    ((∀ older ∈ cookies, ¬ cookie.Narrows older) ∧
        place cookie cookies = cookies ++ [cookie]) ∨
      ∃ before older after, cookies = before ++ older :: after ∧
        (∀ earlier ∈ before, ¬ cookie.Narrows earlier) ∧ cookie.Narrows older ∧
        place cookie cookies = before ++ cookie :: after := by
  induction cookies with
  | nil => exact .inl ⟨nofun, rfl⟩
  | cons first rest ih =>
    by_cases narrows : cookie.Narrows first
    · refine .inr ⟨[], first, rest, rfl, nofun, narrows, ?_⟩
      simp only [place, if_pos (Cookie.replaces_iff.2 narrows), List.nil_append]
    · have passed : place cookie (first :: rest) = first :: place cookie rest := by
        rw [place, if_neg (mt Cookie.replaces_iff.1 narrows)]
      rcases ih with ⟨fresh, placed⟩ | ⟨before, older, after, rfl, fresh, instead, placed⟩
      · refine .inl ⟨List.forall_mem_cons.2 ⟨narrows, fresh⟩, ?_⟩
        rw [passed, placed, List.cons_append]
      · refine .inr ⟨first :: before, older, after, rfl,
          List.forall_mem_cons.2 ⟨narrows, fresh⟩, instead, ?_⟩
        rw [passed, placed, List.cons_append]

private theorem place_append_cons {cookie older : Cookie} {before : List Cookie}
    (fresh : ∀ earlier ∈ before, ¬ cookie.Narrows earlier) (narrows : cookie.Narrows older)
    (after : List Cookie) :
    place cookie (before ++ older :: after) = before ++ cookie :: after := by
  induction before with
  | nil => rw [List.nil_append, place, if_pos (Cookie.replaces_iff.2 narrows), List.nil_append]
  | cons first before ih =>
    rw [List.forall_mem_cons] at fresh
    rw [List.cons_append, place, if_neg (mt Cookie.replaces_iff.1 fresh.1), ih fresh.2,
      List.cons_append]

/-- A cookie that was placed is the first one that it narrows itself. -/
theorem place_place (cookie : Cookie) (cookies : List Cookie) :
    place cookie (place cookie cookies) = place cookie cookies := by
  rcases place_cases cookie cookies with
    ⟨fresh, placed⟩ | ⟨before, older, after, -, fresh, -, placed⟩
  · rw [placed]
    exact place_append_cons fresh (.refl cookie) []
  · rw [placed]
    exact place_append_cons fresh (.refl cookie) after

theorem mem_place_self (cookie : Cookie) (cookies : List Cookie) :
    cookie ∈ place cookie cookies := by
  rcases place_cases cookie cookies with ⟨-, placed⟩ | ⟨before, older, after, -, -, -, placed⟩
  · simp [placed]
  · simp [placed]

theorem eq_or_mem_of_mem_place {cookie other : Cookie} {cookies : List Cookie}
    (member : other ∈ place cookie cookies) : other = cookie ∨ other ∈ cookies := by
  rcases place_cases cookie cookies with ⟨-, placed⟩ | ⟨before, older, after, rfl, -, -, placed⟩
  · rw [placed, List.mem_append, List.mem_singleton] at member
    exact member.symm
  · rw [placed, List.mem_append, List.mem_cons] at member
    rcases member with front | same | back
    · exact .inr (List.mem_append_left _ front)
    · exact .inl same
    · exact .inr (List.mem_append_right _ (.tail _ back))

/-! ## The order of a jar -/

def Ordered (cookies : List Cookie) : Prop :=
  cookies.Pairwise fun earlier later => ¬ later.Narrows earlier

theorem Ordered.place {cookies : List Cookie} (ordered : Ordered cookies) (cookie : Cookie) :
    Ordered (place cookie cookies) := by
  rcases place_cases cookie cookies with
    ⟨fresh, placed⟩ | ⟨before, older, after, rfl, fresh, narrows, placed⟩
  · rw [placed, Ordered, List.pairwise_append]
    refine ⟨ordered, List.pairwise_singleton _ _, ?_⟩
    intro earlier member later last
    rw [List.mem_singleton.1 last]
    exact fresh earlier member
  · rw [placed]
    simp only [Ordered, List.pairwise_append, List.pairwise_cons] at ordered ⊢
    obtain ⟨front, ⟨behind, back⟩, across⟩ := ordered
    refine ⟨front, ⟨?_, back⟩, ?_⟩
    · -- What narrows the new cookie would have narrowed the one that had its place.
      intro later member closer
      exact behind later member (closer.trans narrows)
    · intro earlier member later listed
      rcases List.mem_cons.1 listed with rfl | listed
      · exact fresh earlier member
      · exact across earlier member later (.tail _ listed)

theorem Ordered.nodup_map {α : Type} {cookies : List Cookie} (ordered : Ordered cookies)
    {key : Cookie → α}
    (narrows : ∀ earlier ∈ cookies, ∀ later ∈ cookies, key earlier = key later →
      later.Narrows earlier) : (cookies.map key).Nodup := by
  rw [List.Nodup, List.pairwise_map]
  refine List.Pairwise.imp_of_mem (fun earlierListed laterListed apart same => ?_) ordered
  exact apart (narrows _ earlierListed _ laterListed same)

/-! ## Adding a cookie again -/

private theorem insert_insert (jar : Jar) (cookie : Cookie) :
    (jar.insert cookie).insert cookie = jar.insert cookie := by
  simp only [Jar.insert, place_place]

/-- What a jar turns away does not hang on the cookies in it. -/
theorem accepted?_insert (jar : Jar) (cookie : Cookie) (raw host path : Text) :
    (jar.insert cookie).accepted? raw host path = jar.accepted? raw host path :=
  rfl

/-- The same value received once more for the same host and path is judged as it was before
and changes nothing, and a value that is turned away changes nothing at all. -/
theorem add_add {jar later : Jar} {raw host path : Text} {kept : Bool}
    (added : jar.add raw host path = (later, kept)) :
    later.add raw host path = (later, kept) ∧ (kept = false → later = jar) := by
  cases accepted : jar.accepted? raw host path with
  | none =>
    have unchanged : jar.add raw host path = (jar, false) := by simp only [add, accepted]
    obtain ⟨rfl, rfl⟩ := Prod.mk.inj (unchanged.symm.trans added)
    exact ⟨unchanged, fun _ => rfl⟩
  | some cookie =>
    obtain ⟨rfl, rfl⟩ := Prod.mk.inj ((add_of_accepted accepted).symm.trans added)
    have again : (jar.insert cookie).accepted? raw host path = some cookie := by
      rw [accepted?_insert, accepted]
    refine ⟨?_, fun refused => by cases refused⟩
    rw [add_of_accepted again, insert_insert]

/-- A wider cookie stands before the one that has the same domain and path, and has its place
taken. -/
theorem add_add_of_wider :
    let wider : Cookie := ⟨['a'], ['1'], none, none, some "h.com".toList, false⟩
    let same : Cookie := ⟨['a'], ['2'], none, some ['/'], some "www.h.com".toList, false⟩
    let newest : Cookie := ⟨['a'], ['3'], none, some ['/'], some "www.h.com".toList, false⟩
    let later : Jar := ⟨[newest, same], false, false⟩
    (⟨[wider, same], false, false⟩ : Jar).add "a=3".toList "www.h.com".toList ['/'] =
        (later, true) ∧
      later.add "a=3".toList "www.h.com".toList ['/'] = (later, true) := by
  intro wider same newest later
  have added : (⟨[wider, same], false, false⟩ : Jar).add "a=3".toList "www.h.com".toList ['/'] =
      (later, true) := by
    decide +kernel
  exact ⟨added, (add_add added).1⟩

/-! ## Histories -/

inductive Change
  | add (raw host path : Text)
  | insert (cookie : Cookie)
  | clear
  | allowForeign (allow : Bool)
  | enforceExpiry (enforce : Bool)

def apply (jar : Jar) : Change → Jar
  | .add raw host path => (jar.add raw host path).1
  | .insert cookie => jar.insert cookie
  | .clear => jar.clear
  | .allowForeign allow => { jar with allowForeign := allow }
  | .enforceExpiry enforce => { jar with enforceExpiry := enforce }

/-- The jar that some changes make of an empty one, on which no cookie may be foreign. -/
def after (changes : List Change) : Jar :=
  changes.foldl apply (empty false)

def stored? (jar : Jar) : Change → Option Cookie
  | .add raw host path => jar.accepted? raw host path
  | .insert cookie => some cookie
  | .clear | .allowForeign _ | .enforceExpiry _ => none

/-- One of the changes has put the cookie into the jar. -/
def Stores (changes : List Change) (change : Change) (cookie : Cookie) : Prop :=
  ∃ earlier later, changes = earlier ++ change :: later ∧
    (after earlier).stored? change = some cookie

theorem after_concat (changes : List Change) (change : Change) :
    after (changes ++ [change]) = (after changes).apply change := by
  simp [after]

theorem cookies_apply (jar : Jar) (change : Change) :
    (∃ cookie, jar.stored? change = some cookie ∧
        (jar.apply change).cookies = place cookie jar.cookies) ∨
      (jar.apply change).cookies = jar.cookies ∨ (jar.apply change).cookies = [] := by
  cases change with
  | add raw host path =>
    cases accepted : jar.accepted? raw host path with
    | none => exact .inr (.inl (by simp [apply, add, accepted]))
    | some cookie => exact .inl ⟨cookie, accepted, by simp [apply, add, accepted, Jar.insert]⟩
  | insert cookie => exact .inl ⟨cookie, rfl, rfl⟩
  | clear => exact .inr (.inr rfl)
  | allowForeign allow => exact .inr (.inl rfl)
  | enforceExpiry enforce => exact .inr (.inl rfl)

theorem Stores.concat {changes : List Change} {change : Change} {cookie : Cookie}
    (stores : Stores changes change cookie) (last : Change) :
    Stores (changes ++ [last]) change cookie := by
  obtain ⟨earlier, later, rfl, stored⟩ := stores
  exact ⟨earlier, later ++ [last], by simp, stored⟩

theorem stores_of_mem {changes : List Change} {cookie : Cookie}
    (member : cookie ∈ (after changes).cookies) : ∃ change, Stores changes change cookie := by
  induction changes using List.reverseRecOn with
  | nil => cases member
  | append_singleton changes last ih =>
    rw [after_concat] at member
    rcases cookies_apply (after changes) last with ⟨newest, stored, placed⟩ | kept | gone
    · rw [placed] at member
      rcases eq_or_mem_of_mem_place member with rfl | older
      · exact ⟨last, changes, [], rfl, stored⟩
      · obtain ⟨change, stores⟩ := ih older
        exact ⟨change, stores.concat last⟩
    · rw [kept] at member
      obtain ⟨change, stores⟩ := ih member
      exact ⟨change, stores.concat last⟩
    · rw [gone] at member
      cases member

theorem exists_add_of_stores {changes : List Change} {change : Change} {cookie : Cookie}
    (served : ∀ cookie, Change.insert cookie ∉ changes) (stores : Stores changes change cookie) :
    ∃ raw host path, change = .add raw host path := by
  obtain ⟨earlier, later, rfl, stored⟩ := stores
  cases change with
  | add raw host path => exact ⟨raw, host, path, rfl⟩
  | insert inserted => exact absurd (by simp) (served inserted)
  | clear => cases stored
  | allowForeign allow => cases stored
  | enforceExpiry enforce => cases stored

theorem ordered_cookies (changes : List Change) : Ordered (after changes).cookies := by
  induction changes using List.reverseRecOn with
  | nil => exact List.Pairwise.nil
  | append_singleton changes last ih =>
    rw [after_concat]
    rcases cookies_apply (after changes) last with ⟨newest, -, placed⟩ | kept | gone
    · rw [placed]
      exact ih.place newest
    · rw [kept]
      exact ih
    · rw [gone]
      exact List.Pairwise.nil

/-- In every jar no cookie narrows one that stands before it, so no two have the same
name, domain and path. -/
theorem ordered_after (changes : List Change) :
    (after changes).cookies.Pairwise (fun earlier later => later.replaces earlier = false) ∧
      ((after changes).cookies.map fun cookie =>
        (cookie.name, cookie.domain.getD [], cookie.path.getD [])).Nodup := by
  have ordered := ordered_cookies changes
  constructor
  · exact ordered.imp fun apart => by simpa [← Cookie.replaces_iff] using apart
  · refine ordered.nodup_map fun earlier _ later _ same => ?_
    simp only [Prod.mk.injEq] at same
    obtain ⟨name, domain, path⟩ := same
    exact ⟨name.symm, domain ▸ List.suffix_rfl, path ▸ List.prefix_rfl⟩

end Jar

end WebClient
