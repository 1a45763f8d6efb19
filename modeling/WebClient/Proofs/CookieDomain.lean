import Mathlib.Data.List.TakeWhile
import WebClient.Proofs.CookieText
import WebClient.Proofs.JarHistory

/-!
# Domains of cookies

A domain is compared without its leading dots and without regard to case when a
cookie is sent, and as written when one takes the place of another. A cookie stays
with the hosts of its domain unless that is nothing but dots, and has one value in
a jar as long as no domain is spelt in two ways.
-/

set_option autoImplicit false

namespace WebClient

namespace Cookie

/-! ## Where a cookie applies -/

theorem foldedDomain_eq_nil_iff {domain : Text} :
    foldedDomain domain = [] ↔ ∀ c ∈ domain, c = '.' := by
  simp [foldedDomain, Text.lower, List.dropWhile_eq_nil_iff]

private theorem foldedDomain_suffix (host : Text) : foldedDomain host <:+ Text.lower host :=
  (List.dropWhile_suffix _).map _

/-- What a host has to end with to be sent the cookie: its domain in small letters and
without the leading dots. -/
def reach (cookie : Cookie) : Text :=
  foldedDomain (cookie.domain.getD [])

theorem reach_eq_nil_iff {cookie : Cookie} :
    cookie.reach = [] ↔ ∀ c ∈ cookie.domain.getD [], c = '.' :=
  foldedDomain_eq_nil_iff

theorem covers_iff {cookie : Cookie} {host path : Text} :
    cookie.covers host path = true ↔
      cookie.reach <:+ Text.lower host ∧ cookie.path.getD [] <+: path := by
  rw [covers, reach, Bool.and_eq_true]
  apply and_congr
  · cases cookie.domain with
    | none => exact iff_of_true rfl List.nil_suffix
    | some domain => exact List.isSuffixOf_iff_suffix
  · cases cookie.path with
    | none => exact iff_of_true rfl List.nil_prefix
    | some covered => exact List.isPrefixOf_iff_prefix

theorem covers_every_host_iff {cookie : Cookie} {path : Text}
    (below : cookie.path.getD [] <+: path) :
    (∀ host ≠ [], cookie.covers host path = true) ↔ cookie.reach = [] := by
  constructor
  · intro everywhere
    -- Two hosts of one letter each have no common end but the empty one.
    have suffix (c : Char) : cookie.reach <:+ Text.lower [c] :=
      (covers_iff.1 (everywhere [c] (List.cons_ne_nil _ _))).1
    rcases List.suffix_cons_iff.1 (suffix 'a') with ends | short
    · have other := suffix 'b'
      rw [ends] at other
      exact absurd other (by decide)
    · exact List.eq_nil_of_suffix_nil short
  · intro empty host _
    rw [covers_iff, empty]
    exact ⟨List.nil_suffix, below⟩

end Cookie

namespace Jar

theorem covers_completed {cookie : Cookie} (noDomain : cookie.domain = none)
    (noPath : cookie.path = none) (host : Text) {path : Text} (rooted : ['/'] <+: path) :
    (completed cookie host).covers host path = true := by
  rw [Cookie.covers_iff, Cookie.reach]
  simp only [completed, noDomain, noPath, Option.getD_none, Option.getD_some]
  exact ⟨Cookie.foldedDomain_suffix host, rooted⟩

/-! ## Cookies that stay with their hosts -/

def Change.IsGuarded : Change → Prop
  | .insert _ => False
  | .allowForeign allow => allow = false
  | .add _ _ _ | .clear | .enforceExpiry _ => True

variable {changes : List Change} {cookie : Cookie}

theorem allowForeign_after (guarded : ∀ change ∈ changes, change.IsGuarded) :
    (after changes).allowForeign = false := by
  induction changes using List.reverseRecOn with
  | nil => rfl
  | append_singleton changes last ih =>
    rw [List.forall_mem_append, List.forall_mem_singleton] at guarded
    obtain ⟨before, latest⟩ := guarded
    rw [after_concat]
    cases last with
    | add raw host path =>
      rw [apply, add]
      split <;> exact ih before
    | insert cookie => exact latest.elim
    | clear => exact ih before
    | allowForeign allow => exact latest
    | enforceExpiry enforce => exact ih before

private theorem not_insert_mem_of_guarded (guarded : ∀ change ∈ changes, change.IsGuarded)
    (cookie : Cookie) : Change.insert cookie ∉ changes :=
  fun member => guarded _ member

private theorem covers_of_stores {raw host path : Text}
    (guarded : ∀ change ∈ changes, change.IsGuarded)
    (stores : Stores changes (.add raw host path) cookie) : cookie.covers host path = true := by
  obtain ⟨earlier, later, rfl, stored⟩ := stores
  obtain ⟨parsed, -, -, foreign | covers⟩ := accepted?_eq_some_iff.1 stored
  · rw [allowForeign_after (List.forall_mem_append.1 guarded).1] at foreign
    cases foreign
  · exact covers

private theorem domain_of_stores {raw host path : Text}
    (stores : Stores changes (.add raw host path) cookie) :
    cookie.domain = some ((Cookie.domainText? raw).getD host) := by
  obtain ⟨earlier, later, -, stored⟩ := stores
  obtain ⟨parsed, read, rfl, -⟩ := accepted?_eq_some_iff.1 stored
  obtain ⟨name, value, -, -, rfl⟩ := Cookie.parse?_eq_some_iff.1 read
  rfl

/-- A cookie is sent only to hosts that end, like the one it came from, with its domain
without the leading dots. This says something exactly if what the server gave for a domain,
or else its host, is not all dots; otherwise the cookie is sent to every host. -/
theorem sent_within_domain_iff (guarded : ∀ change ∈ changes, change.IsGuarded) {now : Int}
    {host path : Text} (sent : cookie ∈ (after changes).sentTo now host path) :
    (∃ raw origin place, Stores changes (.add raw origin place) cookie) ∧
      (∀ raw origin place, Stores changes (.add raw origin place) cookie →
        (cookie.reach <:+ Text.lower origin ∧ cookie.reach <:+ Text.lower host ∧
          cookie.reach ≠ [] ↔ ∃ c ∈ (Cookie.domainText? raw).getD origin, c ≠ '.')) ∧
      ((∀ other ≠ [], cookie ∈ (after changes).sentTo now other path) ↔
        ∀ c ∈ cookie.domain.getD [], c = '.') := by
  have noForeign : (after changes).allowForeign ≠ true := by
    rw [allowForeign_after guarded]
    exact Bool.false_ne_true
  obtain ⟨member, allowed, fresh⟩ := mem_sentTo_iff.1 sent
  obtain ⟨within, below⟩ := Cookie.covers_iff.1 (allowed.resolve_left noForeign)
  refine ⟨?_, ?_, ?_⟩
  · obtain ⟨change, stores⟩ := stores_of_mem member
    obtain ⟨raw, origin, place, rfl⟩ :=
      exists_add_of_stores (not_insert_mem_of_guarded guarded) stores
    exact ⟨raw, origin, place, stores⟩
  · intro raw origin place stores
    have home := (Cookie.covers_iff.1 (covers_of_stores guarded stores)).1
    rw [and_iff_right home, and_iff_right within, ne_eq, Cookie.reach_eq_nil_iff,
      domain_of_stores stores, Option.getD_some]
    simp only [not_forall, exists_prop, ne_eq]
  · rw [← Cookie.reach_eq_nil_iff, ← Cookie.covers_every_host_iff below]
    apply forall₂_congr
    intro other _
    rw [mem_sentTo_iff, and_iff_right member, and_iff_left fresh, or_iff_right noForeign]

theorem sent_within_domain_of_dotted :
    let changes := [Change.add "a=1; domain=.Example.com".toList "www.example.com".toList
      "/x".toList]
    let cookie : Cookie :=
      ⟨['a'], ['1'], none, some ['/'], some ".Example.com".toList, false⟩
    cookie ∈ (after changes).sentTo 0 "shop.EXAMPLE.com".toList "/".toList ∧
      cookie.reach <:+ Text.lower "www.example.com".toList ∧
      cookie.reach <:+ Text.lower "shop.EXAMPLE.com".toList ∧ cookie.reach ≠ [] ∧
      ¬ ∀ other ≠ [], cookie ∈ (after changes).sentTo 0 other "/".toList := by
  intro changes cookie
  have guarded : ∀ change ∈ changes, change.IsGuarded :=
    List.forall_mem_singleton.2 trivial
  have sent : cookie ∈ (after changes).sentTo 0 "shop.EXAMPLE.com".toList "/".toList := by
    decide +kernel
  have stores : Stores changes (.add "a=1; domain=.Example.com".toList
      "www.example.com".toList "/x".toList) cookie := ⟨[], [], rfl, by decide +kernel⟩
  obtain ⟨-, within, everywhere⟩ := sent_within_domain_iff guarded sent
  obtain ⟨home, there, named⟩ :=
    (within _ _ _ stores).2 ⟨'E', by decide +kernel, by decide⟩
  refine ⟨sent, home, there, named, ?_⟩
  intro all
  exact absurd (everywhere.1 all 'E' (by decide +kernel)) (by decide)

/-- One host sets a cookie for the domain of a single dot, and any other host gets it. -/
theorem not_sent_within_domain_of_dots :
    ¬ ∀ (changes : List Change) (cookie : Cookie) (raw origin place host path : Text) (now : Int),
      (∀ change ∈ changes, change.IsGuarded) → origin ≠ [] → host ≠ [] →
      Stores changes (.add raw origin place) cookie →
      cookie ∈ (after changes).sentTo now host path →
      cookie.reach <:+ Text.lower origin ∧ cookie.reach <:+ Text.lower host ∧
        cookie.reach ≠ [] := by
  intro always
  have reached := always
    [.add "a=1; domain=.".toList "evil.com".toList "/".toList]
    ⟨['a'], ['1'], none, some ['/'], some ['.'], false⟩
    "a=1; domain=.".toList "evil.com".toList "/".toList "bank.com".toList "/".toList 0
    (List.forall_mem_singleton.2 trivial) (by decide) (by decide)
    ⟨[], [], rfl, by decide +kernel⟩ (by decide +kernel)
  exact reached.2.2 (by decide +kernel)

end Jar

/-! ## One value for one cookie -/

/-- What makes two cookies the same to a host: the name, the path and the domain as it
is compared. -/
def Cookie.scope (cookie : Cookie) : Text × Text × Text :=
  (cookie.name, cookie.path.getD [], cookie.reach)

namespace Jar

def Change.IsAddition (change : Change) : Prop :=
  ∃ raw host path, change = .add raw host path

private theorem nodup_scopes_of_spelt {changes : List Change} {spelt : Text → Prop}
    (single : ∀ domain other, spelt domain → spelt other →
      Cookie.foldedDomain domain = Cookie.foldedDomain other → domain = other)
    (stored : ∀ change cookie, Stores changes change cookie → spelt (cookie.domain.getD [])) :
    ((after changes).cookies.map Cookie.scope).Nodup := by
  have written : ∀ cookie ∈ (after changes).cookies, spelt (cookie.domain.getD []) := by
    intro cookie member
    obtain ⟨change, stores⟩ := stores_of_mem member
    exact stored change cookie stores
  refine (ordered_cookies changes).nodup_map fun earlier listed later present same => ?_
  simp only [Cookie.scope, Prod.mk.injEq] at same
  obtain ⟨name, path, folded⟩ := same
  have domain := single _ _ (written earlier listed) (written later present) folded
  exact ⟨name.symm, domain ▸ List.suffix_rfl, path ▸ List.prefix_rfl⟩

def hostCookie (value : Char) (host : Text) : Cookie :=
  ⟨['n'], [value], none, some ['/'], some host, false⟩

theorem accepted?_hostCookie (jar : Jar) (host : Text) {value : Char}
    (oneOrTwo : value = '1' ∨ value = '2') :
    jar.accepted? ['n', '=', value] host ['/'] = some (hostCookie value host) := by
  let plain : Cookie := ⟨['n'], [value], none, none, none, false⟩
  have parsed : Cookie.parse? ['n', '=', value] = some plain := by
    rcases oneOrTwo with rfl | rfl <;> decide +kernel
  have covers : (completed plain host).covers host ['/'] = true :=
    covers_completed rfl rfl host List.prefix_rfl
  exact accepted?_eq_some_iff.2 ⟨plain, parsed, rfl, .inr covers⟩

def respelling (host other : Text) : List Change :=
  [.add ['n', '=', '1'] host ['/'], .add ['n', '=', '2'] other ['/']]

private theorem cookies_respelling {host other : Text} (apart : ¬ host <:+ other) :
    (after (respelling host other)).cookies = [hostCookie '1' host, hostCookie '2' other] := by
  have beside : ¬ (hostCookie '2' other).Narrows (hostCookie '1' host) :=
    fun narrows => apart narrows.domain
  have passed : (hostCookie '2' other).replaces (hostCookie '1' host) ≠ true :=
    mt Cookie.replaces_iff.1 beside
  simp only [respelling, after, List.foldl_cons, List.foldl_nil, apply,
    add_of_accepted (accepted?_hostCookie _ host (.inl rfl)),
    add_of_accepted (accepted?_hostCookie _ other (.inr rfl))]
  simp only [Jar.insert, empty, place, if_neg passed]

private theorem domain_of_stores_respelling {host other : Text} {change : Change} {cookie : Cookie}
    (stores : Stores (respelling host other) change cookie) :
    cookie.domain.getD [] = host ∨ cookie.domain.getD [] = other := by
  obtain ⟨earlier, later, split, stored⟩ := stores
  have member : change ∈ respelling host other := by rw [split]; simp
  simp only [respelling, List.mem_cons, List.not_mem_nil, or_false] at member
  rcases member with rfl | rfl
  · rw [stored?, accepted?_hostCookie _ host (.inl rfl)] at stored
    cases stored
    exact .inl rfl
  · rw [stored?, accepted?_hostCookie _ other (.inr rfl)] at stored
    cases stored
    exact .inr rfl

/-- Servers never leave two values of one cookie in a jar, or in a request, exactly if no
domain that they use is spelt in two ways. -/
theorem distinct_scopes_iff (spelt : Text → Prop) :
    (∀ changes : List Change, (∀ change ∈ changes, change.IsAddition) →
        (∀ change cookie, Stores changes change cookie → spelt (cookie.domain.getD [])) →
        ((after changes).cookies.map Cookie.scope).Nodup ∧
          ∀ now host path, (((after changes).sentTo now host path).map Cookie.scope).Nodup) ↔
      ∀ domain other, spelt domain → spelt other →
        Cookie.foldedDomain domain = Cookie.foldedDomain other → domain = other := by
  constructor
  · intro always domain other first second same
    -- Of two spellings one does not end with the other, and a jar that gets it first keeps both.
    have ends {host later : Text} (spelling : spelt host) (respelt : spelt later)
        (folded : Cookie.foldedDomain host = Cookie.foldedDomain later) : host <:+ later := by
      by_contra apart
      have additions : ∀ change ∈ respelling host later, change.IsAddition := by
        simp only [respelling, List.forall_mem_cons]
        exact ⟨⟨_, _, _, rfl⟩, ⟨_, _, _, rfl⟩, nofun⟩
      have written : ∀ change cookie, Stores (respelling host later) change cookie →
          spelt (cookie.domain.getD []) := by
        intro change cookie stores
        rcases domain_of_stores_respelling stores with domain | domain
        · rw [domain]
          exact spelling
        · rw [domain]
          exact respelt
      have distinct := (always (respelling host later) additions written).1
      rw [cookies_respelling apart] at distinct
      simp [Cookie.scope, Cookie.reach, hostCookie, folded] at distinct
    have one := ends first second same
    have two := ends second first same.symm
    exact one.eq_of_length_le two.length_le
  · intro single changes _ stored
    have distinct := nodup_scopes_of_spelt single stored
    refine ⟨distinct, ?_⟩
    intro now host path
    exact distinct.sublist (List.filter_sublist.map _)

/-- A domain with a leading dot and then without one: both values are kept and sent. -/
theorem not_distinct_scopes_of_respelt :
    (¬ ∀ changes : List Change, (∀ change ∈ changes, change.IsAddition) →
        ((after changes).cookies.map Cookie.scope).Nodup) ∧
      (after [.add "id=1; domain=.example.com".toList "www.example.com".toList ['/'],
        .add "id=2; domain=example.com".toList "www.example.com".toList ['/']]).field? 0
          "www.example.com".toList ['/'] = some "id=1; id=2".toList := by
  refine ⟨fun always => ?_, by decide +kernel⟩
  have distinct := always
    [.add "id=1; domain=.example.com".toList "www.example.com".toList ['/'],
      .add "id=2; domain=example.com".toList "www.example.com".toList ['/']]
    (List.forall_mem_cons.2 ⟨⟨_, _, _, rfl⟩, List.forall_mem_singleton.2 ⟨_, _, _, rfl⟩⟩)
  exact absurd distinct (by decide +kernel)

end Jar

end WebClient
