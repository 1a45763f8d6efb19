import WebClient.Proofs.CookieDomain
import WebClient.Proofs.Runs
import WebClient.Target

/-!
# The cookies of a request

What a server has written into a cookie is free of the marks that separate cookies
in a request, so the names and values can be read back from the field that is sent.
-/

set_option autoImplicit false

namespace WebClient

namespace Target

private theorem root_prefix_pathOnly {url : Text} {target : Target}
    (accepted : parse url = .ok target) : ['/'] <+: target.pathOnly := by
  obtain ⟨scheme, after, host, port, -, -, rfl⟩ := exists_of_parse accepted
  obtain ⟨rest, path⟩ := exists_rooted_eq_cons (Text.before '#' after)
  rw [pathOnly, path]
  exact ⟨rest.takeWhile (· ≠ '?'), rfl⟩

end Target

namespace Cookie

theorem IsSeparable.pair_eq {cookie : Cookie} (separable : cookie.IsSeparable) :
    cookie.pair = cookie.name ++ '=' :: cookie.value := by
  rw [pair, Text.before_eq_self separable.value]

theorem IsSeparable.cutFirst?_pair {cookie : Cookie} (separable : cookie.IsSeparable) :
    Text.cutFirst? '=' cookie.pair = some (cookie.name, cookie.value) := by
  rw [separable.pair_eq, Text.cutFirst?_append_cons separable.single]

theorem IsSeparable.not_mem_pair {cookie : Cookie} (separable : cookie.IsSeparable) :
    ';' ∉ cookie.pair := by
  simp [separable.pair_eq, separable.name, separable.value]

end Cookie

namespace Jar

variable {jar later : Jar} {changes : List Change} {cookie : Cookie} {raw host path : Text}

/-! ## What a jar is told -/

private theorem add_of_isNamed (jar : Jar) {url : Text} {target : Target}
    (accepted : Target.parse url = .ok target) (named : Cookie.IsNamed raw)
    (noDomain : Cookie.domainText? raw = none) (noPath : Cookie.pathText? raw = none) :
    (jar.add raw target.host target.pathOnly).2 = true := by
  obtain ⟨cookie, parsed⟩ := Option.isSome_iff_exists.1 (Cookie.isSome_parse?_iff.2 named)
  obtain ⟨name, value, -, -, made⟩ := Cookie.parse?_eq_some_iff.1 parsed
  have domain : cookie.domain = none := by rw [made]; exact noDomain
  have path : cookie.path = none := by rw [made]; exact noPath
  have covers := covers_completed domain path target.host (Target.root_prefix_pathOnly accepted)
  rw [add_of_accepted (accepted?_eq_some_iff.2 ⟨cookie, parsed, rfl, .inr covers⟩)]

theorem isSeparable_of_accepted? (accepted : jar.accepted? raw host path = some cookie) :
    cookie.IsSeparable := by
  obtain ⟨parsed, read, rfl, -⟩ := accepted?_eq_some_iff.1 accepted
  have separable := Cookie.isSeparable_of_parse? read
  exact ⟨separable.single, separable.name, separable.value⟩

private theorem isSeparable_of_mem (served : ∀ cookie, Change.insert cookie ∉ changes)
    (member : cookie ∈ (after changes).cookies) : cookie.IsSeparable := by
  obtain ⟨change, stores⟩ := stores_of_mem member
  obtain ⟨raw, host, path, rfl⟩ := exists_add_of_stores served stores
  obtain ⟨earlier, later, -, stored⟩ := stores
  exact isSeparable_of_accepted? stored

/-! ## What a request tells -/

/-- The names and values in a `Cookie` field: it is split at each `; `, and what is between
at the first equals sign. -/
def readField (field : Text) : List (Option (Text × Text)) :=
  (Text.splitRun "; ".toList field).map (Text.cutFirst? '=')

private theorem readField_intercalate {cookies : List Cookie} (nonempty : cookies ≠ [])
    (separable : ∀ cookie ∈ cookies, cookie.IsSeparable) :
    readField (List.intercalate "; ".toList (cookies.map Cookie.pair)) =
      cookies.map fun cookie => some (cookie.name, cookie.value) := by
  have pieces : Text.splitRun "; ".toList
      (List.intercalate "; ".toList (cookies.map Cookie.pair)) = cookies.map Cookie.pair := by
    refine Text.splitRun_intercalate (by simpa using nonempty) ?_
    rw [List.forall_mem_map]
    exact fun cookie member => (separable cookie member).not_mem_pair
  rw [readField, pieces, List.map_map]
  exact List.map_congr_left fun cookie member => (separable cookie member).cutFirst?_pair

private theorem exists_field?_of_add (separable : ∀ cookie ∈ jar.cookies, cookie.IsSeparable)
    (lenient : jar.enforceExpiry = false) (kept : jar.add raw host path = (later, true))
    (now : Int) :
    ∃ field cookie, later.field? now host path = some field ∧
      readField field =
        (later.cookies.filter fun cookie => later.allowForeign || cookie.covers host path).map
          (fun cookie => some (cookie.name, cookie.value)) ∧
      Cookie.parse? raw = some cookie ∧ some (cookie.name, cookie.value) ∈ readField field := by
  obtain ⟨cookie, accepted, rfl⟩ := accepted?_of_add kept
  obtain ⟨parsed, read, completion, allowed⟩ := accepted?_eq_some_iff.1 accepted
  have stillLenient : (jar.insert cookie).enforceExpiry = false := lenient
  have sent : cookie ∈ (jar.insert cookie).sentTo now host path :=
    mem_sentTo_iff.2 ⟨mem_place_self cookie jar.cookies, allowed, by simp [stillLenient]⟩
  have nonempty := List.ne_nil_of_mem sent
  have told : readField (List.intercalate "; ".toList
      (((jar.insert cookie).sentTo now host path).map Cookie.pair)) =
        ((jar.insert cookie).sentTo now host path).map fun cookie =>
          some (cookie.name, cookie.value) := by
    refine readField_intercalate nonempty fun other member => ?_
    rcases eq_or_mem_of_mem_place (mem_sentTo_iff.1 member).1 with rfl | older
    · exact isSeparable_of_accepted? accepted
    · exact separable other older
  refine ⟨_, parsed, field?_of_ne_nil nonempty, ?_, read, ?_⟩
  · rw [told, sentTo_of_lenient stillLenient]
  · rw [told, List.mem_map]
    exact ⟨cookie, sent, by rw [completion]; rfl⟩

/-- After a cookie was accepted, a request to where it came from tells the names and values
of all the cookies that apply, its own among them; and a cookie that leaves domain and path
open is always accepted from a target. -/
theorem readField_of_add (served : ∀ cookie, Change.insert cookie ∉ changes)
    (lenient : (after changes).enforceExpiry = false) (now : Int) (raw host path : Text) :
    (∀ jar, (after changes).add raw host path = (jar, true) →
      ∃ field cookie, jar.field? now host path = some field ∧
        readField field =
          (jar.cookies.filter fun cookie => jar.allowForeign || cookie.covers host path).map
            (fun cookie => some (cookie.name, cookie.value)) ∧
        Cookie.parse? raw = some cookie ∧ some (cookie.name, cookie.value) ∈ readField field) ∧
      ∀ url target, Target.parse url = .ok target → Cookie.IsNamed raw →
        Cookie.domainText? raw = none → Cookie.pathText? raw = none →
        ((after changes).add raw target.host target.pathOnly).2 = true := by
  constructor
  · intro jar kept
    exact exists_field?_of_add (fun cookie member => isSeparable_of_mem served member)
      lenient kept now
  · intro url target accepted named noDomain noPath
    exact add_of_isNamed _ accepted named noDomain noPath

theorem readField_of_add_of_three :
    let changes := [Change.add "a=1".toList "h.com".toList ['/'],
      .add " b = x=y ; Domain=.COM".toList "www.h.com".toList ['/']]
    let field := "a=1; b=x=y; c=".toList
    (∃ jar, (after changes).add "c=; path=/d".toList "h.com".toList "/d/e".toList = (jar, true) ∧
        jar.field? 0 "h.com".toList "/d/e".toList = some field ∧
        readField field = [some (['a'], ['1']), some (['b'], "x=y".toList), some (['c'], [])]) ∧
      ((after changes).add "c=".toList "h.com".toList "/d".toList).2 = true := by
  intro changes field
  have served : ∀ cookie, Change.insert cookie ∉ changes := by
    intro cookie
    simp [changes]
  have lenient : (after changes).enforceExpiry = false := by decide +kernel
  constructor
  · obtain ⟨told, -⟩ :=
      readField_of_add served lenient 0 "c=; path=/d".toList "h.com".toList "/d/e".toList
    have kept : (after changes).add "c=; path=/d".toList "h.com".toList "/d/e".toList =
        (((after changes).add "c=; path=/d".toList "h.com".toList "/d/e".toList).1, true) := by
      decide +kernel
    obtain ⟨sent, -, shown, read, -⟩ := told _ kept
    have same : sent = field := by
      refine Option.some.inj (shown.symm.trans ?_)
      decide +kernel
    subst same
    exact ⟨_, kept, shown, read.trans (by decide +kernel)⟩
  · obtain ⟨-, accepts⟩ := readField_of_add served lenient 0 "c=".toList [] []
    have target : Target.parse "http://H.com/d?q".toList =
        .ok ⟨.http, "h.com".toList, 80, "/d?q".toList⟩ := by decide +kernel
    have named : Cookie.IsNamed "c=".toList := Cookie.isSome_parse?_iff.1 (by decide +kernel)
    exact accepts _ _ target named (by decide +kernel) (by decide +kernel)

end Jar

end WebClient
