import WebClient.Cookie

/-!
# Cookie jars

A jar keeps the cookies of one session in the order in which they first came.
A new cookie takes the place of the first one it replaces. Expired cookies stay,
and are sent as well unless the jar is told to enforce expiry.
-/

set_option autoImplicit false

namespace WebClient

structure Jar where
  cookies : List Cookie
  allowForeign : Bool
  enforceExpiry : Bool
  deriving DecidableEq, Repr

namespace Jar

def empty (allowForeign : Bool) : Jar :=
  ⟨[], allowForeign, false⟩

/-- Puts a cookie in the place of the first one it replaces, or at the end. -/
def place (cookie : Cookie) : List Cookie → List Cookie
  | [] => [cookie]
  | older :: rest =>
    if cookie.replaces older then cookie :: rest else older :: place cookie rest

def insert (jar : Jar) (cookie : Cookie) : Jar :=
  { jar with cookies := place cookie jar.cookies }

/-- A cookie with what it leaves open taken from the request: the domain is the
request's host, the path is the root. -/
def completed (cookie : Cookie) (host : Text) : Cookie :=
  { cookie with
    domain := some (cookie.domain.getD host)
    path := some (cookie.path.getD ['/']) }

/-- The cookie that a `Set-Cookie` value received for a host and path adds to the
jar. A cookie that does not apply to its own request is foreign, and is
turned away unless the jar allows it. -/
def accepted? (jar : Jar) (raw host path : Text) : Option Cookie :=
  ((Cookie.parse? raw).map fun cookie => completed cookie host).filter fun cookie =>
    jar.allowForeign || cookie.covers host path

/-- Adds the cookie of a `Set-Cookie` value, and tells whether it was kept. -/
def add (jar : Jar) (raw host path : Text) : Jar × Bool :=
  match jar.accepted? raw host path with
  | some cookie => (jar.insert cookie, true)
  | none => (jar, false)

def sentTo (jar : Jar) (now : Int) (host path : Text) : List Cookie :=
  jar.cookies.filter fun cookie =>
    (jar.allowForeign || cookie.covers host path)
      && !(jar.enforceExpiry && cookie.isExpired now)

def field? (jar : Jar) (now : Int) (host path : Text) : Option Text :=
  match jar.sentTo now host path with
  | [] => none
  | cookies => some (List.intercalate "; ".toList (cookies.map Cookie.pair))

def clear (jar : Jar) : Jar :=
  { jar with cookies := [] }

variable {jar later : Jar} {now : Int} {raw host path : Text} {cookie : Cookie}

theorem accepted?_eq_some_iff :
    jar.accepted? raw host path = some cookie ↔
      ∃ parsed, Cookie.parse? raw = some parsed ∧ cookie = completed parsed host ∧
        (jar.allowForeign = true ∨ cookie.covers host path = true) := by
  simp only [accepted?, Option.filter_eq_some_iff, Option.map_eq_some_iff, Bool.or_eq_true]
  constructor
  · rintro ⟨⟨parsed, read, rfl⟩, allowed⟩
    exact ⟨parsed, read, rfl, allowed⟩
  · rintro ⟨parsed, read, rfl, allowed⟩
    exact ⟨⟨parsed, read, rfl⟩, allowed⟩

theorem add_of_accepted (accepted : jar.accepted? raw host path = some cookie) :
    jar.add raw host path = (jar.insert cookie, true) := by
  simp only [add, accepted]

theorem accepted?_of_add (kept : jar.add raw host path = (later, true)) :
    ∃ cookie, jar.accepted? raw host path = some cookie ∧ later = jar.insert cookie := by
  cases accepted : jar.accepted? raw host path with
  | none => simp [add, accepted] at kept
  | some cookie =>
    rw [add_of_accepted accepted, Prod.mk.injEq] at kept
    exact ⟨cookie, rfl, kept.1.symm⟩

theorem mem_sentTo_iff :
    cookie ∈ jar.sentTo now host path ↔
      cookie ∈ jar.cookies ∧ (jar.allowForeign = true ∨ cookie.covers host path = true) ∧
        ¬ (jar.enforceExpiry = true ∧ cookie.isExpired now = true) := by
  simp only [sentTo, List.mem_filter, Bool.and_eq_true, Bool.or_eq_true, Bool.not_eq_true',
    ← Bool.not_eq_true]

theorem sentTo_of_lenient (lenient : jar.enforceExpiry = false) :
    jar.sentTo now host path =
      jar.cookies.filter fun cookie => jar.allowForeign || cookie.covers host path := by
  simp [sentTo, lenient]

theorem field?_of_ne_nil (sent : jar.sentTo now host path ≠ []) :
    jar.field? now host path =
      some (List.intercalate "; ".toList ((jar.sentTo now host path).map Cookie.pair)) := by
  unfold field?
  split
  · contradiction
  · rfl

end Jar

end WebClient
