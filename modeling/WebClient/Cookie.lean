import WebClient.Cookie.Expiry
import WebClient.Failure
import WebClient.Text.Cut

/-!
# Cookies

A cookie is read from the value of a `Set-Cookie` field: the name and value come
before the first semicolon, the attributes after it. Its domain and path say
where it applies: a host ends with the domain, and a path starts with the path.
The same containment, of the written domains and paths, decides which older
cookie a new one replaces.
-/

set_option autoImplicit false

namespace WebClient

structure Cookie where
  name : Text
  value : Text
  expires : Option DateTime
  path : Option Text
  domain : Option Text
  isSecure : Bool
  deriving DecidableEq, Repr

namespace Cookie

/-- The value of the first attribute spelt like `key` in any ASCII case, up to
the next semicolon and without blanks around it. An empty value is no value. -/
def attribute? (key attributes : Text) : Option Text :=
  match Text.cutFolded? key attributes with
  | some (_, after) =>
    let value := Text.trim (Text.before ';' after)
    if value.isEmpty then none else some value
  | none => none

/-- Whether one of the attributes is the word `secure`, in any ASCII case. -/
def marksSecure (attributes : Text) : Bool :=
  (attributes.splitOn ';').any fun piece =>
    Text.trim (Text.lower piece) == "secure".toList

def splitAttributes (raw : Text) : Text × Text :=
  (Text.cutFirst? ';' raw).getD (raw, [])

def expiryText? (raw : Text) : Option Text :=
  attribute? "expires=".toList (splitAttributes (Text.trim raw)).2

/-- The cookie a `Set-Cookie` value describes. There is none without a name. -/
def parse? (raw : Text) : Option Cookie := do
  let (pair, attributes) := splitAttributes (Text.trim raw)
  let (name, value) ← Text.cutFirst? '=' pair
  let name := Text.trim name
  if name.isEmpty then none
  else some {
    name
    value := Text.trim value
    expires := (expiryText? raw).bind Expiry.parse?
    path := attribute? "path=".toList attributes
    domain := attribute? "domain=".toList attributes
    isSecure := marksSecure attributes }

/-- A domain as it is compared: in small letters and without dots in front. -/
def foldedDomain (domain : Text) : Text :=
  Text.lower (domain.dropWhile (· == '.'))

/-- Whether the cookie applies to a request: the host ends with its domain and
the path starts with its path. A missing domain or path excludes nothing. -/
def covers (cookie : Cookie) (host path : Text) : Bool :=
  (match cookie.domain with
    | some domain => (foldedDomain domain).isSuffixOf (Text.lower host)
    | none => true)
  && (match cookie.path with
    | some covered => covered.isPrefixOf path
    | none => true)

/-- The cookie as it is sent: `name=value`, the value cut at a semicolon. -/
def pair (cookie : Cookie) : Text :=
  cookie.name ++ '=' :: Text.before ';' cookie.value

/-- Whether the cookie takes the place of an older one: the names are the same,
its domain ends with the older domain and its path starts with the older path,
as written. A missing domain or path counts as empty. -/
def replaces (cookie older : Cookie) : Bool :=
  cookie.name == older.name
    && (older.domain.getD []).isSuffixOf (cookie.domain.getD [])
    && (older.path.getD []).isPrefixOf (cookie.path.getD [])

/-- Whether the cookie has expired by a given time. Without an expiry it never does. -/
def isExpired (cookie : Cookie) (now : Int) : Bool :=
  cookie.expires.any fun time => time.isPast now

/-- What is reported when a `Set-Cookie` value is read: a warning if there is no
cookie in it, or if its expiry cannot be read. -/
def reports (raw : Text) : Journal :=
  match parse? raw with
  | none => [.warning]
  | some cookie =>
    if (expiryText? raw).isSome && cookie.expires.isNone then [.warning] else []

end Cookie

end WebClient
