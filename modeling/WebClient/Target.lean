import WebClient.Failure
import WebClient.Text.Blank
import WebClient.Text.Cut
import WebClient.Text.Fold

/-!
# Request targets

A target is what one request is addressed to: scheme, host, port and path. It is
read from a URL as typed by a caller or found in a page, with blanks around it
and `&amp;` for `&`. Reading is lenient about everything but the scheme, the port
and the host: a missing scheme is `http`, and user information and fragments are
dropped.
-/

set_option autoImplicit false

namespace WebClient

inductive Scheme
  | http
  | https
  deriving DecidableEq, Repr

namespace Scheme

def name : Scheme → Text
  | http => "http".toList
  | https => "https".toList

def defaultPort : Scheme → UInt16
  | http => 80
  | https => 443

def ofName? (name : Text) : Option Scheme :=
  let folded := Text.lower name
  if folded = "http".toList then some http
  else if folded = "https".toList then some https
  else none

end Scheme

/-- Where a request goes. The path starts with a slash and includes the query. -/
structure Target where
  scheme : Scheme
  host : Text
  port : UInt16
  path : Text
  deriving DecidableEq, Repr

namespace Target

/-- Every `&amp;`, from the left, replaced by `&`. What a replacement produces is
not looked at again. -/
def unescape : Text → Text
  | '&' :: 'a' :: 'm' :: 'p' :: ';' :: rest => '&' :: unescape rest
  | c :: rest => c :: unescape rest
  | [] => []

def isSchemeChar (c : Char) : Bool :=
  c.isAlphanum || c == '+' || c == '-' || c == '.'

/-- The scheme name of an absolute URL and what follows its `://`. A URL further
on, in a path or query, does not count. -/
def splitScheme? (url : Text) : Option (Text × Text) :=
  match url.takeWhile isSchemeChar, url.dropWhile isSchemeChar with
  | first :: rest, ':' :: '/' :: '/' :: after =>
    if first.isAlpha then some (first :: rest, after) else none
  | _, _ => none

/-- The scheme and the part after it, `http` if none is named. -/
def schemeAndRest? (url : Text) : Option (Scheme × Text) :=
  match splitScheme? url with
  | some (name, after) => (Scheme.ofName? name).map fun scheme => (scheme, after)
  | none => some (.http, url)

/-- Host and port of an authority. User information, up to the last `@`, is
dropped; the port stands after the last colon. -/
def hostAndPort? (scheme : Scheme) (authority : Text) : Option (Text × UInt16) :=
  let address := match Text.cutLast? '@' authority with
    | some (_, address) => address
    | none => authority
  let split := match Text.cutLast? ':' address with
    | some (host, port) => (Text.decimal? Text.max16 port).map fun port => (host, UInt16.ofNat port)
    | none => some (address, scheme.defaultPort)
  split.filter fun (host, _) => !host.isEmpty && !host.any Text.isBlank

def rooted : Text → Text
  | [] => ['/']
  | '?' :: query => '/' :: '?' :: query
  | path => path

def endsAuthority (c : Char) : Bool :=
  c == '/' || c == '?'

def ofClean? (url : Text) : Option Target := do
  let (scheme, rest) ← schemeAndRest? url
  let rest := Text.before '#' rest
  let (host, port) ← hostAndPort? scheme (rest.takeWhile fun c => !endsAuthority c)
  return {
    scheme
    host := Text.lower host
    port
    path := rooted (rest.dropWhile fun c => !endsAuthority c) }

def parse (url : Text) : Except Failure Target :=
  match ofClean? (unescape (Text.trim url)) with
  | some target => .ok target
  | none => .error (.invalidUrl url)

/-- Host, with the port if it is not the scheme's own. This is also the value of
the `Host` header. -/
def authority (target : Target) : Text :=
  if target.port = target.scheme.defaultPort then target.host
  else target.host ++ ':' :: Text.ofNat target.port.toNat

def origin (target : Target) : Text :=
  target.scheme.name ++ "://".toList ++ target.authority

def url (target : Target) : Text :=
  target.origin ++ target.path

def pathOnly (target : Target) : Text :=
  Text.before '?' target.path

def directory (target : Target) : Text :=
  match Text.cutLast? '/' target.pathOnly with
  | some (before, _) => before ++ ['/']
  | none => ['/']

/-- The absolute URL that a reference found on the target's page stands for. -/
def resolve (target : Target) (reference : Text) : Text :=
  let reference := unescape (Text.trim reference)
  if (splitScheme? reference).isSome then reference
  else match reference with
    | '/' :: '/' :: rest => target.scheme.name ++ "://".toList ++ rest
    | '/' :: _ => target.origin ++ reference
    | '?' :: _ => target.origin ++ target.pathOnly ++ reference
    | [] => target.url
    | _ => target.origin ++ target.directory ++ reference

/-- The parts that the target of a URL was put together from. -/
theorem exists_of_parse {text : Text} {target : Target} (accepted : parse text = .ok target) :
    ∃ scheme after host port,
      schemeAndRest? (unescape (Text.trim text)) = some (scheme, after) ∧
      hostAndPort? scheme ((Text.before '#' after).takeWhile fun c => !endsAuthority c) =
        some (host, port) ∧
      target = ⟨scheme, Text.lower host, port,
        rooted ((Text.before '#' after).dropWhile fun c => !endsAuthority c)⟩ := by
  unfold parse at accepted
  split at accepted
  · rename_i found cleaned
    cases accepted
    unfold ofClean? at cleaned
    simp only [Option.bind_eq_bind, Option.bind_eq_some_iff] at cleaned
    obtain ⟨⟨scheme, after⟩, named, ⟨host, port⟩, split, made⟩ := cleaned
    cases made
    exact ⟨scheme, after, host, port, named, split, rfl⟩
  · cases accepted

theorem exists_rooted_eq_cons (text : Text) :
    ∃ rest, rooted (text.dropWhile fun c => !endsAuthority c) = '/' :: rest := by
  cases path : text.dropWhile fun c => !endsAuthority c with
  | nil => exact ⟨[], rfl⟩
  | cons first rest =>
    have stops : endsAuthority first = true := by
      have head := List.head?_dropWhile_not (fun c => !endsAuthority c) text
      rw [path] at head
      simpa using head
    simp only [endsAuthority, Bool.or_eq_true, beq_iff_eq] at stops
    rcases stops with rfl | rfl
    · exact ⟨rest, rfl⟩
    · exact ⟨'?' :: rest, rfl⟩

end Target

end WebClient
