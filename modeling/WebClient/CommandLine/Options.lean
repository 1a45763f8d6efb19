import WebClient.Config
import WebClient.Failure
import WebClient.Text.Cut

/-!
# Command line options

The arguments of the command are one word, the verb, and options. An option is
written with two hyphens, or with one if it is long enough not to be a letter.
Its value follows as an argument of its own or, if there is just one, behind an
equals sign. No option is given twice, but a switch takes back its opposite, and
may then be given again.
-/

set_option autoImplicit false

namespace WebClient.CommandLine

/-- An argument as it is read: option names are in small letters and have two
hyphens in front. -/
def normalise : Text → Text
  | '-' :: '-' :: rest => Text.lower ('-' :: '-' :: rest)
  | '-' :: letter :: next :: rest =>
    if letter.isAlpha then '-' :: Text.lower ('-' :: letter :: next :: rest)
    else '-' :: letter :: next :: rest
  | argument => argument

inductive Setting
  | url
  | outfile
  | file
  | parameters
  | contentType
  | accept
  | userAgent
  | recursionLimit
  | timeout
  deriving DecidableEq, Repr

inductive Pairing
  | proxy
  | authentication
  deriving DecidableEq, Repr

inductive Switch
  | debug
  | noDebug
  | verbose
  | noVerbose
  | autoRedirect
  | noAutoRedirect
  | allowCookies
  | noAllowCookies
  | noReferer
  | noUserAgent
  | noHost
  | noAccept
  | noContentType
  | lineFeeds
  deriving DecidableEq, Repr

def Switch.opposite? : Switch → Option Switch
  | debug => some noDebug
  | noDebug => some debug
  | verbose => some noVerbose
  | noVerbose => some verbose
  | autoRedirect => some noAutoRedirect
  | noAutoRedirect => some autoRedirect
  | allowCookies => some noAllowCookies
  | noAllowCookies => some allowCookies
  | _ => none

inductive Name
  | setting (setting : Setting)
  | pairing (pairing : Pairing)
  | switch (switch : Switch)
  | help
  | version
  deriving DecidableEq, Repr

def names : List (String × Name) := [
  ("url", .setting .url), ("outfile", .setting .outfile), ("file", .setting .file),
  ("parameters", .setting .parameters), ("contenttypestring", .setting .contentType),
  ("acceptstring", .setting .accept), ("useragent", .setting .userAgent),
  ("recursionlimit", .setting .recursionLimit), ("requesttimeout", .setting .timeout),
  ("useproxyserver", .pairing .proxy), ("useauthentication", .pairing .authentication),
  ("debug", .switch .debug), ("nodebug", .switch .noDebug),
  ("verbose", .switch .verbose), ("noverbose", .switch .noVerbose),
  ("autoredirect", .switch .autoRedirect), ("noautoredirect", .switch .noAutoRedirect),
  ("allowcookies", .switch .allowCookies), ("noallowcookies", .switch .noAllowCookies),
  ("noreferer", .switch .noReferer), ("nouseragent", .switch .noUserAgent),
  ("nohost", .switch .noHost), ("noaccept", .switch .noAccept),
  ("nocontenttype", .switch .noContentType), ("nolf", .switch .lineFeeds),
  ("help", .help), ("version", .version)]

def Name.of? (name : Text) : Option Name :=
  (names.find? fun entry => entry.1.toList == name).map Prod.snd

structure Options where
  verb : Option Text
  settings : List (Setting × Text)
  pairings : List (Pairing × Text × Text)
  switches : List Switch
  deriving DecidableEq, Repr

namespace Options

def none : Options :=
  ⟨.none, [], [], []⟩

def setting? (options : Options) (setting : Setting) : Option Text :=
  (options.settings.find? fun entry => entry.1 == setting).map Prod.snd

def pairing? (options : Options) (pairing : Pairing) : Option (Text × Text) :=
  (options.pairings.find? fun entry => entry.1 == pairing).map Prod.snd

def isOn (options : Options) (switch : Switch) : Bool :=
  options.switches.contains switch

/-- A number with an optional sign, at most `bound` and not below zero. -/
def signed? (bound : Nat) : Text → Option Nat
  | '-' :: digits =>
    if digits.isEmpty || !digits.all (· == '0') then .none else some 0
  | text => Text.decimal? bound text

def limit? (value : Text) : Option Nat :=
  signed? Text.max32 value

def milliseconds? (value : Text) : Option Nat :=
  Text.decimal? Text.max64 value

/-- Whether an option can have a value: paths are not empty, and numbers are
numbers. -/
def admits : Setting → Text → Bool
  | .outfile, value | .file, value => !value.isEmpty
  | .recursionLimit, value => (limit? value).isSome
  | .timeout, value => (milliseconds? value).isSome
  | _, _ => true

def set? (options : Options) (setting : Setting) (value : Text) : Option Options :=
  if (options.setting? setting).isSome || !admits setting value then .none
  else some { options with settings := options.settings ++ [(setting, value)] }

def pair? (options : Options) (pairing : Pairing) (first second : Text) : Option Options :=
  if (options.pairing? pairing).isSome then .none
  else some { options with pairings := options.pairings ++ [(pairing, first, second)] }

/-- Adds a switch and takes its opposite back, unless it is there already. -/
def turn? (options : Options) (switch : Switch) : Option Options :=
  if options.isOn switch then .none
  else
    let others := options.switches.filter fun other => switch.opposite? != some other
    some { options with switches := others ++ [switch] }

def say? (options : Options) (verb : Text) : Option Options :=
  if options.verb.isSome then .none else some { options with verb := some verb }

end Options

inductive Reading
  | options (options : Options)
  | help
  | version
  | misuse
  deriving DecidableEq, Repr

/-- Whether an argument is a word, not an option. A lone hyphen is a word. -/
def isWord : Text → Bool
  | '-' :: _ :: _ => false
  | _ => true

/-- Reads arguments of which all are words, whatever they look like. -/
def readWords (options : Options) : List Text → Reading
  | [] => .options options
  | word :: rest =>
    match options.say? word with
    | some options => readWords options rest
    | none => .misuse

/-- An argument: what stands in front of the words, an option with the value that is
attached to it, or a word. -/
inductive Argument
  | divider
  | option (name : Name) (value : Option Text)
  | unknown
  | word (word : Text)
  deriving DecidableEq, Repr

def Argument.of : Text → Argument
  | ['-', '-'] => .divider
  | ['-', 'h'] => .option .help none
  | ['-', 'V'] => .option .version none
  | '-' :: '-' :: text =>
    let (name, value) := match Text.cutFirst? '=' text with
      | some (name, value) => (name, some value)
      | none => (text, none)
    match Name.of? name with
    | some name => .option name value
    | none => .unknown
  | text => if isWord text then .word text else .unknown

/-- Reads arguments, one after the other, up to the first that settles everything. -/
def readFrom (options : Options) : List Text → Reading
  | [] => .options options
  | argument :: rest =>
    match Argument.of argument with
    | .divider => readWords options rest
    | .unknown => .misuse
    | .word word =>
      match options.say? word with
      | some options => readFrom options rest
      | none => .misuse
    | .option .help none => .help
    | .option .version none => .version
    | .option (.switch switch) none =>
      match options.turn? switch with
      | some options => readFrom options rest
      | none => .misuse
    | .option (.setting setting) (some value) =>
      match options.set? setting value with
      | some options => readFrom options rest
      | none => .misuse
    | .option (.setting setting) none =>
      match rest with
      | value :: rest =>
        if isWord value then
          match options.set? setting value with
          | some options => readFrom options rest
          | none => .misuse
        else .misuse
      | [] => .misuse
    | .option (.pairing pairing) none =>
      match rest with
      | first :: second :: rest =>
        if isWord first && isWord second then
          match options.pair? pairing first second with
          | some options => readFrom options rest
          | none => .misuse
        else .misuse
      | _ => .misuse
    | .option _ (some _) => .misuse

def read (arguments : List Text) : Reading :=
  readFrom .none (arguments.map normalise)

end WebClient.CommandLine
