import WebClient.Text.Cut
import WebClient.Text.Decimal

/-!
# Host addresses and names

Which hosts are literal addresses, which can be looked up at all, and which a secure
channel can name: the literal addresses, and domain names whose labels are letters,
digits, hyphens and underscores, of at most 63 characters, with no hyphen at either
end, the last of them not all digits.
-/

set_option autoImplicit false

namespace WebClient.Address

def isOctet (text : Text) : Bool :=
  text.length ≤ 3 && !text.isEmpty && text.all Char.isDigit
    && (text.length == 1 || text.head? != some '0') && Text.digitsValue text ≤ 255

def isIpv4 (host : Text) : Bool :=
  let octets := host.splitOn '.'
  octets.length == 4 && octets.all isOctet

def isGroup (text : Text) : Bool :=
  let isHex (c : Char) : Bool :=
    c.isDigit || ('a' ≤ c && c ≤ 'f') || ('A' ≤ c && c ≤ 'F')
  !text.isEmpty && text.length ≤ 4 && text.all isHex

/-- How many 16-bit groups a run of groups has, if it is well formed. An IPv4
address may stand at the end, where it counts for two. -/
def groupCount? (allowIpv4 : Bool) (text : Text) : Option Nat :=
  if text.isEmpty then some 0
  else
    let groups := text.splitOn ':'
    if groups.all isGroup then some groups.length
    else match groups.getLast? with
      | some last =>
        if allowIpv4 && isIpv4 last && groups.dropLast.all isGroup then some (groups.length + 1)
        else none
      | none => none

/-- Eight groups with colons between, of which one run may be left out. -/
def isIpv6 (host : Text) : Bool :=
  match Text.cutRun? [':', ':'] host with
  | some (before, after) =>
    match groupCount? false before, groupCount? true after with
    | some left, some right => left + right ≤ 7
    | _, _ => false
  | none => groupCount? true host == some 8

def isLiteral (host : Text) : Bool :=
  isIpv4 host || isIpv6 host

def isLabel (label : Text) : Bool :=
  !label.isEmpty && label.length ≤ 63
    && label.all (fun c => c.isAlphanum || c == '-' || c == '_')
    && label.head? != some '-' && label.getLast? != some '-'

def isDomainName (host : Text) : Bool :=
  let labels := host.splitOn '.'
  let labels := if labels.length > 1 && labels.getLast? == some [] then labels.dropLast else labels
  host.length ≤ 253 && labels.all isLabel
    && !(labels.getLast?.getD []).all Char.isDigit

/-- A host that can be looked up. Names end at the character zero, so it is in none. -/
def isUsable (host : Text) : Bool :=
  !host.contains '\x00'

def isServerName (host : Text) : Bool :=
  isDomainName host || isLiteral host

end WebClient.Address
