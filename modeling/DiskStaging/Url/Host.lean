import DiskStaging.Text.Percent
import DiskStaging.Text.Quoted
import DiskStaging.Text.Split

/-!
# Hosts in URLs

A host in brackets is an IPv6 address, possibly with a zone, or an address of a
future version. And the part of a URL that names the host must not hold
characters whose compatibility form contains a character that delimits the parts
of a URL.
-/

set_option autoImplicit false

namespace DiskStaging

/-- Why text is not a URL. -/
inductive UrlFault where
  | misplacedBrackets
  | futureAddress
  | ipv4InBrackets
  | notAnAddress (host : String)
  | ambiguousHost (netloc : String)
  deriving DecidableEq, Repr

/-- The wording of each fault. -/
def UrlFault.message : UrlFault → String
  | .misplacedBrackets => "Invalid IPv6 URL"
  | .futureAddress => "IPvFuture address is invalid"
  | .ipv4InBrackets => "An IPv4 address cannot be in brackets"
  | .notAnAddress host =>
    Text.quoted host ++ " does not appear to be an IPv4 or IPv6 address"
  | .ambiguousHost netloc =>
    "netloc '" ++ netloc ++ "' contains invalid characters under NFKC normalization"

namespace Url

open Text

/-! ## Addresses -/

/-- A decimal number up to 255 without superfluous zeros. -/
def isOctet (text : List Char) : Bool :=
  text.all (fun c => '0' ≤ c && c ≤ '9') && 1 ≤ text.length && text.length ≤ 3 &&
    (text = ['0'] || text.head? ≠ some '0') &&
    text.foldl (fun value c => 10 * value + (c.toNat - 48)) 0 ≤ 255

/-- Four octets with points between them. -/
def isIpv4 (text : List Char) : Bool :=
  let octets := pieces '.' text
  octets.length = 4 && octets.all isOctet

/-- One to four hexadecimal digits. -/
def isHextet (text : List Char) : Bool :=
  text.all (fun c => (hexValue? c).isSome) && 1 ≤ text.length && text.length ≤ 4

/-- The groups of an IPv6 address, with a last group in IPv4 form counted as two. -/
def ipv6Groups? (text : List Char) : Option (List (List Char)) :=
  let groups := pieces ':' text
  let last := groups.getLast?.getD []
  if groups.length < 3 then none
  else if last.contains '.' then
    if isIpv4 last then some (groups.dropLast ++ [['0'], ['0']]) else none
  else some groups

/-- Eight groups, or fewer with an empty one that stands for those left out.
Where groups are left out at an end, that end is empty as well. -/
def isIpv6Address (text : List Char) : Bool :=
  match ipv6Groups? text with
  | none => false
  | some groups =>
    let inner := groups.dropLast.drop 1
    let first := groups.head?.getD []
    let last := groups.getLast?.getD []
    if groups.length > 9 then false
    else match inner.countP (·.isEmpty) with
      | 0 => groups.length = 8 && groups.all isHextet
      | 1 =>
        let before := groups.takeWhile (!·.isEmpty)
        let gap := if first.isEmpty then 1 else before.length
        let high := gap - (if first.isEmpty then 1 else 0)
        let low := groups.length - gap - 1 - (if last.isEmpty then 1 else 0)
        (!first.isEmpty || (groups.getD 1 [' ']).isEmpty) &&
          (!last.isEmpty || (groups.getD (groups.length - 2) [' ']).isEmpty) &&
          high + low < 8 && groups.all fun group => group.isEmpty || isHextet group
      | _ => false

/-- An IPv6 address, possibly with a zone behind a percent sign. -/
def isIpv6 (text : List Char) : Bool :=
  match cut? '%' text with
  | none => isIpv6Address text
  | some (address, zone) => !zone.isEmpty && !zone.contains '%' && isIpv6Address address

/-- Whether text behind the letter v is an address of a future version:
hexadecimal digits, a point, and anything. -/
def isFutureAddress (text : List Char) : Bool :=
  let version := text.takeWhile fun c => (hexValue? c).isSome
  match text.drop version.length with
  | '.' :: _ :: _ => !version.isEmpty
  | _ => false

/-- Checks a host that stands in brackets. -/
def checkBracketed (host : List Char) : Except UrlFault Unit :=
  match host with
  | 'v' :: rest => if isFutureAddress rest then .ok () else .error .futureAddress
  | _ =>
    if isIpv4 host then .error .ipv4InBrackets
    else if isIpv6 host then .ok ()
    else .error (.notAnAddress (String.ofList host))

/-- The host and the port, without the user in front of them. -/
def withoutUser (netloc : List Char) : List Char :=
  (netloc.reverse.takeWhile (· ≠ '@')).reverse

/-- Checks the brackets in the part of a URL that names the host. They stand around
the host, with nothing in front of them and at most a port behind them. -/
def checkBrackets (netloc : List Char) : Except UrlFault Unit :=
  if netloc.contains '[' ≠ netloc.contains ']' then .error .misplacedBrackets
  else if !netloc.contains '[' then .ok ()
  else match cut? '[' (withoutUser netloc) with
    | none => checkBracketed ((withoutUser netloc).takeWhile (· ≠ ':'))
    | some (before, bracketed) =>
      let (host, behind) := (cut? ']' bracketed).getD (bracketed, [])
      if before ≠ [] then .error .misplacedBrackets
      else if behind ≠ [] && behind.head? ≠ some ':' then .error .misplacedBrackets
      else checkBracketed host

/-! ## Characters that look like delimiters -/

/-- The characters outside ASCII whose compatibility form contains one of the
delimiters of a URL. -/
def lookalikes : List Nat := [
  0x2047, 0x2048, 0x2049, 0x2100, 0x2101, 0x2105, 0x2106, 0x2A74, 0xFE13, 0xFE16, 0xFE55,
  0xFE56, 0xFE5F, 0xFE6B, 0xFF03, 0xFF0F, 0xFF1A, 0xFF1F, 0xFF20]

/-- Checks the characters of the part of a URL that names the host. -/
def checkLookalikes (netloc : List Char) : Except UrlFault Unit :=
  if netloc.any fun c => lookalikes.contains c.toNat then
    .error (.ambiguousHost (String.ofList netloc))
  else .ok ()

end Url

end DiskStaging
