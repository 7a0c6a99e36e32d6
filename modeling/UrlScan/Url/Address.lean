import UrlScan.Text.Basic

/-!
# Addresses in brackets

The host of a URL may be an address in square brackets: an IPv6 address, with an optional zone, or
an address of a future version. This file decides which texts are such addresses.

* An IPv4 address has four decimal numbers up to 255, without leading zeros.
* An IPv6 address has eight groups of one to four hexadecimal digits; one `::` may stand for one or
  more groups that are zero, and the last two groups may be written as an IPv4 address.
* An address of a future version is `v`, hexadecimal digits, a dot, and at least one character.
-/

namespace UrlScan.Address

def isHexDigit (c : Char) : Bool :=
  c.isDigit || ('a' ≤ c && c ≤ 'f') || ('A' ≤ c && c ≤ 'F')

/-- One number of an IPv4 address. -/
def isOctet (t : Text) : Bool :=
  !t.isEmpty && t.all Char.isDigit && t.length ≤ 3 && (t == ['0'] || t.head? != some '0')
    && t.foldl (fun n c => 10 * n + (c.toNat - 48)) 0 ≤ 255

def isIpv4 (t : Text) : Bool :=
  let octets := t.splitOn '.'
  octets.length == 4 && octets.all isOctet

def isGroup (t : Text) : Bool :=
  !t.isEmpty && t.all isHexDigit && t.length ≤ 4

/-- The groups between colons, where an IPv4 address at the end counts as two groups. -/
def groups? (t : Text) : Option (List Text) :=
  let parts := t.splitOn ':'
  let last := parts.getLastD []
  if parts.length < 3 then none
  else if last.contains '.' then
    if isIpv4 last then some (parts.dropLast ++ [['0'], ['0']]) else none
  else some parts

/-- Whether the groups are an IPv6 address. An empty group away from both ends is the `::`; at an
end a group may be empty only beside it. -/
def areIpv6Groups (groups : List Text) : Bool :=
  let inner := groups.drop 1 |>.dropLast
  match inner.findIdx? List.isEmpty with
  | none => groups.length == 8 && groups.all isGroup
  | some index =>
    let before := groups.take (index + 1)
    let after := groups.drop (index + 2)
    let before := if before == [[]] then [] else before
    let after := if after == [[]] then [] else after
    groups.length ≤ 9 && before.all isGroup && after.all isGroup
      && before.length + after.length ≤ 7

/-- Whether a text is an IPv6 address, with or without a zone after `%`. -/
def isIpv6 (t : Text) : Bool :=
  let (address, zone) := Text.cutFirst '%' t
  let zoneAllowed :=
    match zone with
    | none => true
    | some z => !z.isEmpty && !z.contains '%'
  zoneAllowed && !t.contains '/' && ((groups? address).map areIpv6Groups).getD false

def isFuture : Text → Bool
  | 'v' :: rest =>
    match Text.cutFirst '.' rest with
    | (version, some address) =>
      !version.isEmpty && version.all isHexDigit && !address.isEmpty && !address.contains '\n'
    | (_, none) => false
  | _ => false

def mayStandInBrackets (t : Text) : Bool :=
  if Text.startsWith t ['v'] then isFuture t else isIpv6 t

end UrlScan.Address
