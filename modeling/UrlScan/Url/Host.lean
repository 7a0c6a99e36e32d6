import UrlScan.Text.LetterCase
import UrlScan.Url.Address

/-!
# The host of a URL

`hostOf` takes the host out of any text that is given as a URL, in lower case. There is none when
the text has no authority, when the authority has no host, or when the authority is malformed: its
brackets do not fit, or it has a character that compatibility normalization turns into one of the
delimiters `/ ? # @ :`.
-/

namespace UrlScan.Host

/-- Removes what a URL never has: controls and blanks at its start, tabs and line ends anywhere. -/
def clean (t : Text) : Text :=
  (Text.trimStart (fun c => c.toNat ≤ 0x20) t).filter fun c => !"\t\r\n".toList.contains c

def isSchemeChar (c : Char) : Bool :=
  c.isAlphanum || "+-.".toList.contains c

/-- What follows the scheme; the whole text when it has none. -/
def afterScheme (t : Text) : Text :=
  match Text.cutFirst ':' t with
  | (scheme, some rest) =>
    if scheme.head?.any Char.isAlpha && scheme.all isSchemeChar then rest else t
  | (_, none) => t

/-- The authority: what stands between `//` and the path, query or fragment. -/
def authority (t : Text) : Text :=
  match afterScheme (clean t) with
  | '/' :: '/' :: rest => rest.takeWhile fun c => !"/?#".toList.contains c
  | _ => []

/-- Characters whose compatibility normalization contains a delimiter of a URL. -/
def delimiterLookalikes : List Char :=
  ['\u2047', '\u2048', '\u2049', '\u2100', '\u2101', '\u2105', '\u2106', '\u2A74', '\uFE13',
   '\uFE16', '\uFE55', '\uFE56', '\uFE5F', '\uFE6B', '\uFF03', '\uFF0F', '\uFF1A', '\uFF1F',
   '\uFF20']

def hostPort (authority : Text) : Text :=
  Text.afterLast '@' authority

/-- Whether the brackets of an authority are absent or enclose an address that stands alone but for
a port behind it. When they occur in the user information only, the host itself must be such an
address. This is the rule of newer readers; older ones do not look at what stands around the
brackets. -/
def bracketsFit (authority : Text) : Bool :=
  match authority.contains '[', authority.contains ']' with
  | false, false => true
  | true, true =>
    match Text.cutFirst '[' (hostPort authority) with
    | (before, some bracketed) =>
      let (address, after) := Text.cutFirst ']' bracketed
      let after := after.getD []
      before.isEmpty && (after.isEmpty || after.head? == some ':')
        && Address.mayStandInBrackets address
    | (plain, none) => Address.mayStandInBrackets (Text.cutFirst ':' plain).1
  | _, _ => false

def hostIn (authority : Text) : Text :=
  match Text.cutFirst '[' (hostPort authority) with
  | (_, some bracketed) => (Text.cutFirst ']' bracketed).1
  | (plain, none) => (Text.cutFirst ':' plain).1

/-- A host in lower case; the zone of an address, which begins with `%`, keeps its spelling. -/
def lowerHost (host : Text) : Text :=
  match Text.cutFirst '%' host with
  | (name, some zone) => Text.lowercase name ++ '%' :: zone
  | (name, none) => Text.lowercase name

/-- The host of a URL in lower case, when it has one. -/
def hostOf (url : Text) : Option Text :=
  let auth := authority url
  if bracketsFit auth && !auth.any delimiterLookalikes.contains then
    match hostIn auth with
    | [] => none
    | host => some (lowerHost host)
  else none

end UrlScan.Host
