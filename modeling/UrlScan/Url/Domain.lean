import UrlScan.Text.Blank
import UrlScan.Text.LetterCase

/-!
# Domains

A domain of the ignore list may be written with white space around it, with `*.` in front of it,
with dots at its ends, and in any letter case. A domain covers itself and its subdomains.
-/

namespace UrlScan.Domain

def isDot (c : Char) : Bool :=
  c == '.'

/-- A domain without the decoration that an entry of the ignore list may have. -/
def normalize (entry : Text) : Text :=
  let domain := Text.lowercase (Text.strip entry)
  let domain := if Text.startsWith domain ['*', '.'] then domain.drop 2 else domain
  Text.trimBoth isDot domain

/-- Whether a host is fully qualified: it has at least two labels that are not empty. -/
def isQualified (host : Text) : Bool :=
  2 ≤ ((host.splitOn '.').filter (!·.isEmpty)).length

/-- Whether a host is the domain itself or one of its subdomains. -/
def covers (domain host : Text) : Bool :=
  host == domain || Text.endsWith host ('.' :: domain)

end UrlScan.Domain
