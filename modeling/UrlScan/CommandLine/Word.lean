import UrlScan.Text.Basic
import UrlScan.Text.DecimalDigit

/-!
# Words of a command line

A word of a command line is an option or a plain word. A long option may be shortened as long as it
stays distinct from the others, and may have its value behind an equals sign. A short option may
have its value, or further short options, right behind its letter. After the word `--` every word is
plain; before it, so are words that do not begin with a hyphen, the hyphen alone, negative numbers,
and words with a blank that name no option.
-/

namespace UrlScan

inductive CommandOption
  | help
  | version
  | scan
  | exclude
  | scanFile
  | excludeFile
  | maxDepth
  | ignoreDomains
  | includeComments
  | includeSingleLabel
  | noFallback
  | forceFallback
  | context
  | format
  | output
  | onlyUrls
  | noLineNumbers
  | concurrency
  | failOnError
  | quiet
  | resultsOnly
  | verbose
deriving DecidableEq, Repr

namespace CommandOption

def spellings : List (Text × CommandOption) :=
  [("-h", help), ("--help", help), ("--version", version), ("-V", version), ("--scan", scan),
   ("--exclude", exclude), ("--scan-file", scanFile), ("--exclude-file", excludeFile),
   ("--max-depth", maxDepth), ("--ignore-domains", ignoreDomains),
   ("--include-comments", includeComments), ("--include-non-fqdn", includeSingleLabel),
   ("--no-fallback-regex", noFallback), ("--force-fallback", forceFallback),
   ("--context", context), ("--format", format), ("-f", format), ("--output", output),
   ("-o", output), ("--only-urls", onlyUrls), ("--no-line-numbers", noLineNumbers),
   ("--concurrency", concurrency), ("--fail-on-error", failOnError), ("--quiet", quiet),
   ("-q", quiet), ("--results-only", resultsOnly), ("--verbose", verbose), ("-v", verbose)].map
    fun (spelling, option) => (spelling.toList, option)

def takesValue : CommandOption → Bool
  | scan | exclude | scanFile | excludeFile | maxDepth | ignoreDomains | forceFallback | context
  | format | output | concurrency => true
  | _ => false

def ofSpelling? (t : Text) : Option CommandOption :=
  spellings.lookup t

/-- The options whose spelling begins with a text. -/
def abbreviatedBy (t : Text) : List CommandOption :=
  (spellings.filter fun entry => Text.startsWith entry.1 t).map (·.2)

end CommandOption

inductive CommandWord
  | plain (t : Text)
  | separator
  /-- An option, with what is attached to it. Further short options may be attached only to a short
  one. -/
  | option (o : CommandOption) (long : Bool) (attached : Option Text)
  | unknown
deriving DecidableEq, Repr

namespace CommandWord

def isLong (t : Text) : Bool :=
  Text.startsWith t ['-', '-']

/-- Whether a text is digits, with a point before the last of them if there is one. -/
def isUnsignedNumber (t : Text) : Bool :=
  match Text.cutFirst '.' t with
  | (whole, none) => !whole.isEmpty && whole.all Text.isDecimalDigit
  | (whole, some fraction) =>
    whole.all Text.isDecimalDigit && !fraction.isEmpty && fraction.all Text.isDecimalDigit

/-- Whether a text is a negative number; a line feed may follow it. -/
def isNegativeNumber : Text → Bool
  | '-' :: rest =>
    isUnsignedNumber (if rest.getLast? = some '\n' then rest.dropLast else rest)
  | _ => false

/-- The options that a word which is no complete spelling may stand for. -/
def interpretations (t : Text) : List CommandWord :=
  if isLong t then
    let (spelling, value) := Text.cutFirst '=' t
    (CommandOption.abbreviatedBy spelling).map fun o => option o true value
  else
    match CommandOption.ofSpelling? (t.take 2) with
    | some o => [option o false (some (t.drop 2))]
    | none => []

/-- The word that a text with a hyphen at its start stands for; none when it is ambiguous. -/
def readHyphenated? (t : Text) : Option CommandWord :=
  match CommandOption.ofSpelling? t with
  | some o => some (option o (isLong t) none)
  | none =>
    if t.length = 1 then some (plain t)
    else
      let (spelling, value) := Text.cutFirst '=' t
      match value, CommandOption.ofSpelling? spelling with
      | some value, some o => some (option o (isLong t) (some value))
      | _, _ =>
        match interpretations t with
        | [word] => some word
        | _ :: _ :: _ => none
        | [] => some (if isNegativeNumber t || t.contains ' ' then plain t else unknown)

/-- The word that a text other than `--` stands for; none when it is ambiguous. -/
def read? (t : Text) : Option CommandWord :=
  if Text.startsWith t ['-'] then readHyphenated? t else some (plain t)

/-- The words of a command line; none when one of them is ambiguous. -/
def readAll? : List Text → Option (List CommandWord)
  | [] => some []
  | t :: rest =>
    if t = ['-', '-'] then some (separator :: rest.map plain)
    else do
      let word ← read? t
      let words ← readAll? rest
      return word :: words

end CommandWord

end UrlScan
