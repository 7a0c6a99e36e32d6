import UrlScan.Text.Basic

/-!
# Tokens

A YAML text is read as a list of tokens. Besides what is written in the text, the list has tokens
for what the indentation says: where block collections begin and end, and where a key begins that
is only told by the colon behind it.
-/

namespace UrlScan.Yaml

inductive Token
  | documentStart
  | documentEnd
  /-- The directive that tells the version of YAML. -/
  | version (major : Nat)
  /-- The directive that names the beginning of tags. -/
  | handle (name beginning : Text)
  /-- A directive without a meaning here. -/
  | directive
  | blockList
  | blockMapping
  | blockEnd
  | listStart
  | listEnd
  | mappingStart
  | mappingEnd
  | item
  | comma
  | key
  | value
  | alias (name : Text)
  | anchor (name : Text)
  | tag (handle : Option Text) (suffix : Text)
  | scalar (t : Text) (plain : Bool)
deriving DecidableEq, Repr

end UrlScan.Yaml
