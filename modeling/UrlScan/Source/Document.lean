import UrlScan.Source.LineIndex
import UrlScan.Text.Encoding

/-!
# Documents

A document is the text of a file together with its UTF-8 bytes. Syntax trees tell places in bytes
and occurrences in characters; `charOffset?` leads from the one to the other.
-/

namespace UrlScan

/-- The text of a file, its UTF-8 bytes and its lines. -/
structure Document where
  text : Text
  bytes : Bytes
  lines : LineIndex
deriving DecidableEq, Repr

/-- Why bytes cannot be read as a document. -/
inductive DocumentError
  | unknownEncoding (name : Text)
  | undecodable (error : DecodeError)
deriving DecidableEq, Repr

def DocumentError.message : DocumentError → String
  | .unknownEncoding name => "unknown encoding: " ++ String.ofList name
  | .undecodable error => error.message

namespace Document

def ofText (t : Text) : Document :=
  ⟨t, Utf8.encode t, LineIndex.ofText t⟩

/-- The document that bytes encode. Only bytes that are UTF-8 are kept; the bytes of any other
encoding are replaced by those of the text. -/
def ofBytes (encoding : Encoding) (bytes : Bytes) : Except DecodeError Document :=
  match encoding.decode bytes with
  | .ok t => .ok ⟨t, if encoding = .utf8 then bytes else Utf8.encode t, LineIndex.ofText t⟩
  | .error e => .error e

/-- Whether a document that is read under the given name of an encoding keeps its bytes: the name,
without hyphens and letter case, is `utf8`. UTF-8 has other names as well. -/
def keepsBytes (name : Text) : Bool :=
  (Text.lowercase name).filter (· != '-') == "utf8".toList

/-- The text that bytes encode in the encoding with the given name. No bytes at all are the empty
text, whatever the name. -/
def decodeNamed (name : Text) (bytes : Bytes) : Except DocumentError Text :=
  match Encoding.ofName? name with
  | none => if bytes.isEmpty then .ok [] else .error (.unknownEncoding name)
  | some encoding => (encoding.decode bytes).mapError .undecodable

/-- The document that bytes encode in the encoding with the given name. -/
def ofBytesNamed (name : Text) (bytes : Bytes) : Except DocumentError Document :=
  match decodeNamed name bytes with
  | .ok t => .ok ⟨t, if keepsBytes name then bytes else Utf8.encode t, LineIndex.ofText t⟩
  | .error e => .error e

/-- Whether bytes and characters coincide. -/
def isAscii (d : Document) : Bool :=
  d.bytes.length == d.text.length

/-- For every byte of a text that begins with character number `index`, the number of the character
it belongs to. -/
def charsFrom (index : Nat) : Text → List Nat
  | [] => []
  | c :: rest => List.replicate (Utf8.encodeChar c).length index ++ charsFrom (index + 1) rest

/-- The character number of every byte of a text, and of its end. -/
def charTable (t : Text) : List Nat :=
  charsFrom 0 t ++ [t.length]

/-- The character offset of a byte offset. In an ASCII document every offset is its own; otherwise
a negative offset counts from the end, and an offset out of range has none. -/
def charOffset? (d : Document) (offset : Int) : Option Int :=
  if d.isAscii then some offset
  else (signedGet? (charTable d.text) offset).map Int.ofNat

end Document

end UrlScan
