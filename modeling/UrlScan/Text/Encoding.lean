import UrlScan.Text.Utf8
import UrlScan.Text.LetterCase

/-!
# Text encodings

The encodings a document can be read in, their names, and their decoders. A name is compared
without regard to letter case, and `-`, `_` and blanks in it are the same separator. An encoding has
a standard name and aliases.
-/

namespace UrlScan

inductive Encoding
  | utf8
  /-- UTF-8 whose optional byte order mark is not part of the text. -/
  | utf8Signature
  | latin1
  | ascii
  | utf16LittleEndian
deriving DecidableEq, Repr

namespace Encoding

/-- The standard names, in lower case with `_` as the separator. -/
def standardNames : List (String × Encoding) :=
  [("utf_8", utf8), ("utf_8_sig", utf8Signature), ("latin_1", latin1), ("ascii", ascii),
   ("utf_16_le", utf16LittleEndian)]

def aliases : List (String × Encoding) :=
  [("utf8", utf8), ("u8", utf8), ("utf", utf8), ("utf8_ucs2", utf8), ("utf8_ucs4", utf8),
   ("cp65001", utf8),
   ("latin1", latin1), ("latin", latin1), ("l1", latin1), ("iso_8859_1", latin1),
   ("iso8859_1", latin1), ("iso8859", latin1), ("8859", latin1), ("iso_8859_1_1987", latin1),
   ("iso_ir_100", latin1), ("cp819", latin1), ("ibm819", latin1), ("csisolatin1", latin1),
   ("us_ascii", ascii), ("us", ascii), ("646", ascii), ("cp367", ascii), ("ibm367", ascii),
   ("csascii", ascii), ("iso646_us", ascii), ("iso_ir_6", ascii), ("ansi_x3_4_1968", ascii),
   ("ansi_x3.4_1968", ascii), ("ansi_x3.4_1986", ascii), ("iso_646.irv_1991", ascii),
   ("utf_16le", utf16LittleEndian), ("unicodelittleunmarked", utf16LittleEndian)]

/-- Whether a character belongs to the words of a name and does not separate them. -/
def isNameChar (c : Char) : Bool :=
  c.isAlphanum || c == '.'

/-- A name in lower case, with one `_` for every run of separators between its words. -/
def normalizeName (name : Text) : Text :=
  let words := (name.map fun c => if isNameChar c then c.toLower else '_').splitOn '_'
  Text.join ['_'] (words.filter (!·.isEmpty))

/-- The encoding with the given name. In an alias a dot may stand for the separator. -/
def ofName? (name : Text) : Option Encoding :=
  let name := normalizeName name
  let undotted := name.map fun c => if c = '.' then '_' else c
  (aliases.lookup (String.ofList name)).or <|
    (aliases.lookup (String.ofList undotted)).or <|
      standardNames.lookup (String.ofList name)

/-- The characters U+0000 to U+00FF are the bytes themselves. -/
def decodeLatin1 (bytes : Bytes) : Text :=
  bytes.map fun b => Char.ofNat b.toNat

/-- Only bytes below 128 are ASCII; `start` is the offset of the first byte. -/
def decodeAscii (start : Nat) : Bytes → Except DecodeError Text
  | [] => .ok []
  | b :: rest =>
    if b.toNat < 128 then
      match decodeAscii (start + 1) rest with
      | .ok t => .ok (Char.ofNat b.toNat :: t)
      | .error e => .error e
    else .error ⟨"ascii", b, start, 1, .notAscii⟩

/-- The 16-bit unit of two bytes, the lower byte first. -/
def unit16 (low high : UInt8) : Nat :=
  low.toNat + 256 * high.toNat

/-- A unit from D800 to DBFF and a unit from DC00 to DFFF together are one character; any other
unit outside these ranges is a character of its own. -/
def decodeUtf16 (start : Nat) : Bytes → Except DecodeError Text
  | [] => .ok []
  | [b] => .error ⟨"utf-16-le", b, start, 1, .truncatedUnit⟩
  | a :: b :: rest =>
    let unit := unit16 a b
    if unit < 0xD800 ∨ 0xE000 ≤ unit then
      match decodeUtf16 (start + 2) rest with
      | .ok t => .ok (Char.ofNat unit :: t)
      | .error e => .error e
    else if 0xDC00 ≤ unit then .error ⟨"utf-16-le", a, start, 2, .illegalUnit⟩
    else
      match rest with
      | c :: d :: rest' =>
        let next := unit16 c d
        if 0xDC00 ≤ next ∧ next < 0xE000 then
          match decodeUtf16 (start + 4) rest' with
          | .ok t => .ok (Char.ofNat (0x10000 + (unit - 0xD800) * 1024 + (next - 0xDC00)) :: t)
          | .error e => .error e
        else .error ⟨"utf-16-le", a, start, 2, .illegalSurrogate⟩
      | tail => .error ⟨"utf-16-le", a, start, 2 + tail.length, .endOfData⟩

def decode : Encoding → Bytes → Except DecodeError Text
  | utf8, bytes => Utf8.decode bytes
  | utf8Signature, 0xEF :: 0xBB :: 0xBF :: rest => Utf8.decode rest
  | utf8Signature, bytes => Utf8.decode bytes
  | latin1, bytes => .ok (decodeLatin1 bytes)
  | ascii, bytes => decodeAscii 0 bytes
  | utf16LittleEndian, bytes => decodeUtf16 0 bytes

end Encoding

end UrlScan
