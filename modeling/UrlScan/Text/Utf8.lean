import UrlScan.Text.Basic
import UrlScan.Text.Quoted

/-!
# UTF-8

`encode` writes a text as bytes, `decode` reads it back or says where and why the bytes are not
UTF-8. A faulty sequence consists of its lead byte and of the continuation bytes after it that were
still valid. The second byte is restricted after the lead bytes E0, ED, F0 and F4, which rules out
overlong forms, surrogates and everything above U+10FFFF.
-/

namespace UrlScan

/-- Why a byte sequence is not text in its encoding. -/
inductive DecodeFault
  | invalidStart
  | invalidContinuation
  | endOfData
  | notAscii
  | truncatedUnit
  | illegalSurrogate
  | illegalUnit
deriving DecidableEq, Repr

def DecodeFault.message : DecodeFault → String
  | .invalidStart => "invalid start byte"
  | .invalidContinuation => "invalid continuation byte"
  | .endOfData => "unexpected end of data"
  | .notAscii => "ordinal not in range(128)"
  | .truncatedUnit => "truncated data"
  | .illegalSurrogate => "illegal UTF-16 surrogate"
  | .illegalUnit => "illegal encoding"

/-- A faulty byte sequence: its encoding, its place, and what is wrong with it. -/
structure DecodeError where
  codec : String
  lead : UInt8
  start : Nat
  length : Nat
  fault : DecodeFault
deriving DecidableEq, Repr

/-- A sequence of one byte is shown with the byte, a longer one with its first and last offset. -/
def DecodeError.message (e : DecodeError) : String :=
  let place :=
    if e.length = 1 then
      " byte 0x" ++ String.ofList (Text.hexDigits 2 e.lead.toNat) ++ " in position "
        ++ toString e.start
    else
      " bytes in position " ++ toString e.start ++ "-" ++ toString (e.start + e.length - 1)
  "'" ++ e.codec ++ "' codec can't decode" ++ place ++ ": " ++ e.fault.message

namespace Utf8

def encodeChar (c : Char) : Bytes :=
  let n := c.toNat
  let continuation (k : Nat) : UInt8 := UInt8.ofNat (0x80 + k % 64)
  if n < 0x80 then [UInt8.ofNat n]
  else if n < 0x800 then [UInt8.ofNat (0xC0 + n / 64), continuation n]
  else if n < 0x10000 then
    [UInt8.ofNat (0xE0 + n / 4096), continuation (n / 64), continuation n]
  else
    [UInt8.ofNat (0xF0 + n / 262144), continuation (n / 4096), continuation (n / 64),
      continuation n]

def encode (t : Text) : Bytes :=
  t.flatMap encodeChar

/-- What a lead byte announces: the bits it contributes, the number of continuation bytes, and the
range of the first of these. -/
structure Lead where
  bits : Nat
  continuations : Nat
  low : Nat := 0x80
  high : Nat := 0xBF
deriving DecidableEq, Repr

/-- The announcement of a byte, when it can begin a character. -/
def lead? (b : UInt8) : Option Lead :=
  let n := b.toNat
  if n < 0x80 then some { bits := n, continuations := 0 }
  else if n < 0xC2 then none
  else if n < 0xE0 then some { bits := n - 0xC0, continuations := 1 }
  else if n = 0xE0 then some { bits := 0, continuations := 2, low := 0xA0 }
  else if n = 0xED then some { bits := 13, continuations := 2, high := 0x9F }
  else if n < 0xF0 then some { bits := n - 0xE0, continuations := 2 }
  else if n = 0xF0 then some { bits := 0, continuations := 3, low := 0x90 }
  else if n = 0xF4 then some { bits := 4, continuations := 3, high := 0x8F }
  else if n < 0xF4 then some { bits := n - 0xF0, continuations := 3 }
  else none

/-- Reads `count` continuation bytes, the first of them between `low` and `high`, onto the bits
read so far. A failure tells how many continuation bytes were valid. -/
def continuations (low high : Nat) :
    (count : Nat) → (bits : Nat) → Bytes → Except (DecodeFault × Nat) (Nat × Bytes)
  | 0, bits, rest => .ok (bits, rest)
  | _ + 1, _, [] => .error (.endOfData, 0)
  | count + 1, bits, b :: rest =>
    if low ≤ b.toNat ∧ b.toNat ≤ high then
      match continuations 0x80 0xBF count (bits * 64 + b.toNat % 64) rest with
      | .ok result => .ok result
      | .error (fault, valid) => .error (fault, valid + 1)
    else .error (.invalidContinuation, 0)

/-- The rest after the continuation bytes is no longer than the bytes read from. -/
theorem continuations_length {low high count bits : Nat} {bytes rest : Bytes} {value : Nat}
    (read : continuations low high count bits bytes = .ok (value, rest)) :
    rest.length ≤ bytes.length := by
  induction count generalizing low high bits bytes with
  | zero =>
    simp only [continuations, Except.ok.injEq, Prod.mk.injEq] at read
    simp [read.2]
  | succ count ih =>
    match bytes with
    | [] => simp [continuations] at read
    | b :: tail =>
      simp only [continuations] at read
      split at read
      · split at read
        next result found =>
          cases read
          have := ih found
          simp only [List.length_cons]
          omega
        next => cases read
      · cases read

/-- Decodes the bytes that begin at offset `start`. -/
def decodeFrom (start : Nat) (bytes : Bytes) : Except DecodeError Text :=
  match bytes with
  | [] => .ok []
  | b :: rest =>
    match lead? b with
    | none => .error ⟨"utf-8", b, start, 1, .invalidStart⟩
    | some lead =>
      match found : continuations lead.low lead.high lead.continuations lead.bits rest with
      | .error (fault, valid) => .error ⟨"utf-8", b, start, 1 + valid, fault⟩
      | .ok (value, rest') =>
        match decodeFrom (start + 1 + lead.continuations) rest' with
        | .error e => .error e
        | .ok t => .ok (Char.ofNat value :: t)
termination_by bytes.length
decreasing_by
  have := continuations_length found
  simp only [List.length_cons]
  omega

def decode (bytes : Bytes) : Except DecodeError Text :=
  decodeFrom 0 bytes

end Utf8

end UrlScan
