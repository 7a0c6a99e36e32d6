import UrlScan.Url.Basic

/-!
# Finding URLs in a text

A matcher reads a text from left to right. At every place where a URL may begin it tries its
schemes; a URL that is found takes all characters that belong to it, and the search goes on behind
them. The sentence punctuation at the end of a URL is read but not reported.
-/

namespace UrlScan

/-- A finder of URLs with given schemes. -/
structure Matcher where
  /-- The schemes in lower case; a longer one is tried first. -/
  schemes : List Text
  /-- Whether a host of one label, such as `localhost`, is a host. -/
  singleLabel : Bool
deriving DecidableEq, Repr

structure Found where
  start : Nat
  /-- The URL as it was read, with the punctuation at its end. -/
  raw : Url
deriving DecidableEq, Repr

namespace Found

def url (f : Found) : Text :=
  f.raw.trimmed

def stop (f : Found) : Nat :=
  f.start + f.url.length

theorem start_lt_stop (f : Found) : f.start < f.stop := by
  have nonempty := List.length_pos_iff.mpr f.raw.trimmed_ne_nil
  simp only [stop, url]
  omega

end Found

namespace Matcher

/-- The matcher for a list of schemes, whatever their case, order and multiplicity. -/
def ofSchemes (schemes : List Text) (singleLabel : Bool) : Matcher :=
  let lowered := (schemes.map Text.lowercase).eraseDups
  ⟨lowered.mergeSort fun s t => t.length ≤ s.length, singleLabel⟩

/-- The matcher for a list of schemes that may be empty; there is none for the empty list. -/
def ofSchemes? (schemes : List Text) (singleLabel : Bool) : Option Matcher :=
  if schemes.isEmpty then none else some (ofSchemes schemes singleLabel)

def read? (m : Matcher) (t : Text) : Option Url :=
  m.schemes.findSome? fun scheme => Url.read? scheme m.singleLabel t

/-- Whether a URL may begin after the character `previous`. -/
def mayBegin (previous : Option Char) : Bool :=
  !previous.any Url.isJoining

/-- The URLs in a text that begins at `offset` behind the character `previous`. -/
def findFrom (m : Matcher) (previous : Option Char) (offset : Nat) (t : Text) : List Found :=
  match t with
  | [] => []
  | c :: rest =>
    match if mayBegin previous then m.read? (c :: rest) else none with
    | some url =>
      ⟨offset, url⟩ ::
        m.findFrom url.text.getLast? (offset + url.text.length)
          ((c :: rest).drop url.text.length)
    | none => m.findFrom (some c) (offset + 1) rest
termination_by t.length
decreasing_by
  · have nonempty := List.length_pos_iff.mpr url.text_ne_nil
    simp only [List.length_drop, List.length_cons]
    omega
  · simp

def findAll (m : Matcher) (t : Text) : List Found :=
  m.findFrom none 0 t

end Matcher

end UrlScan
