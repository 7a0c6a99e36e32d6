import UrlScan.Yaml.Lexer
import UrlScan.Yaml.Spelling

/-!
# Nodes

A document is a tree of nodes: scalars, lists and mappings, each with a tag. A node is read from the
tokens of the document by one function for each kind of collection. A node may be named by an anchor
and used again by an alias behind it; an alias stands for a copy of the node.

An empty place, such as that behind a colon at the end of a line, is a scalar without text.
-/

namespace UrlScan.Yaml

inductive Node
  | scalar (tag : Tag) (t : Text)
  | list (tag : Tag) (items : List Node)
  | mapping (tag : Tag) (entries : List (Node × Node))
deriving Repr

namespace Node

def empty : Node :=
  .scalar (.ofSpelling []) []

/-- A scalar with the tag that is given, or the one that its spelling tells when it is plain. A tag
that is an exclamation mark makes a scalar count as plain. -/
def ofScalar (tag : Option Text) (t : Text) (plain : Bool) : Node :=
  match tag with
  | none => .scalar (if plain then .ofSpelling t else .text) t
  | some name => .scalar (if name = ['!'] then .ofSpelling t else .ofName name) t

/-- The tag of a collection: the one that is given, or the usual one. -/
def collectionTag (usual : Tag) (tag : Option Text) : Tag :=
  match tag with
  | none => usual
  | some name => if name = ['!'] then usual else .ofName name

end Node

/-- The names for the beginnings of tags. -/
abbrev Handles := List (Text × Text)

/-- The names that need no directive. -/
def usualHandles : Handles :=
  [(['!'], ['!']), (['!', '!'], standardTags)]

/-- The state of reading nodes: the tokens ahead, and the named nodes. A node that is not complete
has no value yet. -/
structure NodeReader where
  ahead : List Token
  anchors : List (Text × Option Node)

structure Properties where
  anchor : Option Text
  tag : Option Text

namespace NodeReader

def next (r : NodeReader) : NodeReader :=
  { r with ahead := r.ahead.tail }

def at? (r : NodeReader) (t : Token) : Bool :=
  r.ahead.head? == some t

def atAny (r : NodeReader) (ts : List Token) : Bool :=
  r.ahead.head?.any ts.contains

/-- Names a node that is not complete; no name may be given twice. -/
def openAnchor (r : NodeReader) : Option Text → Except Fault NodeReader
  | none => .ok r
  | some name =>
    if (r.anchors.lookup name).isSome then .error .malformed
    else .ok { r with anchors := (name, none) :: r.anchors }

def closeAnchor (r : NodeReader) (anchor : Option Text) (node : Node) : NodeReader :=
  match anchor with
  | none => r
  | some name =>
    { r with anchors := r.anchors.map fun entry =>
        if entry.1 = name then (name, some node) else entry }

def tagName (handles : Handles) (handle : Option Text) (suffix : Text) : Except Fault Text :=
  match handle with
  | none => .ok suffix
  | some name =>
    match handles.lookup name with
    | some beginning => .ok (beginning ++ suffix)
    | none => .error .malformed

def tag? (handles : Handles) (r : NodeReader) : Except Fault (Option Text × NodeReader) :=
  match r.ahead with
  | .tag handle suffix :: _ => do
    let name ← tagName handles handle suffix
    return (some name, r.next)
  | _ => .ok (none, r)

def anchor? (r : NodeReader) : Option Text × NodeReader :=
  match r.ahead with
  | .anchor name :: _ => (some name, r.next)
  | _ => (none, r)

/-- What is written in front of the node at a place: an anchor and a tag in either order. -/
def properties (handles : Handles) (r : NodeReader) : Except Fault (Properties × NodeReader) := do
  match r.anchor? with
  | (some anchor, r) =>
    let (tag, r) ← r.tag? handles
    return (⟨some anchor, tag⟩, r)
  | (none, r) =>
    let (tag, r) ← r.tag? handles
    if tag.isSome then
      let (anchor, r) := r.anchor?
      return (⟨anchor, tag⟩, r)
    else return (⟨none, none⟩, r)

/-- The kinds of places at which a node is read. -/
inductive Place
  | flow
  | block
  /-- Behind a key or its colon, where the items of a list need not be deeper than the key. -/
  | blockEntry
deriving DecidableEq, Repr

mutual
/-- The node at a place. -/
def node (handles : Handles) (place : Place) : (fuel : Nat) → NodeReader →
    Except Fault (Node × NodeReader)
  | 0, _ => .error .malformed
  | fuel + 1, r =>
    match r.ahead with
    | .alias name :: _ =>
      match r.anchors.lookup name with
      | some (some node) => .ok (node, r.next)
      | _ => .error .malformed
    | _ => do
      let (properties, r) ← r.properties handles
      let r ← r.openAnchor properties.anchor
      let (node, r) ← content handles place properties fuel r
      return (node, r.closeAnchor properties.anchor node)

/-- A node behind what is written in front of it. -/
def content (handles : Handles) (place : Place) (properties : Properties) : (fuel : Nat) →
    NodeReader → Except Fault (Node × NodeReader)
  | 0, _ => .error .malformed
  | fuel + 1, r =>
    let list (read : Except Fault (List Node × NodeReader)) : Except Fault (Node × NodeReader) :=
      read.map fun (items, r) => (.list (Node.collectionTag .list properties.tag) items, r)
    let mapping (read : Except Fault (List (Node × Node) × NodeReader)) :
        Except Fault (Node × NodeReader) :=
      read.map fun (entries, r) =>
        (.mapping (Node.collectionTag .mapping properties.tag) entries, r)
    match r.ahead.head?, place with
    | some .item, .blockEntry => list (looseItems handles fuel r)
    | some (.scalar t plain), _ => .ok (.ofScalar properties.tag t plain, r.next)
    | some .listStart, _ => list (flowItems handles true fuel r.next)
    | some .mappingStart, _ => mapping (flowEntries handles true fuel r.next)
    | some .blockList, .block | some .blockList, .blockEntry =>
      list (blockItems handles fuel r.next)
    | some .blockMapping, .block | some .blockMapping, .blockEntry =>
      mapping (blockEntries handles fuel r.next)
    | _, _ =>
      if properties.anchor.isSome || properties.tag.isSome then
        .ok (.ofScalar properties.tag [] true, r)
      else .error .malformed

/-- The node behind a mark, or an empty place when the mark is followed by one of `ends`. -/
def nodeUnless (handles : Handles) (place : Place) (ends : List Token) : (fuel : Nat) →
    NodeReader → Except Fault (Node × NodeReader)
  | 0, _ => .error .malformed
  | fuel + 1, r => if r.atAny ends then .ok (.empty, r) else node handles place fuel r

def blockItems (handles : Handles) : (fuel : Nat) → NodeReader →
    Except Fault (List Node × NodeReader)
  | 0, _ => .error .malformed
  | fuel + 1, r =>
    if r.at? .item then do
      let (item, r) ← nodeUnless handles .block [.item, .blockEnd] fuel r.next
      let (more, r) ← blockItems handles fuel r
      return (item :: more, r)
    else if r.at? .blockEnd then .ok ([], r.next)
    else .error .malformed

/-- The items of a block list that is not deeper than the key before it. -/
def looseItems (handles : Handles) : (fuel : Nat) → NodeReader →
    Except Fault (List Node × NodeReader)
  | 0, _ => .error .malformed
  | fuel + 1, r =>
    if r.at? .item then do
      let (item, r) ← nodeUnless handles .block [.item, .key, .value, .blockEnd] fuel r.next
      let (more, r) ← looseItems handles fuel r
      return (item :: more, r)
    else .ok ([], r)

/-- The entries of a block mapping up to its end. -/
def blockEntries (handles : Handles) : (fuel : Nat) → NodeReader →
    Except Fault (List (Node × Node) × NodeReader)
  | 0, _ => .error .malformed
  | fuel + 1, r =>
    let ends := [Token.key, .value, .blockEnd]
    if r.at? .key then do
      let (key, r) ← nodeUnless handles .blockEntry ends fuel r.next
      let (value, r) ←
        if r.at? .value then nodeUnless handles .blockEntry ends fuel r.next else pure (.empty, r)
      let (more, r) ← blockEntries handles fuel r
      return ((key, value) :: more, r)
    else if r.at? .blockEnd then .ok ([], r.next)
    else .error .malformed

/-- The items of a flow list up to its end. An item with a key is a mapping of one entry. -/
def flowItems (handles : Handles) (first : Bool) : (fuel : Nat) → NodeReader →
    Except Fault (List Node × NodeReader)
  | 0, _ => .error .malformed
  | fuel + 1, r =>
    if r.at? .listEnd then .ok ([], r.next)
    else if !first && !r.at? .comma then .error .malformed
    else
      let r := if first then r else r.next
      if r.at? .listEnd then .ok ([], r.next)
      else if r.at? .key then do
        let (entry, r) ← flowEntry handles .listEnd fuel r.next
        let (more, r) ← flowItems handles false fuel r
        return (.mapping .mapping [entry] :: more, r)
      else do
        let (item, r) ← node handles .flow fuel r
        let (more, r) ← flowItems handles false fuel r
        return (item :: more, r)

/-- The entries of a flow mapping up to its end. A node without a key mark has an empty value. -/
def flowEntries (handles : Handles) (first : Bool) : (fuel : Nat) → NodeReader →
    Except Fault (List (Node × Node) × NodeReader)
  | 0, _ => .error .malformed
  | fuel + 1, r =>
    if r.at? .mappingEnd then .ok ([], r.next)
    else if !first && !r.at? .comma then .error .malformed
    else
      let r := if first then r else r.next
      if r.at? .mappingEnd then .ok ([], r.next)
      else if r.at? .key then do
        let (entry, r) ← flowEntry handles .mappingEnd fuel r.next
        let (more, r) ← flowEntries handles false fuel r
        return (entry :: more, r)
      else do
        let (key, r) ← node handles .flow fuel r
        let (more, r) ← flowEntries handles false fuel r
        return ((key, .empty) :: more, r)

/-- An entry of a flow collection that ends with `stop`, behind its key mark. -/
def flowEntry (handles : Handles) (stop : Token) : (fuel : Nat) → NodeReader →
    Except Fault ((Node × Node) × NodeReader)
  | 0, _ => .error .malformed
  | fuel + 1, r => do
    let (key, r) ← nodeUnless handles .flow [.value, .comma, stop] fuel r
    let (value, r) ←
      if r.at? .value then nodeUnless handles .flow [.comma, stop] fuel r.next
      else pure (.empty, r)
    return ((key, value), r)
end

/-! ## Documents -/

/-- The directives in front of a document, of which `handles` and `version` have been read, and what
follows them. -/
def directives (handles : Handles) (version : Bool) :
    List Token → Except Fault (Handles × List Token)
  | .version major :: rest =>
    if version || major ≠ 1 then .error .malformed else directives handles true rest
  | .handle name beginning :: rest =>
    if (handles.lookup name).isSome then .error .malformed
    else directives (handles ++ [(name, beginning)]) version rest
  | .directive :: rest => directives handles version rest
  | rest => .ok (handles, rest)

/-- Whether a token ends a document or begins another one. -/
def isBoundary : Token → Bool
  | .documentStart | .documentEnd | .version _ | .handle _ _ | .directive => true
  | _ => false

/-- The root of a document that the tokens go on with; nothing but end markers may follow it. -/
def root (handles : Handles) (ahead : List Token) : Except Fault Node := do
  let (root, r) ← node handles .block (4 * ahead.length + 4) ⟨ahead, []⟩
  if r.ahead.all (· == .documentEnd) then return root else .error .malformed

/-- The root of the only document in a list of tokens; none when there is no document. -/
def document? (ahead : List Token) : Except Fault (Option Node) := do
  match ahead.head? with
  | none => return none
  | some t =>
    if t == .documentEnd || !isBoundary t then return some (← root usualHandles ahead)
    else
      let (handles, rest) ← directives [] false ahead
      match rest with
      | .documentStart :: rest =>
        if rest.head?.any (fun t => t != .documentEnd && !isBoundary t) then
          return some (← root (handles ++ usualHandles) rest)
        else if rest.all (· == .documentEnd) then return some .empty
        else .error .malformed
      | _ => .error .malformed

end NodeReader

end UrlScan.Yaml
