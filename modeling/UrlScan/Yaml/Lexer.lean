import UrlScan.Text.Utf8
import UrlScan.Yaml.Scalar.Block
import UrlScan.Yaml.Scalar.Plain
import UrlScan.Yaml.Scalar.Quoted
import UrlScan.Yaml.Token

/-!
# Reading tokens

The tokens of a text are read one after another. A block collection begins with its first entry and
ends where the indentation goes back. That a scalar or a collection is a key is known only at the
colon behind it, so the place where a key may have begun is remembered, one for every open flow
collection, and the token for the key is put there later.

A key of that sort lies within one line and 1024 characters. Where the text requires a key, at the
indentation of a block mapping, its colon must follow.
-/

namespace UrlScan.Yaml

/-- A place where a key may have begun: the number of the token, whether the text requires a key
there, and the place itself. -/
structure PossibleKey where
  number : Nat
  required : Bool
  index : Nat
  line : Nat
  column : Nat
deriving DecidableEq, Repr

/-- The state of reading tokens. -/
structure Lexer where
  /-- The number of characters of the text. -/
  size : Nat
  cursor : Cursor
  tokens : List Token
  count : Nat
  /-- The column of the innermost block collection; -1 outside all of them. -/
  indent : Int
  /-- The columns of the outer block collections, the innermost first. -/
  outerIndents : List Int
  /-- The place where a key may have begun, in the innermost flow collection. -/
  key : Option PossibleKey
  /-- Such places in the outer flow collections and outside all of them, the innermost first. -/
  outerKeys : List (Option PossibleKey)
  /-- Whether a key may begin here. -/
  keyAllowed : Bool

namespace Lexer

def ofText (t : Text) : Lexer :=
  ⟨t.length, .ofText t, [], 0, -1, [], none, [], true⟩

def inFlow (l : Lexer) : Bool :=
  !l.outerKeys.isEmpty

def push (l : Lexer) (t : Token) : Lexer :=
  { l with tokens := t :: l.tokens, count := l.count + 1 }

/-- Adds a token before the token with a given number. -/
def insert (l : Lexer) (number : Nat) (t : Token) : Lexer :=
  let later := l.count - number
  { l with tokens := l.tokens.take later ++ t :: l.tokens.drop later, count := l.count + 1 }

/-- Adds a token that is `width` characters long. -/
def mark (l : Lexer) (t : Token) (width : Nat) : Lexer :=
  { l.push t with cursor := l.cursor.skip width }

/-- The place where a key may have begun, unless the key can no longer follow. -/
def freshKey? (cursor : Cursor) : Option PossibleKey → Except Fault (Option PossibleKey)
  | none => .ok none
  | some key =>
    if key.line = cursor.line && cursor.index ≤ key.index + 1024 then .ok (some key)
    else if key.required then .error .malformed
    else .ok none

def dropStaleKeys (l : Lexer) : Except Fault Lexer := do
  let key ← freshKey? l.cursor l.key
  let outerKeys ← l.outerKeys.mapM (freshKey? l.cursor)
  return { l with key, outerKeys }

/-- Forgets the place where a key may have begun in the innermost collection. -/
def dropKey (l : Lexer) : Except Fault Lexer :=
  if l.key.any (·.required) then .error .malformed else .ok { l with key := none }

/-- Remembers that a key may begin here. -/
def saveKey (l : Lexer) : Except Fault Lexer := do
  if l.keyAllowed then
    let l ← l.dropKey
    let c := l.cursor
    let required := !l.inFlow && l.indent == c.column
    return { l with key := some ⟨l.count, required, c.index, c.line, c.column⟩ }
  else return l

/-- The block collections deeper than `column` end. -/
def closeBlocks (column : Int) : List Int → Lexer → Lexer
  | [], l => l
  | outer :: rest, l =>
    if column < l.indent then
      closeBlocks column rest { l.push .blockEnd with indent := outer, outerIndents := rest }
    else l

/-- The block collections deeper than `column` end, unless the place is in a flow collection. -/
def unwind (l : Lexer) (column : Int) : Lexer :=
  if l.inFlow then l else closeBlocks column l.outerIndents l

/-- Opens a block collection at a column unless it is open, with a token before the one with a given
number. -/
def openBlock (l : Lexer) (column : Nat) (number : Nat) (t : Token) : Lexer :=
  if l.indent < column then
    { l.insert number t with indent := column, outerIndents := l.indent :: l.outerIndents }
  else l

/-! ## Marks -/

def openFlow (l : Lexer) (t : Token) : Except Fault Lexer := do
  let l ← l.saveKey
  return { l.mark t 1 with outerKeys := l.key :: l.outerKeys, key := none, keyAllowed := true }

def closeFlow (l : Lexer) (t : Token) : Except Fault Lexer := do
  let l ← l.dropKey
  match l.outerKeys with
  | [] => .error .malformed
  | key :: outerKeys => return { l.mark t 1 with key, outerKeys, keyAllowed := false }

/-- The mark of an entry or an explicit key, which opens a block collection unless it is open. -/
def blockMark (l : Lexer) (collection t : Token) (keyAllowed : Bool) : Except Fault Lexer := do
  if !l.inFlow && !l.keyAllowed then throw .malformed
  let l := if l.inFlow then l else l.openBlock l.cursor.column l.count collection
  let l ← l.dropKey
  return { l.mark t 1 with keyAllowed }

/-- The colon behind a key. The key begins at the remembered place or was explicit. -/
def colon (l : Lexer) : Except Fault Lexer := do
  match l.key with
  | some key =>
    let l := { l with key := none }.insert key.number .key
    let l := if l.inFlow then l else l.openBlock key.column key.number .blockMapping
    return { l.mark .value 1 with keyAllowed := false }
  | none => l.blockMark .blockMapping .value (!l.inFlow)

def documentMark (l : Lexer) (t : Token) : Except Fault Lexer := do
  let l ← (l.unwind (-1)).dropKey
  return { l.mark t 3 with keyAllowed := false }

/-! ## Names, tags and directives -/

/-- Whether a character may be in the name of an anchor, a tag handle or a directive. -/
def isNameChar (c : Char) : Bool :=
  c.isAlphanum || c == '-' || c == '_'

/-- Whether a character may be in a tag without being escaped. -/
def isTagChar (c : Char) : Bool :=
  c.isAlphanum || "-;/?:@&=+$,_.!~*'()[]".toList.contains c

/-- A token that may be a key by itself. -/
def pushKeyable (l : Lexer) (t : Token) (stop : Cursor) : Except Fault Lexer := do
  let l ← l.saveKey
  return { l.push t with cursor := stop, keyAllowed := false }

/-- An anchor or an alias: a mark and a name. -/
def named (l : Lexer) (t : Text → Token) : Except Fault Lexer := do
  let name := l.cursor.next.rest.takeWhile isNameChar
  let stop := l.cursor.skip (name.length + 1)
  if name.isEmpty || !endsOr (fun c => isSpacing c || "?:,]\x7d%@\x60".toList.contains c) stop.rest
  then .error .malformed
  else l.pushKeyable (t name) stop

/-- The bytes of the escapes of two hexadecimal digits at a place, and the place behind them. -/
def escapedBytes : (fuel : Nat) → Cursor → Except Fault (Bytes × Cursor)
  | 0, c => .ok ([], c)
  | fuel + 1, c =>
    if c.at? '%' then
      match c.rest.drop 1 with
      | a :: b :: _ =>
        match digits? 16 [a, b] with
        | some n => do
          let (more, stop) ← escapedBytes fuel (c.skip 3)
          return (.ofNat n :: more, stop)
        | none => .error .malformed
      | _ => .error .malformed
    else .ok ([], c)

/-- The characters of a tag at a place, with its escapes resolved, and the place behind them. -/
def tagText : (fuel : Nat) → Cursor → Except Fault (Text × Cursor)
  | 0, c => .ok ([], c)
  | fuel + 1, c =>
    match c.rest with
    | [] => .ok ([], c)
    | d :: _ =>
      if d = '%' then do
        let (bytes, stop) ← escapedBytes (c.rest.length + 1) c
        let t ← (Utf8.decode bytes).mapError fun _ => Fault.malformed
        let (more, stop) ← tagText fuel stop
        return (t ++ more, stop)
      else if isTagChar d then do
        let (more, stop) ← tagText fuel c.next
        return (d :: more, stop)
      else .ok ([], c)

def someTagText (c : Cursor) : Except Fault (Text × Cursor) := do
  let (t, stop) ← tagText (c.rest.length + 1) c
  if stop.index = c.index then .error .malformed else return (t, stop)

/-- The handle at a place: an exclamation mark, or a name between two of them. -/
def tagHandle (c : Cursor) : Except Fault (Text × Cursor) :=
  let name := c.next.rest.takeWhile isNameChar
  let stop := c.skip (name.length + 1)
  if !c.at? '!' then .error .malformed
  else if stop.at? '!' then .ok ('!' :: name ++ ['!'], stop.next)
  else if c.next.at? ' ' then .ok (['!'], c.next)
  else .error .malformed

/-- Whether a line goes on with a space, or ends. -/
def endsWord (c : Cursor) : Bool :=
  endsOr (fun d => d == ' ' || isBreak d) c.rest

/-- The handle and the suffix of the tag at a place, and the place behind it. -/
def tagParts (c : Cursor) : Except Fault (Option Text × Text × Cursor) := do
  if c.next.at? '<' then
    let (suffix, stop) ← someTagText (c.skip 2)
    if stop.at? '>' then return (none, suffix, stop.next) else .error .malformed
  else if c.spacingBehind 1 then return (none, ['!'], c.next)
  else
    let word := c.next.rest.takeWhile fun d => d != ' ' && !isBreak d
    let (handle, stop) ← if word.contains '!' then tagHandle c else pure (['!'], c.next)
    let (suffix, stop) ← someTagText stop
    return (some handle, suffix, stop)

def pushTag (l : Lexer) : Except Fault Lexer := do
  let (handle, suffix, stop) ← tagParts l.cursor
  if endsWord stop then l.pushKeyable (.tag handle suffix) stop else .error .malformed

def versionNumber (c : Cursor) : Except Fault (Nat × Cursor) :=
  let digits := c.rest.takeWhile Char.isDigit
  match digits? 10 digits with
  | some n => .ok (n, c.skip digits.length)
  | none => .error .malformed

def directiveParts (c : Cursor) : Except Fault (Token × Cursor) := do
  let name := c.rest.takeWhile isNameChar
  let c := c.skip name.length
  if name.isEmpty || !endsWord c then throw .malformed
  if name = "YAML".toList then
    let (major, c) ← versionNumber (c.skipWhile (· == ' '))
    if !c.at? '.' then throw .malformed
    let (_, c) ← versionNumber c.next
    if endsWord c then return (.version major, c) else .error .malformed
  else if name = "TAG".toList then
    let (handle, c) ← tagHandle (c.skipWhile (· == ' '))
    if !c.at? ' ' then throw .malformed
    let (beginning, c) ← someTagText (c.skipWhile (· == ' '))
    if endsWord c then return (.handle handle beginning, c) else .error .malformed
  else return (.directive, c.skipWhile (!isBreak ·))

/-- A directive, which takes its whole line. -/
def pushDirective (l : Lexer) : Except Fault Lexer := do
  let l ← (l.unwind (-1)).dropKey
  let (t, stop) ← directiveParts l.cursor.next
  match stop.endLine? with
  | some stop => return { l.push t with cursor := stop, keyAllowed := false }
  | none => .error .malformed

/-! ## Scalars -/

/-- A plain scalar. A key may follow when a line ended behind it. -/
def pushPlain (l : Lexer) : Except Fault Lexer := do
  let l ← l.saveKey
  let (t, stop, ended) :=
    plainText l.inFlow (l.indent + 1) [] false (l.size + 1) l.cursor
  return { l.push (.scalar t true) with cursor := stop, keyAllowed := ended }

def pushQuoted (l : Lexer) (quotationMark : Char) : Except Fault Lexer := do
  let (t, stop) ← quotedText quotationMark (l.size + 1) l.cursor.next
  l.pushKeyable (.scalar t false) stop

/-- A block of lines. A key may follow it. -/
def pushBlock (l : Lexer) (folded : Bool) : Except Fault Lexer := do
  let l ← l.dropKey
  let (t, stop) ← blockText folded l.indent l.cursor.next
  return { l.push (.scalar t false) with cursor := stop, keyAllowed := true }

/-! ## All tokens -/

/-- Reads the token at a place; `d` is its first character. -/
def readToken (l : Lexer) (d : Char) : Except Fault Lexer :=
  let c := l.cursor
  let spaced := c.spacingBehind 1
  let lineStart := c.column == 0
  if d = '%' && lineStart then l.pushDirective
  else if d = '-' && lineStart && c.atSeparator then l.documentMark .documentStart
  else if d = '.' && lineStart && c.atSeparator then l.documentMark .documentEnd
  else if d = '[' then l.openFlow .listStart
  else if d = '\x7b' then l.openFlow .mappingStart
  else if d = ']' then l.closeFlow .listEnd
  else if d = '\x7d' then l.closeFlow .mappingEnd
  else if d = ',' then do
    let l ← l.dropKey
    return { l.mark .comma 1 with keyAllowed := true }
  else if d = '-' && spaced then l.blockMark .blockList .item true
  else if d = '?' && (l.inFlow || spaced) then l.blockMark .blockMapping .key (!l.inFlow)
  else if d = ':' && (l.inFlow || spaced) then l.colon
  else if d = '*' then l.named .alias
  else if d = '&' then l.named .anchor
  else if d = '!' then l.pushTag
  else if (d = '|' || d = '>') && !l.inFlow then l.pushBlock (d == '>')
  else if d = Text.apostrophe || d = Text.doubleQuote then l.pushQuoted d
  else if beginsPlain l.inFlow c.rest then l.pushPlain
  else .error .malformed

/-- Goes to the next token. Behind a line end a key may begin, unless it is in a flow collection. -/
def advance (l : Lexer) : Except Fault Lexer := do
  let (cursor, ended) := l.cursor.toToken (l.size + 1)
  let keyAllowed := l.keyAllowed || (ended && !l.inFlow)
  let l ← { l with cursor, keyAllowed }.dropStaleKeys
  return l.unwind cursor.column

/-- Reads the tokens from a place to the end. -/
def readAll : (fuel : Nat) → Lexer → Except Fault (List Token)
  | 0, _ => .error .malformed
  | fuel + 1, l => do
    let l ← l.advance
    match l.cursor.rest with
    | [] =>
      let l ← (l.unwind (-1)).dropKey
      return l.tokens.reverse
    | d :: _ => readAll fuel (← l.readToken d)

end Lexer

/-- The tokens of a text. A byte order mark may open it. -/
def tokens (t : Text) : Except Fault (List Token) :=
  let start := Lexer.ofText t
  let cursor := if start.cursor.at? '\uFEFF' then start.cursor.next else start.cursor
  Lexer.readAll (start.size + 1) { start with cursor }

end UrlScan.Yaml
