import UrlScan.Language.Grammar

/-!
# The parser pool

Making a parser costs more than parsing a file, so parsers are kept and used again. A pool has one
bucket of parsers for each language. Taking a parser reuses a free one, makes a new one while the
bucket has room, and otherwise shares the first one; it never waits. Giving back a parser that the
bucket does not hold changes nothing.
-/

namespace UrlScan

/-- A parser that a pool hands out. -/
structure PooledParser where
  serial : Nat
  grammar : Grammar

def PooledParser.parse (p : PooledParser) (bytes : Bytes) : Except Text SyntaxTree :=
  p.grammar.engine.parse bytes

structure PoolEntry where
  parser : PooledParser
  inUse : Bool

/-- Parsers by language. -/
structure ParserPool where
  /-- The greatest number of parsers for one language. -/
  capacity : Nat
  buckets : List (Text × List PoolEntry)
  /-- How often a parser had to be shared. -/
  overflows : Nat
  /-- How many parsers were made; also the serial number of the next one. -/
  created : Nat
  capacity_pos : 0 < capacity

/-- What taking a parser yields. -/
structure Acquisition where
  /-- The parser, or why none could be made. -/
  parser : Except Text PooledParser
  /-- Whether the parser is shared because the bucket is full and in use. -/
  shared : Bool
  pool : ParserPool

structure PoolStats where
  languages : Nat
  parsers : Nat
  inUse : Nat
  overflows : Nat
deriving DecidableEq, Repr

namespace ParserPool

def ofCapacity (capacity : Nat) (capacity_pos : 0 < capacity) : ParserPool :=
  ⟨capacity, [], 0, 0, capacity_pos⟩

/-- The pool without parsers; there is none without room for a parser. -/
def ofCapacity? (capacity : Int) : Option ParserPool :=
  if capacity_pos : 0 < capacity.toNat then some (ofCapacity capacity.toNat capacity_pos) else none

def bucket (pool : ParserPool) (language : Text) : List PoolEntry :=
  (pool.buckets.lookup language).getD []

/-- Replaces the bucket of a language, or adds one at the end. -/
def putBucket (language : Text) (entries : List PoolEntry) :
    List (Text × List PoolEntry) → List (Text × List PoolEntry)
  | [] => [(language, entries)]
  | (other, old) :: rest =>
    if other = language then (language, entries) :: rest
    else (other, old) :: putBucket language entries rest

def setBucket (pool : ParserPool) (language : Text) (entries : List PoolEntry) : ParserPool :=
  { pool with buckets := putBucket language entries pool.buckets }

/-- Takes the first free parser of a bucket into use. -/
def takeFree : List PoolEntry → Option (PooledParser × List PoolEntry)
  | [] => none
  | entry :: rest =>
    if entry.inUse then
      (takeFree rest).map fun (parser, rest) => (parser, entry :: rest)
    else some (entry.parser, { entry with inUse := true } :: rest)

/-- Takes a parser for a language; a new one is made by the given grammar. -/
def acquire (pool : ParserPool) (language : Text) (grammar : Grammar) : Acquisition :=
  let entries := pool.bucket language
  match takeFree entries with
  | some (parser, entries) => ⟨.ok parser, false, pool.setBucket language entries⟩
  | none =>
    if room : entries.length < pool.capacity then
      match grammar.engine.creationFault with
      | some fault => ⟨.error fault, false, pool.setBucket language entries⟩
      | none =>
        let parser : PooledParser := ⟨pool.created, grammar⟩
        let pool := { pool with created := pool.created + 1 }
        ⟨.ok parser, false, pool.setBucket language (entries ++ [⟨parser, true⟩])⟩
    else
      have := pool.capacity_pos
      ⟨.ok entries[0].parser, true, { pool with overflows := pool.overflows + 1 }⟩

/-- Frees the first entry that holds a parser. -/
def freeEntry (serial : Nat) : List PoolEntry → List PoolEntry
  | [] => []
  | entry :: rest =>
    if entry.parser.serial = serial then { entry with inUse := false } :: rest
    else entry :: freeEntry serial rest

/-- Gives a parser back to the bucket of a language. A language without a bucket gets none. -/
def release (pool : ParserPool) (language : Text) (serial : Nat) : ParserPool :=
  match pool.buckets.lookup language with
  | none => pool
  | some entries => pool.setBucket language (freeEntry serial entries)

def clear (pool : ParserPool) : ParserPool :=
  { pool with buckets := [] }

def size (pool : ParserPool) (language : Text) : Nat :=
  (pool.bucket language).length

def available (pool : ParserPool) (language : Text) : Nat :=
  (pool.bucket language).countP (!·.inUse)

def stats (pool : ParserPool) : PoolStats :=
  let entries := pool.buckets.flatMap (·.2)
  ⟨pool.buckets.length, entries.length, entries.countP (·.inUse), pool.overflows⟩

end ParserPool

end UrlScan
