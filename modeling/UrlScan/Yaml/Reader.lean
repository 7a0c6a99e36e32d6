import UrlScan.Yaml.Node

/-!
# Reading YAML

The value of a YAML text is that of the root of its only document. Every node has a value by its
tag; entries that a mapping merges come before its own, and a key that is given again keeps its
place and takes the later value.

A text may have several faults. The one that counts is the first among those of the nodes nearest to
the root.
-/

namespace UrlScan.Yaml

/-- The faults found in nodes, each with its distance from the root. -/
abbrev Findings := List (Nat × Fault)

/-- The finding that counts: the first one nearest to the root. -/
def Findings.first? (findings : Findings) : Option Fault :=
  let least := (findings.map (·.1)).min?
  (findings.find? fun finding => some finding.1 == least).map (·.2)

def scalarAt (depth : Nat) (tag : Tag) (t : Text) : Scalar × Findings :=
  match scalarOf tag t with
  | .ok s => (s, [])
  | .error fault => (.null, [(depth, fault)])

/-- The scalar of a key at a depth. Only scalars are keys. -/
def keyAt (depth : Nat) : Node → Scalar × Findings
  | .scalar .default t => (.text t, [])
  | .scalar tag t => scalarAt depth tag t
  | _ => (.null, [(depth, .malformed)])

/-- The entries of a mapping: those that it merges, those of its own, and the faults of either. -/
structure Entries where
  merged : List (Scalar × Value)
  own : List (Scalar × Value)
  mergeFindings : Findings
  findings : Findings

namespace Entries

def all (e : Entries) : List (Scalar × Value) :=
  e.merged ++ e.own

/-- All findings; merging comes first. -/
def allFindings (e : Entries) : Findings :=
  e.mergeFindings ++ e.findings

def mapping (e : Entries) : Value :=
  .mapping (e.all.foldl (fun result entry => Value.put entry.1 entry.2 result) [])

end Entries

def isMergeKey : Node → Bool
  | .scalar .merge _ => true
  | _ => false

mutual
/-- The value of a node at a depth, and its faults. -/
def build (depth : Nat) : Node → Value × Findings
  | .scalar tag t =>
    let (s, findings) := scalarAt depth tag t
    (.scalar s, findings)
  | .list tag items =>
    let (values, findings) := buildItems (depth + 1) items
    if tag = .list then (.list values, findings) else (.null, [(depth, .malformed)])
  | .mapping tag entries =>
    let e := buildEntries (depth + 1) entries
    if tag = .mapping then (e.mapping, e.allFindings) else (.null, [(depth, .malformed)])

def buildItems (depth : Nat) : List Node → List Value × Findings
  | [] => ([], [])
  | item :: rest =>
    let (value, findings) := build depth item
    let (values, more) := buildItems depth rest
    (value :: values, findings ++ more)

def buildEntries (depth : Nat) : List (Node × Node) → Entries
  | [] => ⟨[], [], [], []⟩
  | (key, value) :: rest =>
    let e := buildEntries depth rest
    if isMergeKey key then
      let m := mergeOf depth value
      { e with merged := m.all ++ e.merged, mergeFindings := m.allFindings ++ e.mergeFindings }
    else
      let (k, keyFindings) := keyAt depth key
      let (v, valueFindings) := build depth value
      { e with own := (k, v) :: e.own, findings := keyFindings ++ valueFindings ++ e.findings }

/-- The entries that the value of a merge key stands for: those of a mapping, or those of a list of
mappings, the last one first. -/
def mergeOf (depth : Nat) : Node → Entries
  | .mapping _ entries => buildEntries depth entries
  | .list _ items => mergeItems depth items
  | .scalar _ _ => ⟨[], [], [(depth, .malformed)], []⟩

/-- The entries of a list of mappings, the last one first. -/
def mergeItems (depth : Nat) : List Node → Entries
  | [] => ⟨[], [], [], []⟩
  | .mapping _ entries :: rest =>
    let first := buildEntries depth entries
    let others := mergeItems depth rest
    ⟨[], others.all ++ first.all, first.allFindings ++ others.mergeFindings, others.findings⟩
  | _ :: rest =>
    let others := mergeItems depth rest
    { others with mergeFindings := (depth, .malformed) :: others.mergeFindings }
end

/-- The characters that a text may have. -/
def isAllowed (c : Char) : Bool :=
  let n := c.toNat
  n = 0x09 || n = 0x0A || n = 0x0D || (0x20 ≤ n && n ≤ 0x7E) || n = 0x85
    || (0xA0 ≤ n && n ≤ 0xD7FF) || (0xE000 ≤ n && n ≤ 0xFFFD) || 0x10000 ≤ n

def read (t : Text) : Except Fault Value := do
  if !t.all isAllowed then throw .malformed
  match ← NodeReader.document? (← tokens t) with
  | none => return .null
  | some root =>
    let (value, findings) := build 0 root
    match findings.first? with
    | some fault => throw fault
    | none => return value

end UrlScan.Yaml
