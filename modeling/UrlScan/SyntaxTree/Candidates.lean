import UrlScan.Occurrence
import UrlScan.Source.Document
import UrlScan.SyntaxTree.Basic

/-!
# Candidate spans

URLs are looked for in candidate spans: the string nodes of a syntax tree and, when asked for, its
comment nodes; or else the whole text. The walk over the tree takes the nodes in the order of the
text and does not look inside a node that it has taken or a comment that it has passed over, so that
candidates do not overlap.
-/

namespace UrlScan

/-- Which kinds of nodes are strings and which are comments. -/
structure NodeKinds where
  strings : List Text
  comments : List Text
deriving DecidableEq, Repr

namespace NodeKinds

def isString (kinds : NodeKinds) (kind : Text) : Bool :=
  kinds.strings.contains kind

def isComment (kinds : NodeKinds) (kind : Text) : Bool :=
  kinds.comments.contains kind

end NodeKinds

/-- A span of a text in which URLs are looked for. -/
structure Candidate where
  start : Int
  stop : Int
  origin : Origin
deriving DecidableEq, Repr

namespace SyntaxTree

/-- The string nodes and, if `comments` says so, the comment nodes of the trees on a stack, from the
first tree to the last. A kind that is both counts as a string. -/
def select (kinds : NodeKinds) (comments : Bool) (stack : List SyntaxTree) :
    List (SyntaxTree × Origin) :=
  match stack with
  | [] => []
  | tree :: rest =>
    if kinds.isString tree.kind then (tree, .string) :: select kinds comments rest
    else if kinds.isComment tree.kind then
      if comments then (tree, .comment) :: select kinds comments rest
      else select kinds comments rest
    else select kinds comments (tree.children ++ rest)
termination_by sizes stack
decreasing_by
  all_goals simp only [sizes, sizes_append, size_eq tree]
  all_goals omega

end SyntaxTree

namespace Document

/-- The span of a node in characters; none when an offset of the node lies outside the document. -/
def nodeSpan? (d : Document) (node : SyntaxTree × Origin) : Option Candidate := do
  let start ← d.charOffset? node.1.start
  let stop ← d.charOffset? node.1.stop
  return ⟨start, stop, node.2⟩

/-- The candidates that a syntax tree of the document offers, without those that are empty; none
when an offset of a selected node lies outside the document. -/
def treeCandidates? (d : Document) (kinds : NodeKinds) (comments : Bool) (tree : SyntaxTree) :
    Option (List Candidate) := do
  let spans ← (SyntaxTree.select kinds comments [tree]).mapM d.nodeSpan?
  return spans.filter fun span => span.start < span.stop

/-- The whole text as the only candidate; an empty text has none. -/
def textCandidates (d : Document) : List Candidate :=
  if d.text.isEmpty then [] else [⟨0, d.text.length, .text⟩]

end Document

end UrlScan
