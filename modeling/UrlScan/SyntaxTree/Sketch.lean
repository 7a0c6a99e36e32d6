import UrlScan.SyntaxTree.Basic

/-!
# Sketch parsing

The plainest parser that is of use: it knows strings between double quotes and comments from `//`
to the end of the line, and passes over everything else. A string that is not closed runs to the
end of the file.
-/

namespace UrlScan.SyntaxTree

def quoteByte : UInt8 := 0x22

def slashByte : UInt8 := 0x2F

def lineFeedByte : UInt8 := 0x0A

/-- The node of a string from `start` to `stop`, whose child is what stands between its quotes. -/
def stringNode (start stop : Nat) : SyntaxTree :=
  .node "string".toList start stop
    [.node "string_fragment".toList (start + 1) (max (start + 1) (stop - 1) : Nat) []]

/-- The strings and comments in bytes that begin at `offset`. -/
def sketchNodes (offset : Nat) (bytes : Bytes) : List SyntaxTree :=
  match bytes with
  | [] => []
  | b :: rest =>
    if b = quoteByte then
      let inside := (rest.takeWhile (· != quoteByte)).length
      let length := if inside < rest.length then inside + 2 else inside + 1
      stringNode offset (offset + length) :: sketchNodes (offset + length) (rest.drop (length - 1))
    else if b = slashByte ∧ rest.head? = some slashByte then
      let length := 1 + (rest.takeWhile (· != lineFeedByte)).length
      .node "comment".toList offset (offset + length : Nat) [] ::
        sketchNodes (offset + length) (rest.drop (length - 1))
    else sketchNodes (offset + 1) rest
termination_by bytes.length
decreasing_by all_goals (simp only [List.length_drop, List.length_cons]; omega)

/-- The tree of a file: its strings and comments under one root. -/
def sketch (bytes : Bytes) : SyntaxTree :=
  .node "program".toList 0 bytes.length (sketchNodes 0 bytes)

end UrlScan.SyntaxTree
