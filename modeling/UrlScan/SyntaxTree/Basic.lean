import UrlScan.Text.Basic

/-!
# Syntax trees

A parser turns the bytes of a file into a tree of nodes. A node has a kind, a span of bytes, and
children in the order of the text.
-/

namespace UrlScan

/-- A syntax tree: the kind of its root, its span in bytes, and its subtrees. -/
inductive SyntaxTree
  | node (kind : Text) (start stop : Int) (children : List SyntaxTree)
deriving Inhabited, Repr

namespace SyntaxTree

def kind : SyntaxTree → Text
  | node kind _ _ _ => kind

def start : SyntaxTree → Int
  | node _ start _ _ => start

def stop : SyntaxTree → Int
  | node _ _ stop _ => stop

def children : SyntaxTree → List SyntaxTree
  | node _ _ _ children => children

mutual
def size : SyntaxTree → Nat
  | node _ _ _ children => 1 + sizes children

def sizes : List SyntaxTree → Nat
  | [] => 0
  | tree :: rest => tree.size + sizes rest
end

theorem sizes_append (left right : List SyntaxTree) :
    sizes (left ++ right) = sizes left + sizes right := by
  induction left with
  | nil => simp [sizes]
  | cons tree rest ih => simp [sizes, ih, Nat.add_assoc]

theorem size_eq (tree : SyntaxTree) : tree.size = 1 + sizes tree.children := by
  cases tree
  simp [size, children]

end SyntaxTree

end UrlScan
