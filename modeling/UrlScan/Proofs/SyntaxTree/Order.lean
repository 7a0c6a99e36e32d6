import UrlScan.SyntaxTree.Candidates
import UrlScan.SyntaxTree.Sketch

/-!
# The order of nodes in a syntax tree

A parser delivers trees whose nodes lie in the bytes of the file: every node has a span, its
subtrees lie in the span, and each subtree ends before the next one begins (`Within`, `InOrder`). The
walk that selects string and comment nodes keeps a stack of trees; what it relies on is that the
trees on the stack are in order, and the children of the first tree may take its place.

Results:
1. `select_inside`: every selected node lies in the span of the stack.
2. `select_apart`: the selected nodes follow one another without overlap.
-/

namespace UrlScan.SyntaxTree

mutual
/-- `Within low high tree`: the tree lies between the offsets `low` and `high`, and its subtrees lie
in it, one behind the other. -/
def Within : Int → Int → SyntaxTree → Prop
  | low, high, node _ start stop children =>
    low ≤ start ∧ start ≤ stop ∧ stop ≤ high ∧ InOrder start stop children

/-- `InOrder low high trees`: the trees lie between the offsets `low` and `high`, and none of them
begins before the one in front of it ends. -/
def InOrder : Int → Int → List SyntaxTree → Prop
  | _, _, [] => True
  | low, high, tree :: rest => Within low high tree ∧ InOrder tree.stop high rest
end

section
variable {low high : Int}

theorem Within.bounds {tree : SyntaxTree} (within : tree.Within low high) :
    low ≤ tree.start ∧ tree.start ≤ tree.stop ∧ tree.stop ≤ high := by
  cases tree
  rw [Within] at within
  exact ⟨within.1, within.2.1, within.2.2.1⟩

theorem Within.children {tree : SyntaxTree} (within : tree.Within low high) :
    InOrder tree.start tree.stop tree.children := by
  cases tree
  rw [Within] at within
  exact within.2.2.2

theorem Within.mono {low' high' : Int} {tree : SyntaxTree} (within : tree.Within low high)
    (lower : low' ≤ low) (higher : high ≤ high') : tree.Within low' high' := by
  cases tree
  rw [Within] at within ⊢
  exact ⟨Int.le_trans lower within.1, within.2.1, Int.le_trans within.2.2.1 higher,
    within.2.2.2⟩

theorem InOrder.mono {low' high' : Int} {trees : List SyntaxTree} (ordered : InOrder low high trees)
    (lower : low' ≤ low) (higher : high ≤ high') : InOrder low' high' trees := by
  induction trees generalizing low low' with
  | nil => trivial
  | cons tree rest ih =>
    rw [InOrder] at ordered ⊢
    exact ⟨ordered.1.mono lower higher, ih ordered.2 (Int.le_refl _)⟩

/-- Trees in order up to some offset, and trees in order from there on, are in order together. -/
theorem InOrder.append {middle : Int} {trees rest : List SyntaxTree}
    (front : InOrder low middle trees) (back : InOrder middle high rest) (first : low ≤ middle)
    (last : middle ≤ high) : InOrder low high (trees ++ rest) := by
  induction trees generalizing low with
  | nil => exact back.mono first (Int.le_refl _)
  | cons tree trees ih =>
    rw [InOrder] at front
    rw [List.cons_append, InOrder]
    exact ⟨front.1.mono (Int.le_refl _) last, ih front.2 front.1.bounds.2.2⟩

/-- The trees behind the first one of a stack lie in the span of the stack as well. -/
theorem InOrder.rest {tree : SyntaxTree} {rest : List SyntaxTree}
    (ordered : InOrder low high (tree :: rest)) : InOrder low high rest := by
  rw [InOrder] at ordered
  obtain ⟨lower, span, -⟩ := ordered.1.bounds
  exact ordered.2.mono (Int.le_trans lower span) (Int.le_refl _)

/-- The children of the first tree of a stack may take its place. -/
theorem InOrder.expand {tree : SyntaxTree} {rest : List SyntaxTree}
    (ordered : InOrder low high (tree :: rest)) : InOrder low high (tree.children ++ rest) := by
  rw [InOrder] at ordered
  obtain ⟨within, behind⟩ := ordered
  obtain ⟨lower, span, higher⟩ := within.bounds
  exact (within.children.append behind span higher).mono lower (Int.le_refl _)

/-! ## The selected nodes -/

section
variable (kinds : NodeKinds) (comments : Bool)

/-- Every selected node lies in the span of the stack. -/
theorem select_inside {stack : List SyntaxTree} (ordered : InOrder low high stack) :
    ∀ selected ∈ select kinds comments stack,
      low ≤ selected.1.start ∧ selected.1.start ≤ selected.1.stop ∧ selected.1.stop ≤ high := by
  have first {tree : SyntaxTree} {rest : List SyntaxTree}
      (ordered : InOrder low high (tree :: rest)) :
      low ≤ tree.start ∧ tree.start ≤ tree.stop ∧ tree.stop ≤ high := by
    rw [InOrder] at ordered
    exact ordered.1.bounds
  -- A node is selected, passed over with all that is in it, or replaced by its children.
  fun_induction select kinds comments stack with
  | case1 => exact fun _ member => nomatch member
  | case2 tree rest _ ih | case3 tree rest _ _ _ ih =>
    intro selected member
    rcases List.mem_cons.mp member with rfl | later
    · exact first ordered
    · exact ih ordered.rest selected later
  | case4 tree rest _ _ _ ih => exact ih ordered.rest
  | case5 tree rest _ _ ih => exact ih ordered.expand

/-- The selected nodes follow one another without overlap. -/
theorem select_apart {stack : List SyntaxTree} (ordered : InOrder low high stack) :
    (select kinds comments stack).Pairwise fun a b => a.1.stop ≤ b.1.start := by
  fun_induction select kinds comments stack with
  | case1 => exact .nil
  | case2 tree rest _ ih | case3 tree rest _ _ _ ih =>
    refine List.pairwise_cons.mpr ⟨fun selected later => ?_, ih ordered.rest⟩
    rw [InOrder] at ordered
    exact (select_inside kinds comments ordered.2 selected later).1
  | case4 tree rest _ _ _ ih => exact ih ordered.rest
  | case5 tree rest _ _ ih => exact ih ordered.expand

end

end

/-! ## Sketch parsing -/

/-- The node of a string lies in the span of the string, and what is inside its quotes in the
node. -/
theorem stringNode_within {start stop : Nat} (notEmpty : start < stop) :
    (stringNode start stop).Within start stop := by
  simp only [stringNode, Within, InOrder, and_true]
  omega

/-- A node over the first bytes of a file, followed by nodes over the other bytes. -/
theorem InOrder.sketched {node : SyntaxTree} {offset length : Nat} {bytes : Bytes}
    {nodes : List SyntaxTree} (within : node.Within offset (offset + length : Nat))
    (stop : node.stop = (offset + length : Nat)) (short : length ≤ bytes.length)
    (behind : InOrder (offset + length : Nat)
      (offset + length + (bytes.drop length).length : Nat) nodes) :
    InOrder offset (offset + bytes.length : Nat) (node :: nodes) := by
  rw [List.length_drop, Nat.add_assoc, Nat.add_sub_cancel' short] at behind
  refine ⟨within.mono (Int.le_refl _) (by omega), ?_⟩
  rw [stop]
  exact behind

/-- The nodes that the sketch parser makes are in order. -/
theorem sketchNodes_inOrder (offset : Nat) (bytes : Bytes) :
    InOrder offset (offset + bytes.length : Nat) (sketchNodes offset bytes) := by
  fun_induction sketchNodes offset bytes with
  | case1 => trivial
  | case2 offset rest inside length ih =>
    have bound : inside ≤ rest.length := (List.takeWhile_prefix _).length_le
    have positive : 0 < length := by
      unfold length
      split <;> omega
    have short : length ≤ rest.length + 1 := by
      unfold length
      split <;> omega
    -- At least the opening quote is taken, also when the file ends behind it.
    obtain ⟨n, same⟩ := Nat.exists_eq_succ_of_ne_zero (Nat.ne_of_gt positive)
    rw [same] at ih short ⊢
    exact .sketched (stringNode_within (by omega)) rfl short ih
  | case3 offset b rest other slashes length ih =>
    have bound : (rest.takeWhile (· != lineFeedByte)).length ≤ rest.length :=
      (List.takeWhile_prefix _).length_le
    obtain ⟨n, same⟩ : ∃ n, length = n + 1 := ⟨_, Nat.add_comm 1 _⟩
    have short : n + 1 ≤ rest.length + 1 := by omega
    rw [same] at ih ⊢
    exact .sketched ⟨Int.le_refl _, by omega, Int.le_refl _, trivial⟩ rfl short ih
  | case4 offset b rest _ _ ih =>
    refine ih.mono (by omega) ?_
    rw [List.length_cons]
    omega

/-- The sketch parser makes trees that lie in the file. -/
theorem sketch_within (bytes : Bytes) : (sketch bytes).Within 0 bytes.length := by
  have ordered := sketchNodes_inOrder 0 bytes
  rw [Nat.zero_add] at ordered
  exact ⟨Int.le_refl 0, Int.natCast_nonneg _, Int.le_refl _, ordered⟩

end UrlScan.SyntaxTree
