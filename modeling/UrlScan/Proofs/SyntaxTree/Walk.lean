import UrlScan.SyntaxTree.Candidates

/-!
# What the walk over a syntax tree takes

The walk keeps a stack of trees. This file says without a stack what it takes: the string nodes with
no string and no comment above them, and, when comments are wanted, the comment nodes of which the
same holds and which are not strings as well.

A node is told apart from its likes by its position, the numbers of the children to go to on the way
down from the root. Positions are compared number by number, and a position is smaller than what
continues it: in this order a tree is read from left to right, each node before all that is in it.

Results:
1. `select_eq_taken`: the stack yields what the recursion `taken` yields for its trees in turn.
2. `walk_sizes`: the walk is over after as many rounds as there are nodes.
3. `mem_taken_iff`: what the recursion takes, node by node.
4. `taken_ordered`: it takes each node once, in the order of the positions.
5. `select_taken`: the four together.
-/

namespace UrlScan.SyntaxTree

/-- The way from the root of a tree to a node: the numbers of the children to go to. -/
abbrev Position := List Nat

def at? : SyntaxTree → Position → Option SyntaxTree
  | tree, [] => some tree
  | tree, i :: path => tree.children[i]?.bind (·.at? path)

/-- What is taken: a node with the origin that its URLs have, and its position. -/
abbrev TakenAt := Position × SyntaxTree × Origin

/-- What is taken in a child counts its position from the parent. -/
def TakenAt.inChild (i : Nat) (found : TakenAt) : TakenAt :=
  (i :: found.1, found.2)

section
variable (kinds : NodeKinds) (comments : Bool)

mutual
/-- What is taken in a tree: the root alone when it is a string or a comment that is wanted, nothing
when it is another comment, and otherwise what is taken in the children. -/
def taken : SyntaxTree → List TakenAt
  | node kind start stop children =>
    if kinds.isString kind then [([], node kind start stop children, .string)]
    else if kinds.isComment kind then
      if comments then [([], node kind start stop children, .comment)] else []
    else takenFrom 0 children

/-- What is taken in the children of a node from child number `i` on. -/
def takenFrom (i : Nat) : List SyntaxTree → List TakenAt
  | [] => []
  | tree :: rest => (taken tree).map (TakenAt.inChild i) ++ takenFrom (i + 1) rest
end

/-! ## The stack -/

theorem taken_eq (tree : SyntaxTree) :
    taken kinds comments tree =
      if kinds.isString tree.kind then [([], tree, .string)]
      else if kinds.isComment tree.kind then if comments then [([], tree, .comment)] else []
      else takenFrom kinds comments 0 tree.children := by
  cases tree
  rw [taken]
  rfl

/-- The children of a node yield what each of them yields, whatever their numbers are. -/
theorem map_snd_takenFrom (i : Nat) (trees : List SyntaxTree) :
    (takenFrom kinds comments i trees).map Prod.snd =
      trees.flatMap fun tree => (taken kinds comments tree).map Prod.snd := by
  induction trees generalizing i with
  | nil => rw [takenFrom]; rfl
  | cons tree rest ih =>
    rw [takenFrom, List.map_append, List.map_map, ih, List.flatMap_cons]
    rfl

/-- The stack yields what the recursion yields for its trees, from the first one to the last. -/
theorem select_eq_taken (stack : List SyntaxTree) :
    select kinds comments stack =
      stack.flatMap fun tree => (taken kinds comments tree).map Prod.snd := by
  -- The output that is still to come is that of the trees on the stack: each round keeps this.
  fun_induction select kinds comments stack with
  | case1 => rfl
  | case2 tree rest isString ih =>
    rw [ih, List.flatMap_cons, taken_eq, if_pos isString]
    rfl
  | case3 tree rest notString isComment wanted ih =>
    rw [ih, List.flatMap_cons, taken_eq, if_neg notString, if_pos isComment, if_pos wanted]
    rfl
  | case4 tree rest notString isComment unwanted ih =>
    rw [ih, List.flatMap_cons, taken_eq, if_neg notString, if_pos isComment, if_neg unwanted]
    rfl
  | case5 tree rest notString notComment ih =>
    rw [ih, List.flatMap_append, List.flatMap_cons, taken_eq, if_neg notString, if_neg notComment,
      map_snd_takenFrom]

/-! ## The rounds of the walk -/

/-- One round: `tree` leaves the stack, on which it was in front of `rest`. What it yields, and the
stack for the next round. -/
def round (tree : SyntaxTree) (rest : List SyntaxTree) :
    List (SyntaxTree × Origin) × List SyntaxTree :=
  if kinds.isString tree.kind then ([(tree, .string)], rest)
  else if kinds.isComment tree.kind then (if comments then [(tree, .comment)] else [], rest)
  else ([], tree.children ++ rest)

/-- What the given number of rounds yields, and the stack that is left; without a tree on the stack
there is no further round. -/
def walk : (rounds : Nat) → List SyntaxTree → List (SyntaxTree × Origin) × List SyntaxTree
  | 0, stack => ([], stack)
  | _ + 1, [] => ([], [])
  | rounds + 1, tree :: rest =>
    let (yielded, stack) := round kinds comments tree rest
    let (later, left) := walk rounds stack
    (yielded ++ later, left)

theorem select_cons (tree : SyntaxTree) (rest : List SyntaxTree) :
    select kinds comments (tree :: rest) =
      (round kinds comments tree rest).1 ++
        select kinds comments (round kinds comments tree rest).2 := by
  rw [select, round]
  repeat' split
  all_goals rfl

/-- Every round takes at least one node from the stack for good. -/
theorem sizes_round_lt (tree : SyntaxTree) (rest : List SyntaxTree) :
    sizes (round kinds comments tree rest).2 < sizes (tree :: rest) := by
  rw [round, sizes, size_eq]
  repeat' split
  all_goals simp only [sizes_append]
  all_goals omega

/-- After as many rounds as there are nodes on the stack the stack is empty, and all has been
yielded. -/
theorem walk_sizes {rounds : Nat} {stack : List SyntaxTree} (enough : sizes stack ≤ rounds) :
    walk kinds comments rounds stack = (select kinds comments stack, []) := by
  induction rounds generalizing stack with
  | zero =>
    cases stack with
    | nil => rw [walk, select]
    | cons tree rest =>
      rw [sizes, size_eq] at enough
      omega
  | succ rounds ih =>
    cases stack with
    | nil => rw [walk, select]
    | cons tree rest =>
      have fewer := sizes_round_lt kinds comments tree rest
      have stops : walk kinds comments rounds (round kinds comments tree rest).2 =
          (select kinds comments (round kinds comments tree rest).2, []) := ih (by omega)
      rw [walk, select_cons]
      dsimp only
      rw [stops]

/-! ## Which nodes are taken -/

/-- A node at a position is taken: above it there is no string and no comment, and it is itself a
string, or a comment and no string where comments are wanted. -/
structure IsTaken (tree : SyntaxTree) (position : Position) (node : SyntaxTree)
    (origin : Origin) : Prop where
  at_eq : tree.at? position = some node
  open_above : ∀ above ancestor, above <+: position → above ≠ position →
    tree.at? above = some ancestor →
      kinds.isString ancestor.kind = false ∧ kinds.isComment ancestor.kind = false
  kind : (kinds.isString node.kind = true ∧ origin = .string) ∨
    (comments = true ∧ kinds.isString node.kind = false ∧ kinds.isComment node.kind = true ∧
      origin = .comment)

section
variable {kinds comments}
variable {tree node : SyntaxTree} {position : Position} {origin : Origin} {i : Nat}

theorem mem_takenFrom_iff {trees : List SyntaxTree} {found : TakenAt} :
    found ∈ takenFrom kinds comments i trees ↔
      ∃ j child inner, trees[j]? = some child ∧ inner ∈ taken kinds comments child ∧
        found = TakenAt.inChild (i + j) inner := by
  induction trees generalizing i with
  | nil => simp [takenFrom]
  | cons tree rest ih =>
    rw [takenFrom, List.mem_append, List.mem_map, ih]
    constructor
    · rintro (⟨inner, member, rfl⟩ | ⟨j, child, inner, isChild, member, rfl⟩)
      · exact ⟨0, tree, inner, rfl, member, rfl⟩
      · exact ⟨j + 1, child, inner, isChild, member, by rw [Nat.add_right_comm, Nat.add_assoc]⟩
    · rintro ⟨j, child, inner, isChild, member, rfl⟩
      cases j with
      | zero =>
        cases isChild
        exact .inl ⟨inner, member, rfl⟩
      | succ j =>
        exact .inr ⟨j, child, inner, isChild, member, by rw [Nat.add_right_comm, Nat.add_assoc]⟩

/-- A node below the root is taken when the root is open and it is taken in the child. -/
theorem isTaken_cons_iff {path : Position} :
    IsTaken kinds comments tree (i :: path) node origin ↔
      (kinds.isString tree.kind = false ∧ kinds.isComment tree.kind = false) ∧
        ∃ child, tree.children[i]? = some child ∧
          IsTaken kinds comments child path node origin := by
  constructor
  · rintro ⟨isNode, openAbove, kind⟩
    obtain ⟨child, isChild, isNode⟩ := Option.bind_eq_some_iff.mp isNode
    refine ⟨openAbove [] tree (List.nil_prefix) (List.cons_ne_nil i path).symm rfl, child, isChild,
      isNode, fun above ancestor prefixed proper found => ?_, kind⟩
    refine openAbove (i :: above) ancestor (List.cons_prefix_cons.mpr ⟨rfl, prefixed⟩) ?_ ?_
    · exact fun same => proper (List.cons.inj same).2
    · exact Option.bind_eq_some_iff.mpr ⟨child, isChild, found⟩
  · rintro ⟨isOpen, child, isChild, isNode, openAbove, kind⟩
    refine ⟨Option.bind_eq_some_iff.mpr ⟨child, isChild, isNode⟩, ?_, kind⟩
    intro above ancestor prefixed proper found
    cases above with
    | nil =>
      cases found
      exact isOpen
    | cons j above =>
      obtain ⟨rfl, shorter⟩ := List.cons_prefix_cons.mp prefixed
      obtain ⟨child', isChild', found⟩ := Option.bind_eq_some_iff.mp found
      cases isChild.symm.trans isChild'
      exact openAbove above ancestor shorter (fun same => proper (congrArg _ same)) found

/-- The root is taken for its own kind. -/
theorem isTaken_nil_iff :
    IsTaken kinds comments tree [] node origin ↔ node = tree ∧
      ((kinds.isString tree.kind = true ∧ origin = .string) ∨
        (comments = true ∧ kinds.isString tree.kind = false ∧ kinds.isComment tree.kind = true ∧
          origin = .comment)) := by
  constructor
  · rintro ⟨isNode, -, kind⟩
    cases isNode
    exact ⟨rfl, kind⟩
  · rintro ⟨rfl, kind⟩
    exact ⟨rfl, fun above _ prefixed proper => absurd (List.prefix_nil.mp prefixed) proper, kind⟩

theorem nil_notMem_takenFrom {trees : List SyntaxTree} :
    ([], node, origin) ∉ takenFrom kinds comments i trees := by
  intro member
  obtain ⟨j, child, inner, -, -, same⟩ := mem_takenFrom_iff.mp member
  cases same

theorem cons_mem_takenFrom_iff {trees : List SyntaxTree} {path : Position} :
    (i :: path, node, origin) ∈ takenFrom kinds comments 0 trees ↔
      ∃ child, trees[i]? = some child ∧ (path, node, origin) ∈ taken kinds comments child := by
  rw [mem_takenFrom_iff]
  constructor
  · rintro ⟨j, child, ⟨path', inner⟩, isChild, member, same⟩
    rw [Nat.zero_add] at same
    cases same
    exact ⟨child, isChild, member⟩
  · rintro ⟨child, isChild, member⟩
    exact ⟨i, child, _, isChild, member, by rw [Nat.zero_add]; rfl⟩

/-- The recursion takes the nodes that are open to it and qualify, and no others. -/
theorem mem_taken_iff :
    (position, node, origin) ∈ taken kinds comments tree ↔
      IsTaken kinds comments tree position node origin := by
  induction position generalizing tree with
  | nil =>
    rw [isTaken_nil_iff, taken_eq]
    cases isString : kinds.isString tree.kind with
    | true => simp
    | false =>
      cases isComment : kinds.isComment tree.kind with
      | true => cases comments <;> simp
      | false => simp [nil_notMem_takenFrom]
  | cons i path ih =>
    rw [isTaken_cons_iff, taken_eq]
    cases isString : kinds.isString tree.kind with
    | true => simp
    | false =>
      cases isComment : kinds.isComment tree.kind with
      | true => cases comments <;> simp
      | false => simp [cons_mem_takenFrom_iff, ih]

theorem IsTaken.unique {node' : SyntaxTree} {origin' : Origin}
    (first : IsTaken kinds comments tree position node origin)
    (second : IsTaken kinds comments tree position node' origin') :
    node = node' ∧ origin = origin' := by
  have same : node = node' := Option.some.inj (first.at_eq.symm.trans second.at_eq)
  subst same
  refine ⟨rfl, ?_⟩
  -- A node that is no string is not taken as a string, and a string not as a comment.
  rcases first.kind with ⟨isString, rfl⟩ | ⟨-, notString, -, rfl⟩ <;>
    rcases second.kind with ⟨isString', rfl⟩ | ⟨-, notString', -, rfl⟩
  · rfl
  · exact absurd isString (Bool.eq_false_iff.mp notString')
  · exact absurd isString' (Bool.eq_false_iff.mp notString)
  · rfl

/-- Nothing is taken below a node that is taken. -/
theorem IsTaken.not_below {below : Position} {node' : SyntaxTree} {origin' : Origin}
    (above : IsTaken kinds comments tree position node origin)
    (prefixed : position <+: below) (proper : position ≠ below) :
    ¬IsTaken kinds comments tree below node' origin' := by
  intro inner
  obtain ⟨notString, notComment⟩ :=
    inner.open_above position node prefixed proper above.at_eq
  rcases above.kind with ⟨isString, -⟩ | ⟨-, -, isComment, -⟩
  · exact absurd isString (Bool.eq_false_iff.mp notString)
  · exact absurd isComment (Bool.eq_false_iff.mp notComment)

end

/-! ## The order of what is taken -/

mutual
/-- The positions of what is taken in a tree grow. -/
theorem taken_ordered :
    ∀ tree, (taken kinds comments tree).Pairwise fun a b => a.1 < b.1
  | node kind start stop children => by
    rw [taken]
    split
    · exact List.pairwise_singleton _ _
    · split
      · split
        · exact List.pairwise_singleton _ _
        · exact .nil
      · exact takenFrom_ordered 0 children

theorem takenFrom_ordered (i : Nat) :
    ∀ trees, (takenFrom kinds comments i trees).Pairwise fun a b => a.1 < b.1
  | [] => by
    rw [takenFrom]
    exact .nil
  | tree :: rest => by
    rw [takenFrom]
    refine List.pairwise_append.mpr ⟨?_, takenFrom_ordered (i + 1) rest, ?_⟩
    · refine List.pairwise_map.mpr ((taken_ordered tree).imp fun {a b} smaller => ?_)
      exact List.cons_lt_cons_iff.mpr (.inr ⟨rfl, smaller⟩)
    · intro a memberA b memberB
      obtain ⟨inner, -, rfl⟩ := List.mem_map.mp memberA
      obtain ⟨j, child, inner', -, -, rfl⟩ := mem_takenFrom_iff.mp memberB
      exact List.cons_lt_cons_iff.mpr (.inl (by omega))
end

/-- What the walk over a tree takes. It is what the recursion takes, and the walk is over after at
most as many rounds as the tree has nodes. The positions of what is taken grow, so that the nodes
come in the order of the text and each of them once; they are exactly the nodes that are open to the
walk and qualify; and none of them lies below another one. -/
theorem select_taken (tree : SyntaxTree) :
    let found := taken kinds comments tree
    select kinds comments [tree] = found.map Prod.snd ∧
    walk kinds comments tree.size [tree] = (select kinds comments [tree], []) ∧
    (found.Pairwise fun a b => a.1 < b.1) ∧
    (∀ position node origin, (position, node, origin) ∈ found ↔
      IsTaken kinds comments tree position node origin) ∧
    ∀ a ∈ found, ∀ b ∈ found, a.1 <+: b.1 → a = b := by
  intro found
  refine ⟨?_, ?_, taken_ordered kinds comments tree, fun _ _ _ => mem_taken_iff, ?_⟩
  · rw [select_eq_taken, List.flatMap_singleton]
  · exact walk_sizes kinds comments (Nat.le_of_eq (by rw [sizes, sizes, Nat.add_zero]))
  · rintro ⟨above, node, origin⟩ member ⟨below, node', origin'⟩ member' prefixed
    have isTaken := mem_taken_iff.mp member
    have isTaken' := mem_taken_iff.mp member'
    by_cases same : above = below
    · subst same
      obtain ⟨rfl, rfl⟩ := isTaken.unique isTaken'
      rfl
    · exact absurd isTaken' (isTaken.not_below prefixed same)

/-- A kind that is a string and a comment counts as a string, what is below a comment is passed over
with it, and a string behind the comment is found again. -/
example :
    let s : SyntaxTree := .node ['s'] 1 2 []
    let c : SyntaxTree := .node ['c'] 1 4 [s]
    let both : SyntaxTree := .node ['b'] 4 5 [c]
    let tree : SyntaxTree := .node ['p'] 0 9 [c, .node ['q'] 4 9 [both, s]]
    (taken ⟨[['s'], ['b']], [['c'], ['b']]⟩ false tree).map (fun found => (found.1, found.2.2)) =
      [([1, 0], .string), ([1, 1], .string)] := by
  decide

end

end UrlScan.SyntaxTree
