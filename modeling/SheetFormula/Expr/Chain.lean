import SheetFormula.Expr

/-!
# Chains of operators

Operators that group to the left make a tree as deep as the formula is long. A chain lays such a
tree out flat: the leftmost operand, and then each operator with its right operand, in the order in
which they are applied.

A tree and its chain are the same thing: `Chain.toExpr` builds the tree again, and
`Chain.toExpr_ofExpr` says that nothing is lost. It follows from `Chain.toExpr_unfold`, which
carries the operators that are laid out already along with the part of the tree that is not.

Evaluation goes over chains, and it calls itself on the head and on the right operands. That these
are smaller than the tree is `Chain.size_head_lt` and `Chain.linksSize_ofExpr_lt`; both come from
`Chain.size_ofExpr`, which counts the nodes on the two sides.
-/

namespace SheetFormula

/-- An operator with its right operand and its place. -/
structure Link where
  op : Operator
  right : Expr
  position : Nat

/-- An expression as its leftmost operand and the operators applied to it one after another. -/
structure Chain where
  head : Expr
  links : List Link

namespace Chain

/-- The chain of `e` with `links` after it. -/
def unfold : Expr → List Link → Chain
  | .binary op left right position, links => unfold left (⟨op, right, position⟩ :: links)
  | e, links => ⟨e, links⟩

/-- The chain of `e`. -/
def ofExpr (e : Expr) : Chain :=
  unfold e []

/-- The expression that a chain lays out. -/
def toExpr (c : Chain) : Expr :=
  c.links.foldl (fun left link => .binary link.op left link.right link.position) c.head

theorem toExpr_unfold (e : Expr) (links : List Link) :
    (unfold e links).toExpr =
      links.foldl (fun left link => .binary link.op left link.right link.position) e := by
  fun_induction unfold e links with
  | case1 links op left right position ih => simpa using ih
  | case2 => rfl

@[simp]
theorem toExpr_ofExpr (e : Expr) : (ofExpr e).toExpr = e :=
  toExpr_unfold e []

/-- The number of nodes of a list of links, one for each operator. -/
def linksSize : List Link → Nat
  | [] => 0
  | link :: others => link.right.size + linksSize others + 1

/-- The number of nodes of a chain. -/
def size (c : Chain) : Nat :=
  c.head.size + linksSize c.links

theorem size_unfold (e : Expr) (links : List Link) :
    (unfold e links).size = e.size + linksSize links := by
  fun_induction unfold e links with
  | case1 links op left right position ih =>
    simp only [ih, linksSize, Expr.size]
    omega
  | case2 => rfl

@[simp]
theorem size_ofExpr (e : Expr) : (ofExpr e).size = e.size :=
  size_unfold e []

/-- The operators laid out last stay in the chain. -/
theorem linksSize_le_unfold (e : Expr) (links : List Link) :
    linksSize links ≤ linksSize (unfold e links).links := by
  fun_induction unfold e links with
  | case1 links op left right position ih =>
    simp only [linksSize] at ih
    omega
  | case2 => exact Nat.le_refl _

/-- The head of the chain of an operation is smaller than the operation. -/
theorem size_head_lt (op : Operator) (left right : Expr) (position : Nat) :
    (ofExpr (.binary op left right position)).head.size <
      (Expr.binary op left right position).size := by
  have total := size_ofExpr (.binary op left right position)
  have links := linksSize_le_unfold left [⟨op, right, position⟩]
  simp only [size, ofExpr, unfold, linksSize] at total links ⊢
  omega

/-- The links of a chain are smaller than the expression it lays out. -/
theorem linksSize_ofExpr_lt (e : Expr) : linksSize (ofExpr e).links < e.size := by
  have total := size_ofExpr e
  have head := (ofExpr e).head.size_pos
  simp only [size] at total
  omega

end Chain

end SheetFormula
