import ReplicatedKv.Commitment.Merkle

/-! # The tree behind a Merkle root

Pairing level by level joins nodes along a binary tree.  Which tree that is does not depend on the
way of joining, so a root can be taken over trees themselves first and evaluated afterwards.

* `Merkle.map_root` — the root commutes with every map that turns one way of joining into another.
* `Merkle.shape` — the tree over a list of leaves: a root whose joining builds a node.
* `Merkle.leaves_shape`, `Merkle.eval_shape` — it has exactly these leaves in order, and evaluating
  it gives the root.
-/

namespace ReplicatedKv.Merkle

variable {H K α : Type}

/-! ## Roots under a change of joining -/

theorem map_pairUp {join : H → H → H} {join' : K → K → K} {f : H → K}
    (hom : ∀ left right, f (join left right) = join' (f left) (f right)) :
    ∀ level : List H, (pairUp join level).map f = pairUp join' (level.map f)
  | [] => rfl
  | [_] => rfl
  | left :: right :: rest => by
    simp only [pairUp, List.map_cons, hom, map_pairUp hom rest]

theorem map_root {join : H → H → H} {join' : K → K → K} (f : H → K)
    (hom : ∀ left right, f (join left right) = join' (f left) (f right)) (empty : H)
    (level : List H) : f (root join empty level) = root join' (f empty) (level.map f) := by
  fun_induction root join empty level with
  | case1 => rw [List.map_nil, root]
  | case2 top => rw [List.map_cons, List.map_nil, root]
  | case3 left right rest ih => rw [ih, map_pairUp hom, List.map_cons, List.map_cons, root]

/-- The value for no leaves does not matter where there are leaves. -/
theorem root_cons_eq (join : H → H → H) (empty empty' first : H) (rest : List H) :
    root join empty (first :: rest) = root join empty' (first :: rest) := by
  generalize given : first :: rest = level
  fun_induction root join empty level generalizing first rest with
  | case1 => cases given
  | case2 => rw [root]
  | case3 left right others ih => rw [ih _ _ rfl, root]

/-! ## Trees -/

/-- A binary tree with its data at the leaves. -/
inductive Tree (α : Type) where
  | leaf (a : α)
  | node (left right : Tree α)

namespace Tree

/-- The leaves from left to right. -/
def leaves : Tree α → List α
  | leaf a => [a]
  | node left right => left.leaves ++ right.leaves

/-- The value of a tree, from the values of its leaves and a way of joining. -/
def eval (value : α → H) (join : H → H → H) : Tree α → H
  | leaf a => value a
  | node left right => join (left.eval value join) (right.eval value join)

end Tree

/-- The tree along which the root over these leaves is joined. -/
def shape (first : α) (rest : List α) : Tree α :=
  root Tree.node (.leaf first) ((first :: rest).map Tree.leaf)

theorem eval_shape (value : α → H) (join : H → H → H) (empty : H) (first : α) (rest : List α) :
    (shape first rest).eval value join = root join empty ((first :: rest).map value) := by
  have joins (left right : Tree α) : (Tree.node left right).eval value join =
      join (left.eval value join) (right.eval value join) := rfl
  rw [shape, map_root (Tree.eval value join) joins, List.map_map]
  exact root_cons_eq join _ _ _ _

theorem flatten_pairUp :
    ∀ level : List (List α), (pairUp (· ++ ·) level).flatten = level.flatten
  | [] => rfl
  | [_] => rfl
  | left :: right :: rest => by
    simp only [pairUp, List.flatten_cons, flatten_pairUp rest, List.append_assoc]

/-- Joining lists by putting one after the other keeps their order. -/
theorem root_append (level : List (List α)) : root (· ++ ·) [] level = level.flatten := by
  fun_induction root (· ++ ·) [] level with
  | case1 => rfl
  | case2 top => simp
  | case3 left right rest ih => rw [ih, flatten_pairUp]

theorem leaves_shape (first : α) (rest : List α) :
    (shape first rest).leaves = first :: rest := by
  have joins : ∀ tree : Tree α, tree.leaves = tree.eval (fun a => [a]) (· ++ ·) := by
    intro tree
    induction tree with
    | leaf a => rfl
    | node left right ihLeft ihRight => simp only [Tree.leaves, Tree.eval, ihLeft, ihRight]
  rw [joins, eval_shape _ _ [], root_append, ← List.flatMap_def]
  exact List.flatMap_singleton' _

end ReplicatedKv.Merkle
