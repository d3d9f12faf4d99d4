import Mathlib.Order.Bounds.Basic
import ReplicatedKv.Commitment.Merkle
import ReplicatedKv.Hash.Blake3

/-! # Merkle roots from the top

The root is computed level by level from the leaves upwards, and a last odd node may move up through
several levels.  The same root can be said from the top: the leaves divide behind the largest power
of two that leaves something over, and the roots of both parts are joined.

* `Merkle.root_append_full` — a full left part and a part that is no longer are joined at the top.
* `Merkle.TopDown` — the rule from the top, for any way of joining.
* `Merkle.topDown_iff_eq_root` — the root follows this rule, and nothing else does.
-/

namespace ReplicatedKv

/-- The left part of a tree over `n` leaves is the largest full tree that is not the whole one. -/
theorem Blake3.isGreatest_leftSize {n : Nat} (several : 2 ≤ n) :
    IsGreatest {p | p < n ∧ p.isPowerOfTwo} (leftSize n) := by
  refine ⟨⟨leftSize_lt several, (n - 1).log2, rfl⟩, ?_⟩
  intro p ⟨below, k, power⟩
  have exponent : k ≤ (n - 1).log2 := (Nat.le_log2 (by omega)).mpr (by omega)
  rw [power]
  exact Nat.pow_le_pow_right (by decide) exponent

namespace Merkle

variable {H : Type} {join : H → H → H} {empty : H}

/-! ## Two parts -/

/-- An even number of nodes is paired apart from what follows them. -/
theorem pairUp_append :
    ∀ {left : List H}, left.length % 2 = 0 → ∀ right : List H,
      pairUp join (left ++ right) = pairUp join left ++ pairUp join right
  | [], _, _ => rfl
  | [_], odd, _ => nomatch odd
  | first :: second :: left, even, right => by
    have evenLeft : left.length % 2 = 0 := by
      simp only [List.length_cons] at even
      omega
    simp only [List.cons_append, pairUp, pairUp_append evenLeft right]

theorem root_pairUp : ∀ level : List H, root join empty (pairUp join level) = root join empty level
  | [] => rfl
  | [_] => rfl
  | left :: right :: rest => by rw [root]

/-- The root over a full left part and a right part that is no longer. -/
theorem root_append_full {k : Nat} {left right : List H} (full : left.length = Nat.pow 2 k)
    (nonempty : 0 < right.length) (short : right.length ≤ left.length) :
    root join empty (left ++ right) =
      join (root join empty left) (root join empty right) := by
  -- each level halves both parts, and the left one stays full
  induction k generalizing left right with
  | zero =>
    have single : left.length = 1 := full
    obtain ⟨first, rfl⟩ := List.length_eq_one_iff.mp single
    obtain ⟨second, rfl⟩ := List.length_eq_one_iff.mp (by omega : right.length = 1)
    simp [root, pairUp]
  | succ k ih =>
    have double : left.length = Nat.pow 2 k * 2 := full
    have even : left.length % 2 = 0 := by omega
    have halves : (pairUp join left).length = Nat.pow 2 k := by
      rw [length_pairUp]
      omega
    have nonemptyAbove : 0 < (pairUp join right).length := by
      rw [length_pairUp]
      omega
    have shortAbove : (pairUp join right).length ≤ (pairUp join left).length := by
      rw [length_pairUp, length_pairUp]
      omega
    rw [← root_pairUp, pairUp_append even, ih halves nonemptyAbove shortAbove, root_pairUp, root_pairUp]

/-! ## The rule from the top -/

/-- The hash of no leaves is `empty`, that of a single leaf is the leaf.  Several leaves divide behind
    the largest power of two that is smaller than their number, and the hashes of both parts are
    joined. -/
structure TopDown (join : H → H → H) (empty : H) (tree : List H → H) : Prop where
  noLeaves : tree [] = empty
  single (leaf : H) : tree [leaf] = leaf
  split (leaves : List H) (p : Nat) : IsGreatest {p | p < leaves.length ∧ p.isPowerOfTwo} p →
    tree leaves = join (tree (leaves.take p)) (tree (leaves.drop p))

theorem topDown_root : TopDown join empty (root join empty) where
  noLeaves := by rw [root]
  single leaf := by rw [root]
  split := by
    intro leaves p greatest
    obtain ⟨⟨below, k, power⟩, upper⟩ := greatest
    -- twice the largest power below the number is not below it
    have reaches : leaves.length ≤ p * 2 := by
      by_contra beyond
      have next : p * 2 ≤ p := upper ⟨by omega, k + 1, by rw [power, Nat.pow_succ]⟩
      have positive : 0 < p := power ▸ Nat.two_pow_pos k
      omega
    have left : (leaves.take p).length = p := List.length_take_of_le (by omega)
    have right : (leaves.drop p).length = leaves.length - p := List.length_drop
    have nonempty : 0 < (leaves.drop p).length := by omega
    have short : (leaves.drop p).length ≤ (leaves.take p).length := by omega
    have joined : root join empty (leaves.take p ++ leaves.drop p) = _ :=
      root_append_full (left.trans power) nonempty short
    rwa [List.take_append_drop] at joined

theorem TopDown.eq_root {tree : List H → H} (topDown : TopDown join empty tree) (leaves : List H) :
    tree leaves = root join empty leaves := by
  match leaves with
  | [] => rw [topDown.noLeaves, topDown_root.noLeaves]
  | [leaf] => rw [topDown.single, topDown_root.single]
  | first :: second :: rest =>
    generalize given : first :: second :: rest = leaves
    have several : 2 ≤ leaves.length := by simp [← given]
    have greatest := Blake3.isGreatest_leftSize several
    have below := Blake3.leftSize_lt several
    have positive := Blake3.leftSize_pos leaves.length
    rw [topDown.split leaves _ greatest, topDown_root.split leaves _ greatest,
      topDown.eq_root, topDown.eq_root]
termination_by leaves.length
decreasing_by
  all_goals
    simp only [List.length_take, List.length_drop]
    omega

/-- Whatever the way of joining, computing level by level and dividing from the top give the same
    root for every list of leaves, and no other function divides like this. -/
theorem topDown_iff_eq_root (join : H → H → H) (empty : H) (tree : List H → H) :
    TopDown join empty tree ↔ tree = root join empty := by
  constructor
  · intro topDown
    exact funext topDown.eq_root
  · intro same
    rw [same]
    exact topDown_root

end Merkle

end ReplicatedKv
