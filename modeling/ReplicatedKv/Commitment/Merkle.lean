/-! # Merkle roots

The root of a binary hash tree over a list of leaves, for any way of hashing two nodes into one.
Neighbours are paired level by level; a last node without a neighbour moves up unchanged.
-/

namespace ReplicatedKv.Merkle

variable {H : Type}

/-- The level above: neighbours joined, a last odd node kept. -/
def pairUp (join : H → H → H) : List H → List H
  | left :: right :: rest => join left right :: pairUp join rest
  | rest => rest

theorem length_pairUp (join : H → H → H) :
    ∀ level : List H, (pairUp join level).length = (level.length + 1) / 2
  | [] => by simp [pairUp]
  | [_] => by simp [pairUp]
  | _ :: _ :: rest => by
    simp only [pairUp, List.length_cons, length_pairUp join rest]
    omega

/-- The single node that is left in the end, or `empty` for no leaves at all. -/
def root (join : H → H → H) (empty : H) : List H → H
  | [] => empty
  | [top] => top
  | left :: right :: rest => root join empty (pairUp join (left :: right :: rest))
termination_by level => level.length
decreasing_by simp only [length_pairUp, List.length_cons]; omega

end ReplicatedKv.Merkle
