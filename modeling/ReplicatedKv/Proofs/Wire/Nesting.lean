import ReplicatedKv.Proofs.Wire.Grammar

/-! # Nested groups

Groups inside groups, down to an innermost one, are skipped as long as their number is within the
budget.  One key more that opens a group is too deep, and it is found as soon as it is read: what
follows it, and whether the groups are ever closed, makes no difference.

* `Opens` — keys that open groups, each inside the one before it.
* `Nest` — the same with an end key for each, and nothing inside the innermost group.
* `skipField_opens` — with as many keys behind the first as the budget has, skipping is too deep.
* `Nest.sequence`, `Field.within_nest` — a nest is a field that nests as deep as it has groups.
-/

namespace ReplicatedKv.Wire

/-- The byte string consists of keys that open groups with these numbers, in any spelling. -/
inductive Opens : (numbers : List Nat) → Bytes → Prop where
  | nil : Opens [] []
  | cons {number : Nat} {numbers : List Nat} {k s : Bytes} :
      FieldKey.Spelling ⟨number, .startGroup⟩ k → Opens numbers s →
        Opens (number :: numbers) (k ++ s)

/-- The byte string consists of groups with these numbers, each holding the next and nothing else,
    and each closed by the end key of its number. -/
inductive Nest : (numbers : List Nat) → Bytes → Prop where
  | nil : Nest [] []
  | cons {number : Nat} {numbers : List Nat} {k s e : Bytes} :
      FieldKey.Spelling ⟨number, .startGroup⟩ k → Nest numbers s →
        FieldKey.Spelling ⟨number, .endGroup⟩ e → Nest (number :: numbers) (k ++ s ++ e)

/-- The first of the numbers, if there is one, is none of those with a meaning. -/
def FirstUnknown (known numbers : List Nat) : Prop := ∀ first ∈ numbers.head?, first ∉ known

/-! ## Too many keys -/

/-- Inside open groups every key takes one from what is left of the budget, so the loop fails at the
    latest with the key behind the last that the budget has room for. -/
theorem skipGroups_opens {budget : Nat} {numbers : List Nat} {s : Bytes} (opens : Opens numbers s)
    (rest : Bytes) {number : Nat} {outer : List Nat} (inside : outer.length + 1 ≤ budget)
    (deep : budget < outer.length + 1 + numbers.length) :
    skipGroups budget (number :: outer) (s ++ rest) = .error .tooDeep := by
  induction opens generalizing number outer with
  | nil =>
    rw [List.length_nil] at deep
    omega
  | @cons inner numbers k s key opens ih =>
    have keyRead : FieldKey.read (k ++ s ++ rest) = .ok (⟨inner, .startGroup⟩, s ++ rest) :=
      FieldKey.read_eq_ok_iff.mpr ⟨k, List.append_assoc .., key⟩
    rw [skipGroups_of_read keyRead, if_neg nofun]
    by_cases full : budget ≤ outer.length + 1
    · rw [if_pos full]
    · rw [if_neg full, if_pos rfl]
      rw [List.length_cons] at deep
      exact ih (by rw [List.length_cons]; omega) (by rw [List.length_cons]; omega)

theorem skipField_opens {budget number : Nat} {numbers : List Nat} {s : Bytes}
    (opens : Opens numbers s) (deep : budget ≤ numbers.length) (rest : Bytes) :
    skipField budget ⟨number, .startGroup⟩ (s ++ rest) = .error .tooDeep := by
  rw [skipField]
  by_cases none : budget = 0
  · rw [if_pos none]
  · rw [if_neg none]
    apply skipGroups_opens opens
    · rw [List.length_nil]
      omega
    · rw [List.length_nil]
      omega

/-! ## Closed groups -/

/-- Groups with these numbers, each the only field of the one before it. -/
def Field.nest : List Nat → List Field
  | [] => []
  | number :: numbers => [.group number (Field.nest numbers)]

theorem Nest.sequence {numbers : List Nat} {s : Bytes} (nest : Nest numbers s) :
    Field.Sequence (Field.nest numbers) s := by
  induction nest with
  | nil => exact .nil
  | @cons number numbers k s e start _ close ih =>
    have alone : Field.Sequence (Field.nest (number :: numbers)) (k ++ (s ++ e) ++ []) :=
      .cons start (.group ih close) .nil
    rwa [List.append_nil, ← List.append_assoc] at alone

theorem Field.within_nest {numbers : List Nat} {limit : Nat} (short : numbers.length ≤ limit) :
    ∀ f ∈ Field.nest numbers, f.Within limit := by
  induction numbers generalizing limit with
  | nil => simp [Field.nest]
  | cons number numbers ih =>
    rw [List.length_cons] at short
    have inner : ∀ f ∈ Field.nest numbers, f.Within (limit - 1) := ih (by omega)
    simp only [Field.nest, List.mem_singleton, forall_eq]
    exact Field.within_group_iff.mpr ⟨by omega, inner⟩

theorem Field.number_mem_head?_of_nest {numbers : List Nat} {f : Field}
    (member : f ∈ Field.nest numbers) : f.number ∈ numbers.head? := by
  cases numbers with
  | nil => cases member
  | cons number numbers =>
    rw [List.mem_singleton.mp member]
    rfl

end ReplicatedKv.Wire
