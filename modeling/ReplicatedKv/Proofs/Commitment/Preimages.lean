import ReplicatedKv.Proofs.Commitment.Binding

/-! # What is hashed for an entry

The bytes hashed for an entry give the length of its key in four bytes.  They tell two entries apart
as long as these four bytes tell the lengths apart.

* `WrappedSplit` — two entries that are the same bytes, divided where the lengths look alike.
* `leafPreimage_eq_iff` — for different entries the same is hashed exactly where they are that.
* `EntryBinding`, `leaf_entryBinding` — what this means for the preimages of two entries and for the
  roots of states that hold nothing else.
* `leafPreimage_wraps` — two entries that nothing tells apart.
-/

namespace ReplicatedKv

/-! ## Preimages -/

theorem toUInt32_eq_iff {n m : Nat} :
    n.toUInt32 = m.toUInt32 ↔ n % UInt32.size = m % UInt32.size := by
  rw [← UInt32.toNat_inj, Nat.toUInt32_eq, Nat.toUInt32_eq, UInt32.toNat_ofNat',
    UInt32.toNat_ofNat']

/-- Of the length of a key the bytes hashed for its entry keep the remainder by 2^32; key and value
    stand in them one after the other. -/
theorem leafPreimage_eq_iff {key key' value value' : Bytes} :
    leafPreimage key value = leafPreimage key' value' ↔
      key.length % UInt32.size = key'.length % UInt32.size ∧ key ++ value = key' ++ value' := by
  simp only [leafPreimage, List.cons_append, List.cons.injEq, true_and, List.append_assoc]
  rw [← toUInt32_eq_iff]
  constructor
  · intro same
    obtain ⟨sameLength, sameRest⟩ := List.append_inj same rfl
    exact ⟨littleEndian_injective sameLength, sameRest⟩
  · rintro ⟨sameLength, sameRest⟩
    rw [sameLength, sameRest]

/-- The two entries are the same bytes, divided at places that lie a multiple of 2^32 apart. -/
structure WrappedSplit (e e' : Bytes × Bytes) : Prop where
  lengths_ne : e.1.length ≠ e'.1.length
  wrapped : e.1.length % UInt32.size = e'.1.length % UInt32.size
  sameBytes : e.1 ++ e.2 = e'.1 ++ e'.2

namespace WrappedSplit

variable {e e' : Bytes × Bytes}

theorem ne (split : WrappedSplit e e') : e ≠ e' := by
  rintro rfl
  exact split.lengths_ne rfl

theorem same_leafPreimage (split : WrappedSplit e e') :
    leafPreimage e.1 e.2 = leafPreimage e'.1 e'.2 :=
  leafPreimage_eq_iff.mpr ⟨split.wrapped, split.sameBytes⟩

theorem of_leafPreimage (differ : e ≠ e')
    (same : leafPreimage e.1 e.2 = leafPreimage e'.1 e'.2) : WrappedSplit e e' := by
  obtain ⟨wrapped, sameBytes⟩ := leafPreimage_eq_iff.mp same
  refine ⟨fun sameLength => differ ?_, wrapped, sameBytes⟩
  -- with keys of one length, the same bytes are divided at one place
  obtain ⟨sameKey, sameValue⟩ := List.append_inj sameBytes sameLength
  exact Prod.ext sameKey sameValue

/-- Lengths that fit into four bytes are kept whole. -/
theorem not_of_short (short : e.1.length < UInt32.size) (short' : e'.1.length < UInt32.size) :
    ¬ WrappedSplit e e' := by
  intro split
  have wrapped := split.wrapped
  rw [Nat.mod_eq_of_lt short, Nat.mod_eq_of_lt short'] at wrapped
  exact split.lengths_ne wrapped

/-- The last 2^32 bytes of a key may as well be the first bytes of the value. -/
theorem of_long (front value : Bytes) {back : Bytes} (long : back.length = UInt32.size) :
    WrappedSplit (front ++ back, value) (front, back ++ value) where
  lengths_ne := by
    have : 0 < UInt32.size := by decide
    simp only [List.length_append, long]
    omega
  wrapped := by
    simp only [List.length_append, long, Nat.add_mod_right]
  sameBytes := List.append_assoc front back value

end WrappedSplit

/-! ## Roots -/

theorem Entries.toList_ofList_singleton (e : Bytes × Bytes) : (ofList [e]).toList = [e] := by
  have size : (ofList [e]).toList.length = 1 := by
    rw [Std.ExtTreeMap.length_toList, ofList, List.foldl_cons, List.foldl_nil,
      Std.ExtTreeMap.size_insert]
    simp
  have member : e ∈ (ofList [e]).toList := by
    rw [Std.ExtTreeMap.mem_toList_iff_getElem?_eq_some]
    simp [ofList]
  obtain ⟨only, listed⟩ := List.length_eq_one_iff.mp size
  rw [listed, List.mem_singleton] at member
  rw [listed, member]

/-- The root of a state with one entry is the hash of that entry. -/
theorem stateRoot_singleton (e : Bytes × Bytes) :
    stateRoot (.ofList [e]) = blake3 (leafPreimage e.1 e.2) := by
  rw [stateRoot, Entries.toList_ofList_singleton, List.map_cons, List.map_nil, Merkle.root]
  rfl

/-! ## Two entries -/

/-- What the bytes hashed for two entries say about them. -/
structure EntryBinding (e e' : Bytes × Bytes) : Prop where
  distinct_iff :
    (e ≠ e' → leafPreimage e.1 e.2 ≠ leafPreimage e'.1 e'.2) ↔ ¬ WrappedSplit e e'
  distinct_of_short : e.1.length < UInt32.size → e'.1.length < UInt32.size → e ≠ e' →
    leafPreimage e.1 e.2 ≠ leafPreimage e'.1 e'.2
  /-- An entry is never taken for a pair of subtrees. -/
  ne_nodePreimage (left right : Digest) : leafPreimage e.1 e.2 ≠ nodePreimage left right
  /-- Two states of one entry have one root for three reasons only: there is one entry, it is
      divided in two ways, or the hash function collides. -/
  sameRoot_iff : stateRoot (.ofList [e]) = stateRoot (.ofList [e']) ↔
    e = e' ∨ WrappedSplit e e' ∨ leafPreimage e.1 e.2 ≠ leafPreimage e'.1 e'.2 ∧
      blake3 (leafPreimage e.1 e.2) = blake3 (leafPreimage e'.1 e'.2)

/-- Different entries are told apart by what is hashed for them, exactly unless they are the same
    bytes divided at places a multiple of 2^32 apart. -/
theorem leaf_entryBinding (e e' : Bytes × Bytes) : EntryBinding e e' where
  distinct_iff := by
    constructor
    · intro distinct split
      exact distinct split.ne split.same_leafPreimage
    · intro noSplit differ same
      exact noSplit (.of_leafPreimage differ same)
  distinct_of_short short short' differ same :=
    WrappedSplit.not_of_short short short' (.of_leafPreimage differ same)
  ne_nodePreimage := leafPreimage_ne_nodePreimage e.1 e.2
  sameRoot_iff := by
    rw [stateRoot_singleton, stateRoot_singleton]
    constructor
    · intro sameHash
      by_cases same : leafPreimage e.1 e.2 = leafPreimage e'.1 e'.2
      · by_cases equal : e = e'
        · exact .inl equal
        · exact .inr (.inl (.of_leafPreimage equal same))
      · exact .inr (.inr ⟨same, sameHash⟩)
    · rintro (rfl | split | ⟨-, sameHash⟩)
      · rfl
      · rw [split.same_leafPreimage]
      · exact sameHash

/-- 2^32 zero bytes are hashed alike as a key without a value and as a value under the empty key, so
    these two states have one root. -/
theorem leafPreimage_wraps :
    ((List.replicate UInt32.size 0, []) : Bytes × Bytes) ≠ ([], List.replicate UInt32.size 0) ∧
      leafPreimage (List.replicate UInt32.size 0) [] =
        leafPreimage [] (List.replicate UInt32.size 0) ∧
      stateRoot (.ofList [(List.replicate UInt32.size 0, [])]) =
        stateRoot (.ofList [([], List.replicate UInt32.size 0)]) := by
  have split := WrappedSplit.of_long [] [] (List.length_replicate (n := UInt32.size) (a := 0))
  rw [List.nil_append, List.append_nil] at split
  refine ⟨split.ne, split.same_leafPreimage, ?_⟩
  rw [stateRoot_singleton, stateRoot_singleton, split.same_leafPreimage]

end ReplicatedKv
