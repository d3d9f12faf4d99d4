import ReplicatedKv.Commitment.StateRoot
import ReplicatedKv.Proofs.Commitment.Tree
import ReplicatedKv.Proofs.Store.Writes

/-! # The state root binds the state

Two states with one root are equal, unless the hash function collides on byte strings that were
hashed for these two roots.  No assumption on the hash function is made: where the states differ,
the collision is found by walking down both trees at once.

* `Traced` — a digest together with every byte string hashed on the way to it.
* `hashedStrings` — what is hashed for a state root: the computation of the root itself, run on
  traced digests.
* `stateRoot_binding` — equal roots give equal states, two different hashed strings with one hash,
  or a hashed string whose hash is the root of the empty state.
-/

namespace ReplicatedKv

/-! ## Preimages -/

theorem littleEndian_injective {v w : UInt32} (same : littleEndian v = littleEndian w) : v = w := by
  simp only [littleEndian, List.cons.injEq, and_true, ← UInt8.toNat_inj, UInt32.toNat_toUInt8,
    UInt32.toNat_shiftRight] at same
  simp only [UInt32.reduceToNat, Nat.reduceMod, Nat.shiftRight_eq_div_pow] at same
  apply UInt32.toNat_inj.mp
  have := v.toNat_lt
  have := w.toNat_lt
  omega

/-- The length in front keeps key and value apart.  It is a 32-bit number, so the keys have to be
    shorter than 2^32 bytes. -/
theorem leafPreimage_injective {key key' value value' : Bytes} (short : key.length < UInt32.size)
    (short' : key'.length < UInt32.size)
    (same : leafPreimage key value = leafPreimage key' value') : key = key' ∧ value = value' := by
  -- the tag and the length take the same place in both
  simp only [leafPreimage, List.cons_append, List.cons.injEq, true_and, List.append_assoc] at same
  obtain ⟨sameLength, sameRest⟩ := List.append_inj same rfl
  have lengths : key.length = key'.length := by
    have := congrArg UInt32.toNat (littleEndian_injective sameLength)
    simp only [Nat.toUInt32_eq, UInt32.toNat_ofNat'] at this
    simp only [UInt32.size] at short short'
    omega
  exact List.append_inj sameRest lengths

theorem toBytes_injective {d d' : Digest} (same : d.toBytes = d'.toBytes) : d = d' :=
  Vector.toList_inj.mp same

theorem nodePreimage_injective {left left' right right' : Digest}
    (same : nodePreimage left right = nodePreimage left' right') :
    left = left' ∧ right = right' := by
  simp only [nodePreimage, List.cons_append, List.cons.injEq, true_and] at same
  obtain ⟨sameLeft, sameRight⟩ := List.append_inj same (by simp)
  exact ⟨toBytes_injective sameLeft, toBytes_injective sameRight⟩

theorem leafPreimage_ne_nodePreimage (key value : Bytes) (left right : Digest) :
    leafPreimage key value ≠ nodePreimage left right := by
  intro same
  simp [leafPreimage, nodePreimage] at same

/-! ## What is hashed for a root -/

/-- A digest and every byte string that was hashed to get it. -/
structure Traced where
  digest : Digest
  hashed : List Bytes

namespace Traced

/-- Hashes a byte string after those that were hashed before. -/
def hash (s : Bytes) (before : List Bytes) : Traced := ⟨blake3 s, s :: before⟩

def entry (e : Bytes × Bytes) : Traced := hash (leafPreimage e.1 e.2) []

def join (left right : Traced) : Traced :=
  hash (nodePreimage left.digest right.digest) (left.hashed ++ right.hashed)

theorem digest_join (left right : Traced) :
    (join left right).digest = nodeDigest left.digest right.digest := rfl

end Traced

/-- The state root, computed with every digest traced. -/
def tracedRoot (entries : Entries) : Traced :=
  Merkle.root Traced.join ⟨Digest.zero, []⟩ (entries.toList.map Traced.entry)

/-- The byte strings hashed while computing a state root. -/
def hashedStrings (entries : Entries) : List Bytes := (tracedRoot entries).hashed

theorem digest_tracedRoot (entries : Entries) :
    (tracedRoot entries).digest = stateRoot entries := by
  rw [tracedRoot, Merkle.map_root Traced.digest Traced.digest_join, List.map_map, stateRoot]
  rfl

/-- Two different byte strings of the list have one hash. -/
def Collides (strings : List Bytes) : Prop :=
  ∃ s ∈ strings, ∃ t ∈ strings, s ≠ t ∧ blake3 s = blake3 t

theorem Collides.append_mono {as as' bs bs' : List Bytes} (collides : Collides (as ++ bs))
    (left : as ⊆ as') (right : bs ⊆ bs') : Collides (as' ++ bs') := by
  have sub : as ++ bs ⊆ as' ++ bs' := List.append_subset.mpr
    ⟨List.subset_append_of_subset_left _ left, List.subset_append_of_subset_right _ right⟩
  obtain ⟨s, memberS, t, memberT, differ, same⟩ := collides
  exact ⟨s, sub memberS, t, sub memberT, differ, same⟩

/-! ## Walking down two trees -/

namespace Merkle.Tree

def traced (tree : Tree (Bytes × Bytes)) : Traced := tree.eval Traced.entry Traced.join

def preimage : Tree (Bytes × Bytes) → Bytes
  | leaf e => leafPreimage e.1 e.2
  | node left right => nodePreimage left.traced.digest right.traced.digest

theorem digest_traced (tree : Tree (Bytes × Bytes)) :
    tree.traced.digest = blake3 tree.preimage := by
  cases tree <;> rfl

theorem preimage_mem_hashed (tree : Tree (Bytes × Bytes)) :
    tree.preimage ∈ tree.traced.hashed := by
  cases tree <;> exact List.mem_cons_self ..

theorem hashed_left_subset (left right : Tree (Bytes × Bytes)) :
    left.traced.hashed ⊆ (node left right).traced.hashed := by
  intro s member
  exact List.mem_cons_of_mem _ (List.mem_append_left _ member)

theorem hashed_right_subset (left right : Tree (Bytes × Bytes)) :
    right.traced.hashed ⊆ (node left right).traced.hashed := by
  intro s member
  exact List.mem_cons_of_mem _ (List.mem_append_right _ member)

theorem preimage_leaf_ne_preimage_node (e : Bytes × Bytes) (left right : Tree (Bytes × Bytes)) :
    (leaf e).preimage ≠ (node left right).preimage :=
  leafPreimage_ne_nodePreimage e.1 e.2 left.traced.digest right.traced.digest

theorem collides_of_preimage_ne {s t : Tree (Bytes × Bytes)} (differ : s.preimage ≠ t.preimage)
    (same : s.traced.digest = t.traced.digest) :
    Collides (s.traced.hashed ++ t.traced.hashed) := by
  rw [digest_traced, digest_traced] at same
  exact ⟨_, List.mem_append_left _ (preimage_mem_hashed _), _,
    List.mem_append_right _ (preimage_mem_hashed _), differ, same⟩

/-- Trees of any two shapes with one digest are equal, unless what they hash collides. -/
theorem eq_or_collides (s t : Tree (Bytes × Bytes))
    (shortS : ∀ e ∈ s.leaves, e.1.length < UInt32.size)
    (shortT : ∀ e ∈ t.leaves, e.1.length < UInt32.size)
    (same : s.traced.digest = t.traced.digest) :
    s = t ∨ Collides (s.traced.hashed ++ t.traced.hashed) := by
  -- where the last strings differ, they collide; where they agree, so do the shapes
  induction s generalizing t with
  | leaf e =>
    by_cases samePreimage : (leaf e).preimage = t.preimage
    · cases t with
      | leaf e' =>
        obtain ⟨sameKey, sameValue⟩ := leafPreimage_injective (shortS e (List.mem_cons_self ..))
          (shortT e' (List.mem_cons_self ..)) samePreimage
        exact .inl (congrArg leaf (Prod.ext sameKey sameValue))
      | node left right => exact absurd samePreimage (preimage_leaf_ne_preimage_node _ _ _)
    · exact .inr (collides_of_preimage_ne samePreimage same)
  | node left right ihLeft ihRight =>
    by_cases samePreimage : (node left right).preimage = t.preimage
    · cases t with
      | leaf e => exact absurd samePreimage.symm (preimage_leaf_ne_preimage_node _ _ _)
      | node left' right' =>
        -- one preimage, so the subtrees agree in their digests and the walk goes on in both
        obtain ⟨sameLeft, sameRight⟩ := nodePreimage_injective samePreimage
        obtain ⟨shortLeft, shortRight⟩ := List.forall_mem_append.mp shortS
        obtain ⟨shortLeft', shortRight'⟩ := List.forall_mem_append.mp shortT
        rcases ihLeft left' shortLeft shortLeft' sameLeft with equal | collides
        · rcases ihRight right' shortRight shortRight' sameRight with equal' | collides
          · exact .inl (by rw [equal, equal'])
          · exact .inr (collides.append_mono (hashed_right_subset left right)
              (hashed_right_subset left' right'))
        · exact .inr (collides.append_mono (hashed_left_subset left right)
            (hashed_left_subset left' right'))
    · exact .inr (collides_of_preimage_ne samePreimage same)

end Merkle.Tree

/-! ## The state root -/

theorem tracedRoot_of_toList {entries : Entries} {first : Bytes × Bytes}
    {rest : List (Bytes × Bytes)} (content : entries.toList = first :: rest) :
    tracedRoot entries = (Merkle.shape first rest).traced := by
  rw [tracedRoot, content, Merkle.Tree.traced, Merkle.eval_shape]

/-- Every nonempty state has a root that is the hash of one of its hashed strings. -/
theorem exists_hashed_eq_stateRoot {entries : Entries} {first : Bytes × Bytes}
    {rest : List (Bytes × Bytes)} (content : entries.toList = first :: rest) :
    ∃ s ∈ hashedStrings entries, blake3 s = stateRoot entries := by
  rw [hashedStrings, ← digest_tracedRoot, tracedRoot_of_toList content, Merkle.Tree.digest_traced]
  exact ⟨_, Merkle.Tree.preimage_mem_hashed _, rfl⟩

theorem short_of_toList {entries : Entries} {content : List (Bytes × Bytes)}
    (same : entries.toList = content) (short : ∀ key ∈ entries, key.length < UInt32.size) :
    ∀ e ∈ content, e.1.length < UInt32.size := by
  intro e member
  rw [← same] at member
  have found : entries[e.1]? = some e.2 := Std.ExtTreeMap.mem_toList_iff_getElem?_eq_some.mp member
  apply short
  rw [Std.ExtTreeMap.mem_iff_isSome_getElem?, found]
  rfl

/-- States with one root are equal, unless among the byte strings hashed for the two roots there are
    two with one hash, or there is one whose hash is the root of the empty state.  The states may
    have different sizes, and so trees of different shapes. -/
theorem stateRoot_binding (a b : Entries) (shortA : ∀ key ∈ a, key.length < UInt32.size)
    (shortB : ∀ key ∈ b, key.length < UInt32.size) (same : stateRoot a = stateRoot b) :
    a = b ∨ Collides (hashedStrings a ++ hashedStrings b) ∨
      ∃ s ∈ hashedStrings a ++ hashedStrings b, blake3 s = Digest.zero := by
  cases contentA : a.toList with
  | nil =>
    cases contentB : b.toList with
    | nil =>
      refine .inl (Std.ExtTreeMap.toList_inj.mp ?_)
      rw [contentA, contentB]
    | cons first rest =>
      obtain ⟨s, member, hash⟩ := exists_hashed_eq_stateRoot contentB
      refine .inr (.inr ⟨s, List.mem_append_right _ member, ?_⟩)
      rw [hash, ← same, stateRoot_of_toList_nil contentA]
  | cons first rest =>
    cases contentB : b.toList with
    | nil =>
      obtain ⟨s, member, hash⟩ := exists_hashed_eq_stateRoot contentA
      refine .inr (.inr ⟨s, List.mem_append_left _ member, ?_⟩)
      rw [hash, same, stateRoot_of_toList_nil contentB]
    | cons first' rest' =>
      have keysA := short_of_toList contentA shortA
      have keysB := short_of_toList contentB shortB
      rw [← Merkle.leaves_shape first rest] at keysA
      rw [← Merkle.leaves_shape first' rest'] at keysB
      rw [← digest_tracedRoot, ← digest_tracedRoot, tracedRoot_of_toList contentA,
        tracedRoot_of_toList contentB] at same
      rw [hashedStrings, hashedStrings, tracedRoot_of_toList contentA,
        tracedRoot_of_toList contentB]
      rcases Merkle.Tree.eq_or_collides _ _ keysA keysB same with equal | collides
      · have leaves := congrArg Merkle.Tree.leaves equal
        rw [Merkle.leaves_shape, Merkle.leaves_shape, ← contentA, ← contentB] at leaves
        exact .inl (Std.ExtTreeMap.toList_inj.mp leaves)
      · exact .inr (.inl collides)

/-- Three entries, one of them without a value. -/
def Entries.inOrder : Entries := .ofWrites [⟨[1], [0x61]⟩, ⟨[1, 2], []⟩, ⟨[2], [0x62]⟩]

/-- The same entries, written in another order and one of them twice. -/
def Entries.outOfOrder : Entries :=
  .ofWrites [⟨[2], [0x63]⟩, ⟨[1, 2], []⟩, ⟨[2], [0x62]⟩, ⟨[1], [0x61]⟩]

theorem stateRoot_binding_inOrder_outOfOrder :
    (∀ key ∈ Entries.inOrder, key.length < UInt32.size) ∧
      (∀ key ∈ Entries.outOfOrder, key.length < UInt32.size) ∧
      stateRoot Entries.inOrder = stateRoot Entries.outOfOrder ∧
      (Entries.inOrder = Entries.outOfOrder ∨
        Collides (hashedStrings Entries.inOrder ++ hashedStrings Entries.outOfOrder) ∨
        ∃ s ∈ hashedStrings Entries.inOrder ++ hashedStrings Entries.outOfOrder,
          blake3 s = Digest.zero) := by
  have short (writes : List Write) (all : ∀ w ∈ writes, w.key.length < UInt32.size) :
      ∀ key ∈ Entries.ofWrites writes, key.length < UInt32.size := by
    intro key member
    obtain ⟨w, memberW, rfl⟩ := Entries.exists_write_of_mem member
    exact all w memberW
  have shortA : ∀ key ∈ Entries.inOrder, key.length < UInt32.size := short _ (by decide)
  have shortB : ∀ key ∈ Entries.outOfOrder, key.length < UInt32.size := short _ (by decide)
  have content : Entries.inOrder.toList = Entries.outOfOrder.toList := by decide +kernel
  have same : stateRoot Entries.inOrder = stateRoot Entries.outOfOrder :=
    congrArg stateRoot (Std.ExtTreeMap.toList_inj.mp content)
  exact ⟨shortA, shortB, same, stateRoot_binding _ _ shortA shortB same⟩

end ReplicatedKv
