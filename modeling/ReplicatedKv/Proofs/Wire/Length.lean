import ReplicatedKv.Proofs.Wire.Grammar

/-! # Lengths of spellings

A number can be spelled with more bytes than it needs, and a field with more than it needs for its
key and its length.  What is written has the fewest.

* `Varint.length_encode_le_iff` — how many bytes a number needs.
* `Varint.length_encode_le_of_spelling`, `length_encodeDelimited_le_of_spelling` — no spelling is
  shorter than what is written.
* `Varint.length_encode_add_le` — a sum needs no more bytes than its parts.
-/

namespace ReplicatedKv.Wire

namespace Varint

theorem value_lt (s : Bytes) : value s < Nat.pow 128 s.length := by
  induction s with
  | nil => exact Nat.zero_lt_one
  | cons b s ih =>
    have step : Nat.pow 128 (s.length + 1) = Nat.pow 128 s.length * 128 := rfl
    simp only [value, List.length_cons]
    omega

theorem length_encode_pos (n : Nat) : 0 < (encode n).length := by
  rw [encode]
  split <;> simp

theorem length_encode_le_iff {n bytes : Nat} (positive : 0 < bytes) :
    (encode n).length ≤ bytes ↔ n < Nat.pow 128 bytes := by
  induction bytes generalizing n with
  | zero => omega
  | succ bytes ih =>
    have step : Nat.pow 128 (bytes + 1) = Nat.pow 128 bytes * 128 := rfl
    have atLeastOne : 0 < Nat.pow 128 bytes := Nat.pow_pos (by decide)
    rw [encode]
    by_cases small : n < 128
    · simp only [if_pos small, List.length_singleton]
      omega
    · simp only [if_neg small, List.length_cons]
      cases bytes with
      | zero =>
        have more := length_encode_pos (n / 128)
        have single : Nat.pow 128 (0 + 1) = 128 := rfl
        omega
      | succ bytes =>
        have above : (encode (n / 128)).length ≤ bytes + 1 ↔ n / 128 < Nat.pow 128 (bytes + 1) :=
          ih (Nat.succ_pos bytes)
        omega

theorem length_encode_le_of_spelling {n : Nat} {s : Bytes} (spelled : Spelling n s) :
    (encode n).length ≤ s.length := by
  obtain ⟨high, last, rfl, -, rfl⟩ := spelled
  have positive : 0 < (high ++ [last]).length := by simp
  exact (length_encode_le_iff positive).mpr (value_lt _)

theorem length_encode_mono {m n : Nat} (le : m ≤ n) : (encode m).length ≤ (encode n).length := by
  have enough := (length_encode_le_iff (length_encode_pos n)).mp (Nat.le_refl _)
  exact (length_encode_le_iff (length_encode_pos n)).mpr (Nat.lt_of_le_of_lt le enough)

theorem length_encode_add_le (m n : Nat) :
    (encode (m + n)).length ≤ (encode m).length + (encode n).length := by
  have first := length_encode_pos m
  have second := length_encode_pos n
  have enoughFirst := (length_encode_le_iff first).mp (Nat.le_refl _)
  have enoughSecond := (length_encode_le_iff second).mp (Nat.le_refl _)
  generalize (encode m).length = a at *
  generalize (encode n).length = b at *
  apply (length_encode_le_iff (by omega)).mpr
  -- both powers are at least 2, so their sum is at most their product
  have two (bytes : Nat) (positive : 0 < bytes) : 2 ≤ Nat.pow 128 bytes :=
    Nat.le_trans (by decide) (Nat.pow_le_pow_right (by decide) positive)
  calc m + n
    _ < Nat.pow 128 a + Nat.pow 128 b := Nat.add_lt_add enoughFirst enoughSecond
    _ ≤ Nat.pow 128 a * Nat.pow 128 b := Nat.add_le_mul (two a first) (two b second)
    _ = Nat.pow 128 (a + b) := (Nat.pow_add 128 a b).symm

end Varint

/-- The keys of fields with a meaning fit into 32 bits. -/
theorem FieldKey.toNat_lt_of_small (key : FieldKey) (small : key.number ≤ 2) :
    key.toNat < UInt32.size := by
  have code := key.wireType.code_lt
  have toNat : key.toNat < 24 := by
    rw [FieldKey.toNat]
    omega
  exact Nat.lt_trans toNat (by decide)

theorem FieldKey.length_encode_le {key : FieldKey} (fits : key.toNat < UInt32.size) :
    key.encode.length ≤ 5 :=
  (Varint.length_encode_le_iff (by decide)).mpr (Nat.lt_trans fits (by decide))

theorem length_encodeDelimited_le_of_spelling {number : Nat} {payload k p : Bytes}
    (key : FieldKey.Spelling ⟨number, .lengthDelimited⟩ k)
    (spelled : (Field.lengthDelimited number payload).Payload p) :
    (encodeDelimited number payload).length ≤ (k ++ p).length := by
  have keyLength := Varint.length_encode_le_of_spelling key.varint
  cases spelled with
  | lengthDelimited length =>
    have lengthLength := Varint.length_encode_le_of_spelling length
    simp only [encodeDelimited, FieldKey.encode, List.length_append]
    omega

end ReplicatedKv.Wire
