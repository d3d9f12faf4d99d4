import ReplicatedKv.Bytes

/-! # Varints

Numbers as groups of seven bits, the lowest first, every byte but the last with its high bit set.
Reading takes numbers below 2^64 in at most ten bytes, in any spelling; writing uses the shortest.
-/

namespace ReplicatedKv.Wire.Varint

/-- The shortest encoding. -/
def encode (n : Nat) : Bytes :=
  if n < 128 then [n.toUInt8] else (n % 128 + 128).toUInt8 :: encode (n / 128)
termination_by n
decreasing_by omega

/-- The number at the front and the bytes after it, where at most `more` bytes may have the high
    bit set.  The byte after all of these has room for a single bit. -/
def decodeWithin? : (more : Nat) → Bytes → Option (Nat × Bytes)
  | _, [] => none
  -- nine groups of seven bits are read, and one bit of the 64 is left
  | 0, b :: s => if b.toNat ≤ 1 then some (b.toNat, s) else none
  | more + 1, b :: s =>
    if b.toNat < 0x80 then some (b.toNat, s)
    else (decodeWithin? more s).map fun (high, rest) => (b.toNat - 128 + 128 * high, rest)

/-- The number at the front and the bytes after it, unless the bytes end inside it or it does not
    fit into 64 bits. -/
def decode? (s : Bytes) : Option (Nat × Bytes) := decodeWithin? 9 s

theorem length_lt_of_decodeWithin? {more n : Nat} {s rest : Bytes}
    (h : decodeWithin? more s = some (n, rest)) : rest.length < s.length := by
  induction s generalizing more n with
  | nil => cases more <;> cases h
  | cons b s ih =>
    cases more with
    | zero =>
      simp only [decodeWithin?] at h
      split at h
      · cases h; simp
      · cases h
    | succ more =>
      simp only [decodeWithin?] at h
      split at h
      · cases h; simp
      · obtain ⟨⟨high, tail⟩, found, same⟩ := Option.map_eq_some_iff.mp h
        cases same
        have : tail.length < s.length := ih found
        show tail.length < s.length + 1
        omega

theorem length_lt_of_decode? {n : Nat} {s rest : Bytes} (h : decode? s = some (n, rest)) :
    rest.length < s.length := length_lt_of_decodeWithin? h

end ReplicatedKv.Wire.Varint
