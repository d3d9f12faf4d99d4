/-! # Byte strings

Keys, values, transactions and documents are byte strings, kept as lists so that every function on
them is plain recursion.  This module holds what all of them share:

* `Bytes.toHex` — lower-case hexadecimal text, two digits per byte.
* `Bytes.chunks` — cutting into pieces of one size, the last one possibly shorter.
* `Bytes.splitExact?` — the first `n` bytes and the rest, if there are that many.
* `littleEndian`, `Bytes.ofLittleEndian`, `Bytes.ofBigEndian` — 32-bit words.
-/

namespace ReplicatedKv

/-- An uninterpreted byte string. -/
abbrev Bytes := List UInt8

namespace Bytes

/-- Two lower-case hexadecimal digits per byte. -/
def toHex (s : Bytes) : String :=
  String.ofList (s.flatMap fun b => [Nat.digitChar (b.toNat / 16), Nat.digitChar (b.toNat % 16)])

/-- The pieces of `size` bytes, in order; only the last may be shorter, and none is empty.  A piece
    has at least one byte, also for `size = 0`. -/
def chunks (size : Nat) : Bytes → List Bytes
  | [] => []
  | b :: s => (b :: s.take (size - 1)) :: chunks size (s.drop (size - 1))
termination_by s => s.length
decreasing_by simp only [List.length_drop, List.length_cons]; omega

/-- The first `n` bytes and what follows them, if there are `n` bytes.  What follows is not looked
    at. -/
def splitExact? (n : Nat) (s : Bytes) : Option (Bytes × Bytes) :=
  if (s.take n).length = n then some (s.take n, s.drop n) else none

theorem splitExact?_eq_some_iff {n : Nat} {s t r : Bytes} :
    splitExact? n s = some (t, r) ↔ s = t ++ r ∧ t.length = n := by
  rw [splitExact?]
  constructor
  · intro h
    split at h
    · simp only [Option.some.injEq, Prod.mk.injEq] at h
      obtain ⟨rfl, rfl⟩ := h
      exact ⟨(List.take_append_drop n s).symm, by assumption⟩
    · cases h
  · rintro ⟨rfl, rfl⟩
    simp

/-- The number whose bytes these are, least significant first, modulo 2^32. -/
def ofLittleEndian (s : Bytes) : UInt32 :=
  s.foldr (fun b w => w <<< 8 ||| b.toUInt32) 0

/-- The number whose bytes these are, most significant first, modulo 2^32. -/
def ofBigEndian (s : Bytes) : UInt32 :=
  s.foldl (fun w b => w <<< 8 ||| b.toUInt32) 0

end Bytes

/-- The four bytes of a word, least significant first. -/
def littleEndian (w : UInt32) : Bytes :=
  [w.toUInt8, (w >>> 8).toUInt8, (w >>> 16).toUInt8, (w >>> 24).toUInt8]

def bigEndian (w : UInt32) : Bytes := (littleEndian w).reverse

@[simp] theorem length_littleEndian (w : UInt32) : (littleEndian w).length = 4 := rfl

@[simp] theorem length_bigEndian (w : UInt32) : (bigEndian w).length = 4 := rfl

/-! ## Reading steps

A reading step gives what it read and the bytes after it, or says what is wrong. -/

/-- A step of which only the bytes after it are kept. -/
theorem exists_of_map_snd {ε α β : Type} {step : Except ε (α × β)} {b : β}
    (h : step.map Prod.snd = .ok b) : ∃ a, step = .ok (a, b) := by
  cases step with
  | error => cases h
  | ok pair => cases h; exact ⟨pair.1, rfl⟩

end ReplicatedKv
