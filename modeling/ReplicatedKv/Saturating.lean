/-! # Saturating arithmetic

Sums and products of 64-bit numbers that stop at the end of the range instead of wrapping round.
Each operation is the exact result clamped once, which is what its lemma says.
-/

namespace ReplicatedKv.Saturating

/-- The sum, or the largest 64-bit number where it does not fit. -/
def add (a b : UInt64) : UInt64 := .ofNatClamp (a.toNat + b.toNat)

/-- The product, or the largest 64-bit number where it does not fit. -/
def mul (a b : UInt64) : UInt64 := .ofNatClamp (a.toNat * b.toNat)

/-- The signed sum, or the end of the signed range that it passes. -/
def addSigned (a b : Int64) : Int64 := .ofIntClamp (a.toInt + b.toInt)

/-- The number in the signed range, or the largest signed number where it does not fit. -/
def toSigned (a : UInt64) : Int64 := .ofIntClamp a.toNat

theorem toNat_clamp (n : Nat) : (UInt64.ofNatClamp n).toNat = min n (UInt64.size - 1) := by
  unfold UInt64.ofNatClamp
  split <;> simp only [UInt64.toNat_ofNatLT] <;> omega

@[simp] theorem toNat_add (a b : UInt64) :
    (add a b).toNat = min (a.toNat + b.toNat) (UInt64.size - 1) := toNat_clamp _

@[simp] theorem toNat_mul (a b : UInt64) :
    (mul a b).toNat = min (a.toNat * b.toNat) (UInt64.size - 1) := toNat_clamp _

theorem toInt_clamp (i : Int) :
    (Int64.ofIntClamp i).toInt = max Int64.minValue.toInt (min i Int64.maxValue.toInt) := by
  have range : Int64.minValue.toInt ≤ Int64.maxValue.toInt := by decide
  unfold Int64.ofIntClamp
  split
  · split
    · rw [Int64.toInt_ofIntLE]
      omega
    · omega
  · omega

@[simp] theorem toInt_addSigned (a b : Int64) : (addSigned a b).toInt =
    max Int64.minValue.toInt (min (a.toInt + b.toInt) Int64.maxValue.toInt) := toInt_clamp _

@[simp] theorem toInt_toSigned (a : UInt64) :
    (toSigned a).toInt = min (a.toNat : Int) Int64.maxValue.toInt := by
  have nonneg : Int64.minValue.toInt ≤ 0 := by decide
  have range : Int64.minValue.toInt ≤ Int64.maxValue.toInt := by decide
  rw [toSigned, toInt_clamp]
  omega

end ReplicatedKv.Saturating
