import ReplicatedKv.Execution

/-! # Amounts of gas

Three saturating steps stand between a write and the gas that its receipt reports: its price, the
meter, and the signed form.  Together they are one clamp of the exact price, wherever on the way a
number stops growing.

* `Gas.Clamped` — a reported amount and the exact number behind it.
* `Write.gas` — the exact price of a write.
* `Executor.clamped_writeGas` — the reported one is that price, clamped once.
-/

namespace ReplicatedKv

namespace Gas

/-- The largest amount that a receipt can report. -/
def ceiling : Nat := Nat.pow 2 63 - 1

/-- The signed amount is the exact one, or the largest possible where that does not fit. -/
def Clamped (amount : Int64) (exact : Nat) : Prop := amount.toInt = ↑(min ceiling exact)

namespace Clamped

variable {amount other : Int64} {exact more : Nat}

theorem zero : Clamped 0 0 := rfl

theorem nonneg (clamped : Clamped amount exact) : 0 ≤ amount := by
  have positive : 0 ≤ amount.toInt := by
    rw [clamped]
    exact Int.natCast_nonneg _
  exact Int64.le_iff_toInt_le.mpr positive

/-- A sum that has stopped growing stays where it is, so it makes no difference at which summand
    that happens. -/
theorem add (clamped : Clamped amount exact) (later : Clamped other more) :
    Clamped (Saturating.addSigned amount other) (exact + more) := by
  have least : Int64.minValue.toInt ≤ 0 := by decide
  have greatest : Int64.maxValue.toInt = ceiling := rfl
  rw [Clamped, Saturating.toInt_addSigned, clamped, later, greatest]
  omega

theorem unique (clamped : Clamped amount exact) (same : Clamped other exact) : amount = other :=
  Int64.toInt_inj.mp (Eq.trans clamped (Eq.symm same))

theorem mono (clamped : Clamped amount exact) (bigger : Clamped other more) (le : exact ≤ more) :
    amount ≤ other := by
  rw [Int64.le_iff_toInt_le, clamped, bigger]
  omega

end Clamped

/-- Wherever on the way a price stops growing, its exact value is past the end as well. -/
theorem toNat_writeCost (keyLength valueLength : Nat) :
    (writeCost keyLength valueLength).toNat =
      min (2000 + 30 * (keyLength + valueLength)) (UInt64.size - 1) := by
  have flat : writeFlat.toNat = 2000 := rfl
  have perByte : writePerByte.toNat = 30 := rfl
  have size : (Saturating.add (.ofNatClamp keyLength) (.ofNatClamp valueLength)).toNat =
      min (keyLength + valueLength) (UInt64.size - 1) := by
    rw [Saturating.toNat_add, Saturating.toNat_clamp, Saturating.toNat_clamp]
    omega
  have bytes : (Saturating.mul (Saturating.add (.ofNatClamp keyLength) (.ofNatClamp valueLength))
      writePerByte).toNat = min (30 * (keyLength + valueLength)) (UInt64.size - 1) := by
    rw [Saturating.toNat_mul, size, perByte]
    omega
  rw [writeCost, Saturating.toNat_add, bytes, flat]
  omega

end Gas

/-! ## Writes -/

/-- The exact price of a write. -/
def Write.gas (w : Write) : Nat := 2000 + 30 * (w.key.length + w.value.length)

theorem Executor.clamped_writeGas (w : Write) : Gas.Clamped (writeGas w) w.gas := by
  have greatest : Int64.maxValue.toInt = Gas.ceiling := rfl
  have range : Gas.ceiling ≤ UInt64.size - 1 := by decide
  have unused : (0 : UInt64).toNat = 0 := rfl
  rw [Gas.Clamped, writeGas, Gas.Meter.reported, Gas.Meter.consume, Saturating.toInt_toSigned,
    Saturating.toNat_add, Gas.toNat_writeCost, greatest, unused, Write.gas]
  -- the unsigned steps stop growing later than the signed one, so only the last clamp shows
  omega

end ReplicatedKv
