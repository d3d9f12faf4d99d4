import ReplicatedKv.Saturating

/-! # Gas

There is no fee model: gas is metered so that every receipt reports the same amount on every
replica, and nothing is refused for running out of it.  All amounts saturate.
-/

namespace ReplicatedKv.Gas

def writeFlat : UInt64 := 2000

/-- The price of every byte of a write's key and value. -/
def writePerByte : UInt64 := 30

/-- The price of a write, from the lengths of its key and value. -/
def writeCost (keyLength valueLength : Nat) : UInt64 :=
  let size := Saturating.add (.ofNatClamp keyLength) (.ofNatClamp valueLength)
  Saturating.add writeFlat (Saturating.mul size writePerByte)

/-- The gas consumed so far by one transaction. -/
structure Meter where
  consumed : UInt64 := 0
  deriving DecidableEq

namespace Meter

def consume (m : Meter) (amount : UInt64) : Meter := ⟨Saturating.add m.consumed amount⟩

/-- The consumed gas in the signed form that receipts carry. -/
def reported (m : Meter) : Int64 := Saturating.toSigned m.consumed

end Meter

end ReplicatedKv.Gas
