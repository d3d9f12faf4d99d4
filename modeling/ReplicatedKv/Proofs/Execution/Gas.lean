import Mathlib.Algebra.Order.BigOperators.Group.List
import Mathlib.Algebra.Order.Ring.Nat
import Mathlib.Data.List.Forall2
import ReplicatedKv.Proofs.Execution.Block

/-! # The gas of a block

Four saturating steps stand between the bytes of a block and its gas: the price of a write, the
meter, the signed form that a receipt carries, and the total over the receipts.  Their composition
is one clamp of the exact sum, wherever on the way a number stops growing.

* `transactionGas`, `blockGas` — the exact gas of a transaction and of a block.
* `Executor.GasAccounting` — a block whose receipts and total report their exact gas.
* `Executor.runBlock_gasAccounting` — every block over every store does.
-/

namespace ReplicatedKv

/-! ## Exact gas -/

/-- The exact gas of a transaction, which is that of its write; bytes that are no transaction use
    none. -/
def transactionGas (raw : Bytes) : Nat :=
  match Write.decode raw with
  | .ok w => w.gas
  | .error _ => 0

def blockGas (txs : List Bytes) : Nat := (txs.map transactionGas).sum

theorem transactionGas_of_ok {raw : Bytes} {w : Write} (decoded : Write.decode raw = .ok w) :
    transactionGas raw = w.gas := by
  rw [transactionGas, decoded]

theorem transactionGas_of_error {raw : Bytes} {error : DecodeError}
    (failed : Write.decode raw = .error error) : transactionGas raw = 0 := by
  rw [transactionGas, failed]

theorem blockGas_cons (raw : Bytes) (txs : List Bytes) :
    blockGas (raw :: txs) = transactionGas raw + blockGas txs := by
  rw [blockGas, List.map_cons, List.sum_cons, blockGas]

theorem blockGas_of_perm {txs others : List Bytes} (reordered : txs.Perm others) :
    blockGas txs = blockGas others :=
  (reordered.map transactionGas).sum_eq

theorem blockGas_le_of_sublist {txs others : List Bytes} (extended : txs.Sublist others) :
    blockGas txs ≤ blockGas others :=
  (extended.map transactionGas).sum_le_sum fun amount _ => Nat.zero_le amount

/-! ## Receipts -/

namespace Executor

variable {σ : Type} [KeyValueStore σ]

theorem Outcome.clamped {x : Executor} {raw : Bytes} {before after : σ} {receipt : Receipt}
    (outcome : x.Outcome raw before receipt after) :
    Gas.Clamped receipt.gasUsed (transactionGas raw) := by
  cases outcome with
  | undecoded error text failed worded =>
    rw [transactionGas_of_error failed]
    exact Gas.Clamped.zero
  | acknowledged w gas after decoded set clamped =>
    rw [transactionGas_of_ok decoded]
    exact clamped
  | refused w error text gas after decoded set worded clamped =>
    rw [transactionGas_of_ok decoded]
    exact clamped

theorem forall₂_clamped (x : Executor) (txs : List Bytes) (store : σ) :
    List.Forall₂ (fun raw receipt => Gas.Clamped receipt.gasUsed (transactionGas raw)) txs
      (x.runBlock txs store).1.receipts := by
  induction txs generalizing store with
  | nil => exact .nil
  | cons raw txs ih =>
    rw [receipts_runBlock_cons]
    exact .cons (runTransaction_outcome x raw store).clamped (ih _)

/-! ## Totals -/

/-- Adding up receipts one by one, on top of any total. -/
theorem clamped_foldl_addSigned {txs : List Bytes} {receipts : List Receipt} {total : Int64}
    {exact : Nat}
    (each : List.Forall₂ (fun raw receipt => Gas.Clamped receipt.gasUsed (transactionGas raw)) txs
      receipts) (start : Gas.Clamped total exact) :
    Gas.Clamped (receipts.foldl (fun total r => Saturating.addSigned total r.gasUsed) total)
      (exact + blockGas txs) := by
  induction each generalizing total exact with
  | nil => exact start
  | cons first _ ih =>
    -- the invariant is that the total so far stands for the exact sum so far
    rw [List.foldl_cons, blockGas_cons, ← Nat.add_assoc]
    exact ih (start.add first)

theorem clamped_gasUsed (x : Executor) (txs : List Bytes) (store : σ) :
    Gas.Clamped (x.runBlock txs store).1.gasUsed (blockGas txs) := by
  have total := clamped_foldl_addSigned (forall₂_clamped x txs store) .zero
  rw [Nat.zero_add] at total
  exact total

/-- The gas that a block reports.  Its total and every receipt are exact up to one clamp, whether
    the store takes the writes or not.  So the order of the transactions does not matter, nor does
    the store, and a transaction more, wherever it stands, never makes the total smaller. -/
structure GasAccounting (x : Executor) (txs : List Bytes) (store : σ) : Prop where
  total : (x.runBlock txs store).1.gasUsed.toInt = ↑(min (Nat.pow 2 63 - 1) (blockGas txs))
  each : List.Forall₂ (fun raw receipt =>
    receipt.gasUsed.toInt = ↑(min (Nat.pow 2 63 - 1) (transactionGas raw)) ∧ 0 ≤ receipt.gasUsed) txs
      (x.runBlock txs store).1.receipts
  reordered {τ : Type} [KeyValueStore τ] (others : List Bytes) (other : τ) : txs.Perm others →
    (x.runBlock others other).1.gasUsed = (x.runBlock txs store).1.gasUsed
  extended {τ : Type} [KeyValueStore τ] (others : List Bytes) (other : τ) : txs.Sublist others →
    (x.runBlock txs store).1.gasUsed ≤ (x.runBlock others other).1.gasUsed

theorem runBlock_gasAccounting (x : Executor) (txs : List Bytes) (store : σ) :
    x.GasAccounting txs store where
  total := clamped_gasUsed x txs store
  each := (forall₂_clamped x txs store).imp fun _ _ clamped => ⟨clamped, clamped.nonneg⟩
  reordered := by
    intro τ _ others other permuted
    have clamped := clamped_gasUsed x others other
    rw [← blockGas_of_perm permuted] at clamped
    exact clamped.unique (clamped_gasUsed x txs store)
  extended := by
    intro τ _ others other extended
    exact (clamped_gasUsed x txs store).mono (clamped_gasUsed x others other)
      (blockGas_le_of_sublist extended)

end Executor

end ReplicatedKv
