import ReplicatedKv.Proofs.Execution.Gas

/-! # Where blocks end

A store sees one sequence of writes.  Where the blocks end that bring them, and what stands between
them that is no transaction, makes no difference to it, even if it refuses writes for reasons that
lie in everything it was asked before.

* `decodable` — the transactions of a block that decode.
* `receiptsOfDecodable` — their receipts, among those of the whole block.
* `Executor.Seamless` — two blocks one after the other, and one of them without what does not
  decode.
* `Executor.runBlock_seamless` — all blocks over all stores are like that.
-/

namespace ReplicatedKv

/-! ## Transactions that decode -/

def decodable (txs : List Bytes) : List Bytes := txs.filter fun raw => (Write.decode raw).isOk

/-- From the receipts of a block, those of its transactions that decode. -/
def receiptsOfDecodable (txs : List Bytes) (receipts : List Receipt) : List Receipt :=
  ((txs.zip receipts).filter fun reported => (Write.decode reported.1).isOk).map Prod.snd

section

variable {raw : Bytes} {w : Write} {error : DecodeError}

theorem decodable_cons_ok (decoded : Write.decode raw = .ok w) (txs : List Bytes) :
    decodable (raw :: txs) = raw :: decodable txs :=
  List.filter_cons_of_pos (by rw [decoded]; rfl)

theorem decodable_cons_error (failed : Write.decode raw = .error error) (txs : List Bytes) :
    decodable (raw :: txs) = decodable txs :=
  List.filter_cons_of_neg (by rw [failed]; exact Bool.false_ne_true)

theorem receiptsOfDecodable_cons_ok (decoded : Write.decode raw = .ok w) (txs : List Bytes)
    (receipt : Receipt) (receipts : List Receipt) :
    receiptsOfDecodable (raw :: txs) (receipt :: receipts) =
      receipt :: receiptsOfDecodable txs receipts := by
  rw [receiptsOfDecodable, List.zip_cons_cons, List.filter_cons_of_pos (by rw [decoded]; rfl),
    List.map_cons, receiptsOfDecodable]

theorem receiptsOfDecodable_cons_error (failed : Write.decode raw = .error error)
    (txs : List Bytes) (receipt : Receipt) (receipts : List Receipt) :
    receiptsOfDecodable (raw :: txs) (receipt :: receipts) = receiptsOfDecodable txs receipts := by
  rw [receiptsOfDecodable, List.zip_cons_cons,
    List.filter_cons_of_neg (by rw [failed]; exact Bool.false_ne_true), receiptsOfDecodable]

end

theorem blockGas_decodable (txs : List Bytes) : blockGas (decodable txs) = blockGas txs := by
  induction txs with
  | nil => rfl
  | cons raw txs ih =>
    cases decoded : Write.decode raw with
    | ok w => rw [decodable_cons_ok decoded, blockGas_cons, blockGas_cons, ih]
    | error error =>
      rw [decodable_cons_error decoded, blockGas_cons, transactionGas_of_error decoded, ih,
        Nat.zero_add]

/-! ## Execution -/

namespace Executor

variable {σ : Type} [KeyValueStore σ]

/-- Bytes that do not decode leave the store to the next transaction as they found it, so the other
    transactions find the same stores without them. -/
theorem runAll_decodable (x : Executor) (txs : List Bytes) (store : σ) :
    x.runAll (decodable txs) store =
      (receiptsOfDecodable txs (x.runAll txs store).1, (x.runAll txs store).2) := by
  induction txs generalizing store with
  | nil => rfl
  | cons raw txs ih =>
    cases decoded : Write.decode raw with
    | ok w =>
      rw [decodable_cons_ok decoded, runAll_cons, ih, runAll_cons,
        receiptsOfDecodable_cons_ok decoded]
    | error error =>
      -- the store is handed on untouched, and the receipt is not among those kept
      rw [decodable_cons_error decoded, ih, runAll_cons, receiptsOfDecodable_cons_error decoded,
        runTransaction_of_error decoded]

theorem countP_receiptsOfDecodable (x : Executor) (txs : List Bytes) (store : σ) :
    (receiptsOfDecodable txs (x.runAll txs store).1).countP Receipt.succeeded =
      (x.runAll txs store).1.countP Receipt.succeeded := by
  induction txs generalizing store with
  | nil => rfl
  | cons raw txs ih =>
    rw [runAll_cons]
    cases decoded : Write.decode raw with
    | ok w =>
      rw [receiptsOfDecodable_cons_ok decoded, List.countP_cons, List.countP_cons, ih]
    | error error =>
      have failed : ¬(undecodedReceipt x.codespace error).succeeded = true := Bool.false_ne_true
      rw [receiptsOfDecodable_cons_error decoded, runTransaction_of_error decoded, ih,
        List.countP_cons_of_neg failed]

/-- Two blocks run like one, the second on the store that the first left.  Without the transactions
    that do not decode, a block leaves exactly the same store, gives the others exactly the same
    receipts, and adds up to the same totals. -/
structure Seamless (x : Executor) (txs others : List Bytes) (store : σ) : Prop where
  receipts_append : (x.runBlock (txs ++ others) store).1.receipts =
    (x.runBlock txs store).1.receipts ++
      (x.runBlock others (x.runBlock txs store).2).1.receipts
  store_append : (x.runBlock (txs ++ others) store).2 =
    (x.runBlock others (x.runBlock txs store).2).2
  store_decodable : (x.runBlock (decodable txs) store).2 = (x.runBlock txs store).2
  receipts_decodable : (x.runBlock (decodable txs) store).1.receipts =
    receiptsOfDecodable txs (x.runBlock txs store).1.receipts
  succeededCount : (x.runBlock (decodable txs) store).1.succeededCount =
    (x.runBlock txs store).1.succeededCount
  gasUsed : (x.runBlock (decodable txs) store).1.gasUsed = (x.runBlock txs store).1.gasUsed

theorem runBlock_seamless (x : Executor) (txs others : List Bytes) (store : σ) :
    x.Seamless txs others store where
  receipts_append := by
    show (x.runAll (txs ++ others) store).1 = _
    rw [runAll_append]
    rfl
  store_append := by
    show (x.runAll (txs ++ others) store).2 = _
    rw [runAll_append]
    rfl
  store_decodable := by
    show (x.runAll (decodable txs) store).2 = _
    rw [runAll_decodable]
    rfl
  receipts_decodable := by
    show (x.runAll (decodable txs) store).1 = _
    rw [runAll_decodable]
    rfl
  succeededCount := by
    show (x.runAll (decodable txs) store).1.countP Receipt.succeeded = _
    rw [runAll_decodable]
    exact countP_receiptsOfDecodable x txs store
  gasUsed := by
    have clamped := clamped_gasUsed x (decodable txs) store
    rw [blockGas_decodable] at clamped
    exact clamped.unique (clamped_gasUsed x txs store)

end Executor

end ReplicatedKv
