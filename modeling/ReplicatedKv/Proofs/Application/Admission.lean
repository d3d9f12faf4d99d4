import ReplicatedKv.Proofs.Application.Calls
import ReplicatedKv.Proofs.Execution.Block

/-! # Admission

A check of a transaction before it enters a block and its execution inside the block are made by
different paths.  They agree on which transactions decode, and on the receipt of those that do not,
whatever stores the two are made on and whatever else the block holds.

* `Executor.receipt_runBlock` — the receipt at one position of a block.
* `Application.AdmissionAgrees` — a check compared with a receipt.
* `Application.checkTransaction_agrees` — every check agrees with every receipt of the transaction,
  and no call to the application changes the check.
-/

namespace ReplicatedKv

namespace Executor

variable {τ : Type} [KeyValueStore τ]

theorem receipt_runBlock (x : Executor) (earlier later : List Bytes) (raw : Bytes) (store : τ) :
    (x.runBlock (earlier ++ raw :: later) store).1.receipts[earlier.length]? =
      some (x.runTransaction raw (x.runBlock earlier store).2).1 := by
  have atEnd : earlier.length = (x.runAll earlier store).1.length :=
    (length_runAll x earlier store).symm
  show (x.runAll (earlier ++ raw :: later) store).1[earlier.length]? = _
  rw [runAll_append, List.getElem?_append_right (by omega), atEnd, Nat.sub_self]
  rfl

/-- The code of a receipt tells whether the transaction decodes, on any store. -/
theorem Outcome.code_cases {x : Executor} {raw : Bytes} {before after : τ} {receipt : Receipt}
    (outcome : x.Outcome raw before receipt after) :
    (∃ error, Write.decode raw = .error error ∧ receipt = undecodedReceipt x.codespace error) ∨
    (∃ w, Write.decode raw = .ok w ∧
      (receipt.code = ResultCode.ok.toUInt32 ∨ receipt.code = ResultCode.internal.toUInt32)) := by
  cases outcome with
  | undecoded error text failed worded =>
    obtain rfl := DecodeError.wordedAs_iff.mp worded
    exact .inl ⟨error, failed, rfl⟩
  | acknowledged w gas after decoded set clamped => exact .inr ⟨w, decoded, .inl rfl⟩
  | refused w error text gas after decoded set worded clamped =>
    exact .inr ⟨w, decoded, .inr rfl⟩

end Executor

namespace Application

variable {σ ρ τ : Type} [KeyValueStore τ]

/-- The check of a transaction and a receipt of it say the same: both that it does not decode, in
    the same words, or neither. -/
structure AdmissionAgrees (app : Application σ) (raw : Bytes) (receipt : Receipt) : Prop where
  fails_iff : (app.checkTransaction raw).succeeded = false ↔
    receipt.code = ResultCode.txDecode.toUInt32
  same : receipt.code = ResultCode.txDecode.toUInt32 → app.checkTransaction raw = receipt
  admitted : (app.checkTransaction raw).succeeded = true →
    receipt.code = ResultCode.ok.toUInt32 ∨ receipt.code = ResultCode.internal.toUInt32

theorem checkTransaction_of_ok (app : Application σ) {raw : Bytes} {w : Write}
    (decoded : Write.decode raw = .ok w) : app.checkTransaction raw = {} := by
  simp only [checkTransaction, decoded]

theorem checkTransaction_of_error (app : Application σ) {raw : Bytes} {error : DecodeError}
    (failed : Write.decode raw = .error error) :
    app.checkTransaction raw = Executor.undecodedReceipt app.config.codespace error := by
  simp only [checkTransaction, failed]

theorem admissionAgrees_of_outcome (app : Application σ) {raw : Bytes} {before after : τ}
    {receipt : Receipt} (outcome : app.config.executor.Outcome raw before receipt after) :
    AdmissionAgrees app raw receipt := by
  obtain ⟨error, failed, rfl⟩ | ⟨w, decoded, code⟩ := outcome.code_cases
  · have check := checkTransaction_of_error app failed
    refine ⟨?_, fun _ => check, ?_⟩
    · rw [check]
      exact ⟨fun _ => rfl, fun _ => rfl⟩
    · intro admitted
      rw [check] at admitted
      nomatch admitted
  · have check := checkTransaction_of_ok app decoded
    have notUndecoded : receipt.code ≠ ResultCode.txDecode.toUInt32 := by
      obtain ok | internal := code
      · rw [ok]
        decide
      · rw [internal]
        decide
    refine ⟨?_, fun undecoded => absurd undecoded notUndecoded, fun _ => code⟩
    rw [check]
    exact ⟨(nomatch ·), fun undecoded => absurd undecoded notUndecoded⟩

/-- The check looks at the codespace alone, which no call changes. -/
theorem checkTransaction_congr {app : Application σ} {other : Application ρ}
    (sameConfig : app.config = other.config) (raw : Bytes) :
    app.checkTransaction raw = other.checkTransaction raw := by
  cases decoded : Write.decode raw with
  | ok w => rw [checkTransaction_of_ok app decoded, checkTransaction_of_ok other decoded]
  | error error =>
    rw [checkTransaction_of_error app decoded, checkTransaction_of_error other decoded, sameConfig]

/-- In whatever phase an application checks a transaction, the check agrees with the receipt that
    the transaction gets in any block with the same configuration, at any position and on any store.
    The check is the same after any calls to the application. -/
theorem checkTransaction_agrees [VersionedStore σ] (app : Application σ) (raw : Bytes) :
    (∀ {τ : Type} [KeyValueStore τ] (store : τ) (earlier later : List Bytes), ∃ receipt,
      (app.config.executor.runBlock (earlier ++ raw :: later) store).1.receipts[earlier.length]? =
        some receipt ∧ AdmissionAgrees app raw receipt) ∧
      ∀ calls, (app.run calls).2.checkTransaction raw = app.checkTransaction raw := by
  constructor
  · intro τ _ store earlier later
    have outcome := Executor.runTransaction_outcome app.config.executor raw
      (app.config.executor.runBlock earlier store).2
    exact ⟨_, Executor.receipt_runBlock _ earlier later raw store,
      admissionAgrees_of_outcome app outcome⟩
  · intro calls
    exact checkTransaction_congr (config_run app calls) raw

end Application

end ReplicatedKv
