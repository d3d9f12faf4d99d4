import ReplicatedKv.Proofs.Application.Admission
import ReplicatedKv.Proofs.Transaction.Faults

/-! # The vocabulary of failed transactions

The log of a transaction that does not decode takes part in consensus, so its text is fixed: it
names the fault and the level at which it was found, in one of finitely many forms.

* `UndecodedLog` — the texts.
* `Executor.logs_vocabulary` — blocks and checks report undecodable transactions in these texts, and
  each of the texts is reported for some transaction.
-/

namespace ReplicatedKv

/-- The logs of transactions that do not decode. -/
inductive UndecodedLog : String → Prop where
  | missingCommand : UndecodedLog "tx decode failed: transaction carries no command"
  | malformed {path cause : String} : Wording path cause →
      UndecodedLog ("tx decode failed: malformed transaction: failed to decode Protobuf message: "
        ++ path ++ cause)

namespace Executor

theorem log_missingCommand (codespace : String) :
    (undecodedReceipt codespace .missingCommand).log =
      "tx decode failed: transaction carries no command" := by
  show "tx decode failed: " ++ "transaction carries no command" = _
  decide +kernel

theorem log_malformed (codespace : String) (f : TransactionFault) :
    (undecodedReceipt codespace (.malformed f)).log =
      "tx decode failed: malformed transaction: failed to decode Protobuf message: "
        ++ f.location.path ++ f.fault.message := by
  have opening : "tx decode failed: " ++ "malformed transaction: " ++
      "failed to decode Protobuf message: " =
        "tx decode failed: malformed transaction: failed to decode Protobuf message: " := by
    decide +kernel
  have regroup (a b c d e : String) : a ++ (b ++ (c ++ d ++ e)) = a ++ b ++ c ++ d ++ e := by
    simp only [String.append_assoc]
  calc (undecodedReceipt codespace (.malformed f)).log
    _ = "tx decode failed: " ++ ("malformed transaction: " ++
          ("failed to decode Protobuf message: " ++ f.location.path ++ f.fault.message)) := rfl
    _ = _ := by rw [regroup, opening]

theorem undecodedLog_of_decode {raw : Bytes} {error : DecodeError}
    (failed : Write.decode raw = .error error) (codespace : String) :
    UndecodedLog (undecodedReceipt codespace error).log := by
  cases error with
  | missingCommand =>
    rw [log_missingCommand]
    exact .missingCommand
  | malformed f =>
    rw [log_malformed]
    exact .malformed (.of_possible (Write.exists_malformed_iff.mp ⟨raw, failed⟩))

theorem exists_undecoded {log : String} (undecoded : UndecodedLog log) :
    ∃ raw error, Write.decode raw = .error error ∧
      ∀ codespace, (undecodedReceipt codespace error).log = log := by
  cases undecoded with
  | missingCommand =>
    exact ⟨[], .missingCommand, by decide +kernel, log_missingCommand⟩
  | malformed wording =>
    obtain ⟨raw, f, failed, rfl, rfl⟩ := Write.exists_malformedAs_iff.mpr wording
    exact ⟨raw, .malformed f, failed, fun codespace => log_malformed codespace f⟩

variable {σ : Type} [KeyValueStore σ]

theorem exists_outcome_of_mem {x : Executor} {txs : List Bytes} {store : σ} {receipt : Receipt}
    (member : receipt ∈ (x.runBlock txs store).1.receipts) :
    ∃ raw ∈ txs, ∃ before after : σ, x.Outcome raw before receipt after := by
  induction txs generalizing store with
  | nil => cases member
  | cons raw txs ih =>
    rw [receipts_runBlock_cons, List.mem_cons] at member
    cases member with
    | inl first =>
      rw [first]
      exact ⟨raw, List.mem_cons_self .., _, _, runTransaction_outcome x raw store⟩
    | inr later =>
      obtain ⟨raw', inTxs, outcome⟩ := ih later
      exact ⟨raw', List.mem_cons_of_mem raw inTxs, outcome⟩

/-- Only a transaction that does not decode has the code for it. -/
theorem Outcome.undecoded_of_code {x : Executor} {raw : Bytes} {before after : σ}
    {receipt : Receipt} (outcome : x.Outcome raw before receipt after)
    (code : receipt.code = ResultCode.txDecode.toUInt32) :
    ∃ error, Write.decode raw = .error error ∧ receipt = undecodedReceipt x.codespace error := by
  cases outcome.code_cases with
  | inl undecoded => exact undecoded
  | inr decoded =>
    obtain ⟨w, -, other⟩ := decoded
    rw [code] at other
    cases other with
    | inl ok => cases ok
    | inr internal => cases internal

/-- Whatever is submitted, in whatever block and to whatever store, an undecodable transaction is
    reported in the fixed vocabulary, by its receipt and by its check alike.  The vocabulary has no
    text that is never reported. -/
theorem logs_vocabulary (x : Executor) :
    (∀ {σ : Type} [KeyValueStore σ] (txs : List Bytes) (store : σ),
      ∀ receipt ∈ (x.runBlock txs store).1.receipts,
        receipt.code = ResultCode.txDecode.toUInt32 → UndecodedLog receipt.log) ∧
    (∀ {σ : Type} (app : Application σ) (raw : Bytes),
      (app.checkTransaction raw).code = ResultCode.txDecode.toUInt32 →
        UndecodedLog (app.checkTransaction raw).log) ∧
    ∀ log, UndecodedLog log → ∃ raw, ∀ {σ : Type} [KeyValueStore σ] (store : σ),
      (x.runTransaction raw store).1.code = ResultCode.txDecode.toUInt32 ∧
        (x.runTransaction raw store).1.log = log := by
  refine ⟨?blocks, ?checks, ?reached⟩
  case blocks =>
    intro σ _ txs store receipt member code
    obtain ⟨raw, -, before, after, outcome⟩ := exists_outcome_of_mem member
    obtain ⟨error, failed, rfl⟩ := outcome.undecoded_of_code code
    exact undecodedLog_of_decode failed x.codespace
  case checks =>
    intro σ app raw code
    cases decoded : Write.decode raw with
    | ok w =>
      rw [Application.checkTransaction_of_ok app decoded] at code
      cases code
    | error error =>
      rw [Application.checkTransaction_of_error app decoded]
      exact undecodedLog_of_decode decoded app.config.codespace
  case reached =>
    intro log undecoded
    obtain ⟨raw, error, failed, worded⟩ := exists_undecoded undecoded
    refine ⟨raw, ?_⟩
    intro σ _ store
    rw [runTransaction, failed]
    exact ⟨rfl, worded x.codespace⟩

end Executor

end ReplicatedKv
