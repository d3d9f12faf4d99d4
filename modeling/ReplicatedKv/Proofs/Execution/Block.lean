import ReplicatedKv.Config
import ReplicatedKv.Proofs.Execution.Amounts
import ReplicatedKv.Proofs.Store.Lawful
import ReplicatedKv.Proofs.Store.Writes

/-! # What a block does

A block over a store that may refuse writes: which receipt every transaction gets, which store it
leaves to the next one, and what can be read once the block is over.

* `StoreError.WordedAs`, `DecodeError.WordedAs` — the texts of errors.
* `Executor.Outcome` — one transaction, on the store that it finds.
* `acknowledgedWrites` — the writes that a block reports as made.
* `Executor.BlockRun` — a whole block.
* `Executor.runBlock_blockRun` — every block over a store with lawful writes is such a run.
-/

namespace ReplicatedKv

/-! ## Texts of errors -/

/-- What a store's refusal is called, by its kind and the reason that the store gave. -/
inductive StoreError.WordedAs : StoreError → String → Prop where
  | writeRejected (reason : String) : WordedAs (.writeRejected reason) ("write rejected: " ++ reason)
  | commitFailed (reason : String) : WordedAs (.commitFailed reason) ("commit failed: " ++ reason)

theorem StoreError.wordedAs_message (error : StoreError) : error.WordedAs error.message := by
  cases error with
  | writeRejected reason => exact .writeRejected reason
  | commitFailed reason => exact .commitFailed reason

/-- What bytes that are no transaction are called. -/
inductive DecodeError.WordedAs : DecodeError → String → Prop where
  | malformed (fault : TransactionFault) :
    WordedAs (.malformed fault) ("malformed transaction: " ++ fault.message)
  | missingCommand : WordedAs .missingCommand "transaction carries no command"

theorem DecodeError.wordedAs_iff {error : DecodeError} {text : String} :
    error.WordedAs text ↔ text = error.message := by
  constructor
  · intro worded
    cases worded with
    | malformed fault => rfl
    | missingCommand => rfl
  · rintro rfl
    cases error with
    | malformed fault => exact .malformed fault
    | missingCommand => exact .missingCommand

variable {σ : Type} [KeyValueStore σ]

namespace Executor

/-! ## One transaction -/

/-- A transaction takes a store to the next one and gets a receipt.  Bytes that are no transaction
    do not touch the store; a write is attempted once, under its full key, and the answer of the
    store decides between the two other receipts.  Both report the price of the write. -/
inductive Outcome (x : Executor) (raw : Bytes) (before : σ) : Receipt → σ → Prop where
  | undecoded (error : DecodeError) (text : String) :
    Write.decode raw = .error error →
    error.WordedAs text →
    Outcome x raw before
      { code := 2, codespace := x.codespace, log := "tx decode failed: " ++ text
        gasUsed := 0, gasWanted := 0, data := [], info := "", events := [] }
      before
  | acknowledged (w : Write) (gas : Int64) (after : σ) :
    Write.decode raw = .ok w →
    KeyValueStore.set before (Partition.fullKey x.storeKey w.key) w.value = (.ok (), after) →
    Gas.Clamped gas (2000 + 30 * (w.key.length + w.value.length)) →
    Outcome x raw before
      { code := 0, codespace := ""
        log := "set " ++ Utf8.decodeLossy w.key ++ "=" ++ Utf8.decodeLossy w.value
        gasUsed := gas, gasWanted := 0, data := [], info := ""
        events := [⟨"kvstore", [("action", "set"), ("key", Utf8.decodeLossy w.key),
          ("value", Utf8.decodeLossy w.value)]⟩] }
      after
  | refused (w : Write) (error : StoreError) (text : String) (gas : Int64) (after : σ) :
    Write.decode raw = .ok w →
    KeyValueStore.set before (Partition.fullKey x.storeKey w.key) w.value = (.error error, after) →
    error.WordedAs text →
    Gas.Clamped gas (2000 + 30 * (w.key.length + w.value.length)) →
    Outcome x raw before
      { code := 1, codespace := x.codespace, log := "store write failed: " ++ text
        gasUsed := gas, gasWanted := 0, data := [], info := "", events := [] }
      after

theorem runTransaction_of_error {raw : Bytes} {error : DecodeError}
    (failed : Write.decode raw = .error error) (x : Executor) (store : σ) :
    x.runTransaction raw store = (undecodedReceipt x.codespace error, store) := by
  rw [runTransaction, failed]

theorem runTransaction_outcome (x : Executor) (raw : Bytes) (store : σ) :
    x.Outcome raw store (x.runTransaction raw store).1 (x.runTransaction raw store).2 := by
  cases decoded : Write.decode raw with
  | error error =>
    rw [runTransaction_of_error decoded]
    exact .undecoded error _ decoded (DecodeError.wordedAs_iff.mpr rfl)
  | ok w =>
    simp only [runTransaction, decoded, applyWrite, Partition.set]
    match set : KeyValueStore.set store (Partition.fullKey x.storeKey w.key) w.value with
    | (.ok (), after) => exact .acknowledged w _ after decoded set (clamped_writeGas w)
    | (.error error, after) =>
      exact .refused w error _ _ after decoded set error.wordedAs_message (clamped_writeGas w)

end Executor

/-! ## Acknowledged writes -/

def acknowledgedWrite? (raw : Bytes) (receipt : Receipt) : Option Write :=
  if receipt.code = 0 then (Write.decode raw).toOption else none

/-- The writes of a block that its receipts report as made, in block order. -/
def acknowledgedWrites (txs : List Bytes) (receipts : List Receipt) : List Write :=
  (txs.zip receipts).filterMap fun reported => acknowledgedWrite? reported.1 reported.2

theorem acknowledgedWrites_cons (raw : Bytes) (txs : List Bytes) (receipt : Receipt)
    (receipts : List Receipt) :
    acknowledgedWrites (raw :: txs) (receipt :: receipts) =
      (acknowledgedWrite? raw receipt).toList ++ acknowledgedWrites txs receipts := by
  simp only [acknowledgedWrites, List.zip_cons_cons, List.filterMap_cons]
  cases acknowledgedWrite? raw receipt <;> rfl

/-- What is read under a full key after the given writes to a partition: the last value written, or
    what was read before. -/
def readAfter (name : String) (writes : List Write) (store : σ) (full : Bytes) :
    Except StoreError (Option Bytes) :=
  match lastValue? full (writes.map (Write.inPartition name)) with
  | some value => .ok (some value)
  | none => KeyValueStore.get store full

theorem readAfter_append {name : String} {earlier later : List Write} {before store : σ}
    {full : Bytes} (reads : KeyValueStore.get store full = readAfter name earlier before full) :
    readAfter name later store full = readAfter name (earlier ++ later) before full := by
  -- a later write hides what the store held before
  simp only [readAfter, List.map_append, lastValue?_append]
  cases lastValue? full (later.map (Write.inPartition name)) with
  | some value => rfl
  | none => exact reads

theorem LawfulWrites.reads_acknowledged {P : σ → Prop} (lawful : LawfulWrites P) {name : String}
    {store after : σ} {w : Write} (inside : P store)
    (set : Partition.set name store w.key w.value = (.ok (), after)) (full : Bytes) :
    KeyValueStore.get after full = readAfter name [w] store full := by
  rw [lawful.acknowledged store after _ _ inside set full]
  simp only [readAfter, List.map_cons, List.map_nil, lastValue?_singleton, Write.inPartition]
  by_cases same : full = Partition.fullKey name w.key
  · rw [if_pos same, if_pos same.symm]
  · rw [if_neg same, if_neg (Ne.symm same)]

namespace Executor

/-- After one transaction, a store with lawful writes reads like before it, but for an acknowledged
    write. -/
theorem Outcome.reads {P : σ → Prop} (lawful : LawfulWrites P) {x : Executor} {raw : Bytes}
    {before after : σ} {receipt : Receipt} (start : P before)
    (outcome : x.Outcome raw before receipt after) :
    P after ∧ ∀ full, KeyValueStore.get after full =
      readAfter x.storeKey (acknowledgedWrite? raw receipt).toList before full := by
  cases outcome with
  | undecoded error text failed worded => exact ⟨start, fun full => rfl⟩
  | acknowledged w gas after decoded set clamped =>
    refine ⟨lawful.kept_of_set start set, ?_⟩
    intro full
    simp only [acknowledgedWrite?, decoded, if_true, Except.toOption, Option.toList_some]
    exact lawful.reads_acknowledged start set full
  | refused w error text gas after decoded set worded clamped =>
    exact ⟨lawful.kept_of_set start set, lawful.refused before after _ _ error start set⟩

/-! ## A whole block -/

/-- A block with its receipts: one for every transaction, each the outcome on the store that the
    transactions before it left, the first on the store of the block.  In the end the store reads
    like before the block, but for the acknowledged writes, of which the last one of a key counts. -/
structure BlockRun (x : Executor) (txs : List Bytes) (store : σ) : Prop where
  first : (x.runBlock [] store).2 = store
  size : (x.runBlock txs store).1.receipts.length = txs.length
  outcome (i : Nat) (raw : Bytes) : txs[i]? = some raw →
    ∃ receipt, (x.runBlock txs store).1.receipts[i]? = some receipt ∧
      x.Outcome raw (x.runBlock (txs.take i) store).2 receipt
        (x.runBlock (txs.take (i + 1)) store).2
  reads (full : Bytes) : KeyValueStore.get (x.runBlock txs store).2 full =
    readAfter x.storeKey (acknowledgedWrites txs (x.runBlock txs store).1.receipts) store full

theorem receipts_runBlock_cons (x : Executor) (raw : Bytes) (txs : List Bytes) (store : σ) :
    (x.runBlock (raw :: txs) store).1.receipts =
      (x.runTransaction raw store).1 ::
        (x.runBlock txs (x.runTransaction raw store).2).1.receipts := rfl

theorem store_runBlock_cons (x : Executor) (raw : Bytes) (txs : List Bytes) (store : σ) :
    (x.runBlock (raw :: txs) store).2 = (x.runBlock txs (x.runTransaction raw store).2).2 := rfl

theorem runAll_cons (x : Executor) (raw : Bytes) (txs : List Bytes) (store : σ) :
    x.runAll (raw :: txs) store =
      ((x.runTransaction raw store).1 :: (x.runAll txs (x.runTransaction raw store).2).1,
        (x.runAll txs (x.runTransaction raw store).2).2) := rfl

theorem length_runAll (x : Executor) (txs : List Bytes) (store : σ) :
    (x.runAll txs store).1.length = txs.length := by
  induction txs generalizing store with
  | nil => rfl
  | cons raw txs ih => rw [runAll, List.length_cons, ih, List.length_cons]

/-- A list of transactions can be cut anywhere: the rest runs on the store that the first part
    left. -/
theorem runAll_append (x : Executor) (earlier later : List Bytes) (store : σ) :
    x.runAll (earlier ++ later) store =
      ((x.runAll earlier store).1 ++ (x.runAll later (x.runAll earlier store).2).1,
        (x.runAll later (x.runAll earlier store).2).2) := by
  induction earlier generalizing store with
  | nil => rfl
  | cons raw earlier ih =>
    rw [List.cons_append, runAll, ih]
    rfl

theorem BlockRun.nil (x : Executor) (store : σ) : x.BlockRun [] store where
  first := rfl
  size := rfl
  outcome := by
    intro i raw found
    simp at found
  reads _ := rfl

theorem BlockRun.cons {P : σ → Prop} (lawful : LawfulWrites P) {x : Executor} {raw : Bytes}
    {txs : List Bytes} {store : σ} (start : P store)
    (others : x.BlockRun txs (x.runTransaction raw store).2) : x.BlockRun (raw :: txs) store where
  first := rfl
  size := by
    rw [receipts_runBlock_cons, List.length_cons, others.size, List.length_cons]
  outcome := by
    intro i raw' found
    rw [receipts_runBlock_cons]
    -- the stores before and after a transaction behind the first are those of the other run
    cases i with
    | zero =>
      obtain rfl : raw = raw' := Option.some.inj found
      exact ⟨_, rfl, runTransaction_outcome x raw store⟩
    | succ i => exact others.outcome i raw' found
  reads := by
    intro full
    obtain ⟨-, first⟩ := (runTransaction_outcome x raw store).reads lawful start
    rw [store_runBlock_cons, others.reads, receipts_runBlock_cons, acknowledgedWrites_cons]
    exact readAfter_append (first full)

/-- What every block does, for every configuration, list of transactions and store with lawful
    writes. -/
theorem runBlock_blockRun {P : σ → Prop} (lawful : LawfulWrites P) (config : Config)
    (txs : List Bytes) (store : σ) (start : P store) : config.executor.BlockRun txs store := by
  induction txs generalizing store with
  | nil => exact .nil config.executor store
  | cons raw txs ih =>
    obtain ⟨kept, -⟩ := (runTransaction_outcome config.executor raw store).reads lawful start
    exact .cons lawful start (ih _ kept)

/-- A store that refuses one key. -/
def refusingStore : FaultyStore MemStore :=
  { inner := .empty, plan := { rejectedKeys := [Partition.fullKey "main" [0x62]] } }

/-- A block with a write, bytes that are no transaction, a write that `refusingStore` refuses, and
    a second write to the first key. -/
def mixedBlock : List Bytes :=
  [Write.encode ⟨[0x61], [0x31]⟩, [0xff], Write.encode ⟨[0x62], [0x32]⟩, Write.encode ⟨[0x61], []⟩]

def sampleConfig : Config := ⟨"app", "main", "codes"⟩

/-- What `mixedBlock` reports over `refusingStore`, in the fields code, data, log, info, wanted and
    used gas, events and codespace. -/
def mixedReceipts : List Receipt :=
  [⟨0, [], "set a=1", "", 0, 2060,
      [⟨"kvstore", [("action", "set"), ("key", "a"), ("value", "1")]⟩], ""⟩,
    ⟨2, [], "tx decode failed: malformed transaction: " ++
      "failed to decode Protobuf message: invalid varint", "", 0, 0, [], "codes"⟩,
    ⟨1, [], "store write failed: write rejected: key 6d61696e2f62", "", 0, 2060, [], "codes"⟩,
    ⟨0, [], "set a=", "", 0, 2030,
      [⟨"kvstore", [("action", "set"), ("key", "a"), ("value", "")]⟩], ""⟩]

theorem runBlock_blockRun_mixedBlock :
    LawfulWrites (fun store : FaultyStore MemStore => True ∧ store.plan.unreadableKeys = []) ∧
      (True ∧ refusingStore.plan.unreadableKeys = []) ∧
      (sampleConfig.executor.runBlock mixedBlock refusingStore).1.receipts = mixedReceipts ∧
      sampleConfig.executor.BlockRun mixedBlock refusingStore := by
  have lawful := FaultyStore.lawfulWrites MemStore.lawfulWrites
  have start : True ∧ refusingStore.plan.unreadableKeys = [] := ⟨trivial, rfl⟩
  exact ⟨lawful, start, by decide +kernel,
    runBlock_blockRun lawful sampleConfig mixedBlock _ start⟩

end Executor

end ReplicatedKv
