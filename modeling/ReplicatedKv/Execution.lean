import ReplicatedKv.Gas
import ReplicatedKv.Receipt
import ReplicatedKv.Store.Partition
import ReplicatedKv.Transaction

/-! # Execution

Running the transactions of a block against one partition of a store.

* `Executor.applyWrite` — one write; a refusal of the store becomes a failed receipt.
* `Executor.runTransaction` — decodes and applies; bytes that are no transaction never reach the
  store.
* `Executor.runBlock` — every transaction in order, each on the store that the ones before it left.

One receipt per transaction, always: nothing aborts a block and nothing is rolled back.
-/

namespace ReplicatedKv

/-- What execution depends on besides the store. -/
structure Executor where
  storeKey : String
  codespace : String

namespace Executor

/-- The kind of the event for a write that was made. -/
def eventKind : String := "kvstore"

def writeEvent (key value : String) : Event :=
  Event.mk eventKind []
    |>.withAttribute "action" "set"
    |>.withAttribute "key" key
    |>.withAttribute "value" value

/-- The gas reported for a write, whether or not the store takes it. -/
def writeGas (w : Write) : Int64 :=
  (Gas.Meter.consume {} (Gas.writeCost w.key.length w.value.length)).reported

def writeReceipt (w : Write) : Receipt :=
  let key := Utf8.decodeLossy w.key
  let value := Utf8.decodeLossy w.value
  { log := "set " ++ key ++ "=" ++ value
    gasUsed := writeGas w
    events := [writeEvent key value] }

def refusalReceipt (codespace : String) (w : Write) (error : StoreError) : Receipt :=
  { Receipt.failure .internal codespace ("store write failed: " ++ error.message) with
    gasUsed := writeGas w }

def undecodedReceipt (codespace : String) (error : DecodeError) : Receipt :=
  .failure .txDecode codespace ("tx decode failed: " ++ error.message)

variable {σ : Type} [KeyValueStore σ]

def applyWrite (x : Executor) (w : Write) (store : σ) : Receipt × σ :=
  match Partition.set x.storeKey store w.key w.value with
  | (.ok (), store) => (writeReceipt w, store)
  | (.error error, store) => (refusalReceipt x.codespace w error, store)

def runTransaction (x : Executor) (raw : Bytes) (store : σ) : Receipt × σ :=
  match Write.decode raw with
  | .ok w => x.applyWrite w store
  | .error error => (undecodedReceipt x.codespace error, store)

def runAll (x : Executor) : List Bytes → σ → List Receipt × σ
  | [], store => ([], store)
  | raw :: txs, store =>
    let first := x.runTransaction raw store
    let others := x.runAll txs first.2
    (first.1 :: others.1, others.2)

def runBlock (x : Executor) (txs : List Bytes) (store : σ) : BlockReceipt × σ :=
  let run := x.runAll txs store
  (⟨run.1⟩, run.2)

end Executor

end ReplicatedKv
