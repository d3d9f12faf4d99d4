import ReplicatedKv.Execution
import ReplicatedKv.Genesis.Document
import ReplicatedKv.Proofs.Store.Memory

/-! # Execution on the memory store

On a store that refuses nothing, running transactions and seeding are two parts that do not meet:
receipts, which depend on the transactions alone, and a list of writes.
-/

namespace ReplicatedKv

/-! ## Transactions -/

/-- The writes of the transactions that decode, in order. -/
def decodedWrites (txs : List Bytes) : List Write :=
  txs.filterMap fun raw => (Write.decode raw).toOption

theorem decodedWrites_cons_ok {raw : Bytes} {w : Write} (decoded : Write.decode raw = .ok w)
    (txs : List Bytes) : decodedWrites (raw :: txs) = w :: decodedWrites txs := by
  simp only [decodedWrites, List.filterMap_cons, decoded, Except.toOption]

theorem decodedWrites_cons_error {raw : Bytes} {error : DecodeError}
    (failed : Write.decode raw = .error error) (txs : List Bytes) :
    decodedWrites (raw :: txs) = decodedWrites txs := by
  simp only [decodedWrites, List.filterMap_cons, failed, Except.toOption]

namespace Executor

/-- The receipt of a transaction on a store that refuses nothing. -/
def receiptOf (x : Executor) (raw : Bytes) : Receipt :=
  match Write.decode raw with
  | .ok w => writeReceipt w
  | .error error => undecodedReceipt x.codespace error

theorem runAll_memStore (x : Executor) (txs : List Bytes) (store : MemStore) :
    x.runAll txs store = (txs.map x.receiptOf,
      store.setAll ((decodedWrites txs).map (Write.inPartition x.storeKey))) := by
  induction txs generalizing store with
  | nil => rfl
  | cons raw txs ih =>
    cases decoded : Write.decode raw with
    | ok w =>
      have first : x.runTransaction raw store =
          (writeReceipt w, store.set (Partition.fullKey x.storeKey w.key) w.value) := by
        simp only [runTransaction, decoded]
        rfl
      rw [runAll, first, ih, decodedWrites_cons_ok decoded, List.map_cons, List.map_cons,
        receiptOf, decoded]
      rfl
    | error error =>
      have first : x.runTransaction raw store = (undecodedReceipt x.codespace error, store) := by
        simp only [runTransaction, decoded]
      rw [runAll, first, ih, decodedWrites_cons_error decoded, List.map_cons, receiptOf, decoded]

end Executor

/-! ## Genesis -/

/-- A genesis entry as a write. -/
def GenesisEntry.write (entry : GenesisEntry) : Write :=
  ⟨Utf8.encode entry.key, Utf8.encode entry.value⟩

/-- The writes that seed a chain, in document order. -/
def Genesis.writes (g : Genesis) : List Write := g.entries.map GenesisEntry.write

namespace Genesis

theorem writeAll_memStore (storeKey : String) (entries : List GenesisEntry) (store : MemStore) :
    writeAll storeKey entries store = (.ok (),
      store.setAll ((entries.map GenesisEntry.write).map (Write.inPartition storeKey))) := by
  -- no write is refused, so the run never stops early
  induction entries generalizing store with
  | nil => rfl
  | cons entry entries ih =>
    rw [List.map_cons, List.map_cons, MemStore.setAll_cons, ← ih]
    rfl

theorem apply_memStore (g : Genesis) (storeKey : String) (store : MemStore) :
    g.apply storeKey store =
      (.ok (), store.setAll (g.writes.map (Write.inPartition storeKey))) := by
  simp only [Genesis.apply, writeAll_memStore, writes]

theorem initChain_memStore_error {document : Bytes} {fault : Json.Fault}
    (parsed : ofDocument document = .error fault) (storeKey : String) (store : MemStore) :
    initChain storeKey document store = (.error (.parse fault), store) := by
  simp only [initChain, parsed]

theorem initChain_memStore_ok {document : Bytes} {g : Genesis}
    (parsed : ofDocument document = .ok g) (storeKey : String) (store : MemStore) :
    initChain storeKey document store =
      (.ok g.size, store.setAll (g.writes.map (Write.inPartition storeKey))) := by
  simp only [initChain, parsed, apply_memStore]

end Genesis

end ReplicatedKv
