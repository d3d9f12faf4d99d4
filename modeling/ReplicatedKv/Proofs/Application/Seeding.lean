import ReplicatedKv.Proofs.Application.Log
import ReplicatedKv.Proofs.Genesis.Document
import ReplicatedKv.Proofs.Transaction.RoundTrip

/-! # Seeding by genesis or by transactions

An entry may stand in the genesis document or be written by the first block: the first commit is the
same.  Both ways lead to the same log, so the rest is what an application shares with its log.

* `genesisCalls`, `blockCalls` — the two ways to the first commit.
* `Application.SeedsAlike` — what they have in common.
* `Application.seedsAlike_of_start` — they agree for every list of entries, wherever it is divided.
-/

namespace ReplicatedKv

/-! ## Two ways to the first commit -/

/-- The transaction that writes an entry. -/
def GenesisEntry.transaction (e : GenesisEntry) : Bytes :=
  Write.encodeWrite (Utf8.encode e.key) (Utf8.encode e.value)

/-- All entries in the genesis document. -/
def genesisCalls (entries : List GenesisEntry) : List Call :=
  [.initChain (Utf8.encode (Genesis.mk entries).toDocument), .commit]

/-- Some entries in the genesis document, and a block with a transaction for each other entry. -/
def blockCalls (entries others : List GenesisEntry) : List Call :=
  [.initChain (Utf8.encode (Genesis.mk entries).toDocument),
    .finalizeBlock (others.map GenesisEntry.transaction), .commit]

theorem decode_transaction {e : GenesisEntry} (fits : e.write.encodeBody.length < UInt64.size) :
    Write.decode e.transaction = .ok e.write :=
  Write.decode_encode fits

theorem decodedWrites_transactions {entries : List GenesisEntry}
    (fits : ∀ e ∈ entries, e.write.encodeBody.length < UInt64.size) :
    decodedWrites (entries.map GenesisEntry.transaction) = entries.map GenesisEntry.write := by
  induction entries with
  | nil => rfl
  | cons e entries ih =>
    obtain ⟨first, others⟩ := List.forall_mem_cons.mp fits
    rw [List.map_cons, decodedWrites_cons_ok (decode_transaction first), ih others, List.map_cons]

theorem code_receiptOf_transaction {e : GenesisEntry}
    (fits : e.write.encodeBody.length < UInt64.size) (x : Executor) :
    (x.receiptOf e.transaction).code = 0 := by
  rw [Executor.receiptOf, decode_transaction fits]
  rfl

/-! ## One log -/

namespace Log

/-- The log of an application that has committed its writes once. -/
def committedOnce (writes : List Write) : Log where
  phase := .ready
  writes := writes
  committed := writes.length
  commits := 1

theorem committedWrites_committedOnce (writes : List Write) :
    (committedOnce writes).committedWrites = writes := by
  rw [committedWrites, committedOnce, List.take_length]

theorem commitInfo_committedOnce (storeKey : String) (writes : List Write) :
    (committedOnce writes).commitInfo storeKey = ⟨1, stateRoot (entries storeKey writes)⟩ := by
  rw [commitInfo, committedWrites_committedOnce]
  rfl

theorem run_genesisCalls (config : Config) (entries : List GenesisEntry) :
    run config {} (genesisCalls entries) =
      ([.seeded (.ok ()), .committed (.ok
          ⟨1, stateRoot (Log.entries config.storeKey (entries.map GenesisEntry.write))⟩)],
        committedOnce (entries.map GenesisEntry.write)) := by
  rw [← commitInfo_committedOnce]
  simp only [genesisCalls, run, call, Genesis.ofDocument_toDocument]
  rfl

theorem run_blockCalls (config : Config) (entries : List GenesisEntry)
    {others : List GenesisEntry} (fits : ∀ e ∈ others, e.write.encodeBody.length < UInt64.size) :
    run config {} (blockCalls entries others) =
      ([.seeded (.ok ()),
        .block (.ok ⟨others.map fun e => config.executor.receiptOf e.transaction⟩),
        .committed (.ok ⟨1, stateRoot (Log.entries config.storeKey
          ((entries ++ others).map GenesisEntry.write))⟩)],
        committedOnce ((entries ++ others).map GenesisEntry.write)) := by
  rw [← commitInfo_committedOnce, List.map_append]
  simp only [blockCalls, run, call, Genesis.ofDocument_toDocument, decodedWrites_transactions fits,
    List.map_map]
  rfl

end Log

/-! ## One commit -/

namespace Application

/-- The application reaches the same first commit with all entries in its genesis document, and with
    the first of them there and the others in a block: every call succeeds, every transaction too,
    and the commit is the first version of the state that all entries in order leave. -/
structure SeedsAlike (app : Application MemStore) (entries others : List GenesisEntry) : Prop where
  genesisAnswers : (app.run (genesisCalls (entries ++ others))).1 =
    [.seeded (.ok ()), .committed (.ok ⟨1, stateRoot (Log.entries app.config.storeKey
      ((entries ++ others).map GenesisEntry.write))⟩)]
  blockAnswers : ∃ block : BlockReceipt, (app.run (blockCalls entries others)).1 =
      [.seeded (.ok ()), .block (.ok block), .committed (.ok ⟨1, stateRoot
        (Log.entries app.config.storeKey ((entries ++ others).map GenesisEntry.write))⟩)] ∧
    block.receipts.length = others.length ∧ ∀ receipt ∈ block.receipts, receipt.code = 0
  genesisEntries : (app.run (genesisCalls (entries ++ others))).2.store.committed =
    Log.entries app.config.storeKey ((entries ++ others).map GenesisEntry.write)
  blockEntries : (app.run (blockCalls entries others)).2.store.committed =
    Log.entries app.config.storeKey ((entries ++ others).map GenesisEntry.write)

/-- However a list of entries is divided between genesis and the first block, and whatever text the
    entries are, the first commit of an application over an empty store is the same.  An entry in
    the block has to have a length that a transaction can state. -/
theorem seedsAlike_of_start (config : Config) (valid : config.validate = .ok ())
    (entries others : List GenesisEntry)
    (fits : ∀ e ∈ others, e.write.encodeBody.length < UInt64.size) :
    ∃ app : Application MemStore, start config MemStore.empty = .ok app ∧ app.config = config ∧
      app.SeedsAlike entries others := by
  refine ⟨⟨config, valid, .empty, .uninitialized⟩, start_of_valid valid _, rfl, ?_⟩
  have follows := Follows.start ⟨config, valid, .empty, .uninitialized⟩ rfl rfl
  obtain ⟨genesisAnswers, genesisLast⟩ := follows.run (genesisCalls (entries ++ others))
  obtain ⟨blockAnswers, blockLast⟩ := follows.run (blockCalls entries others)
  rw [Log.run_genesisCalls] at genesisAnswers genesisLast
  rw [Log.run_blockCalls config entries fits] at blockAnswers blockLast
  refine ⟨genesisAnswers, ⟨_, blockAnswers, by simp, ?_⟩, ?_, ?_⟩
  · intro receipt member
    obtain ⟨e, inBlock, rfl⟩ := List.mem_map.mp member
    exact code_receiptOf_transaction (fits e inBlock) config.executor
  · rw [genesisLast.committed, Log.committedWrites_committedOnce]
  · rw [blockLast.committed, Log.committedWrites_committedOnce]

/-- Entries with a key that occurs on both sides, an empty key, and text that is not ASCII or has to
    be escaped. -/
def mixedEntries : List GenesisEntry × List GenesisEntry :=
  ([⟨"clé", "\"1\"\n"⟩, ⟨"", "𝒱"⟩], [⟨"clé", "\x07"⟩, ⟨"/", ""⟩])

theorem seedsAlike_of_start_mixedEntries :
    (({} : Config).validate = .ok () ∧
      ∀ e ∈ mixedEntries.2, e.write.encodeBody.length < UInt64.size) ∧
      ∃ app : Application MemStore, start {} MemStore.empty = .ok app ∧ app.config = {} ∧
        app.SeedsAlike mixedEntries.1 mixedEntries.2 := by
  have valid : ({} : Config).validate = .ok () := rfl
  have fits : ∀ e ∈ mixedEntries.2, e.write.encodeBody.length < UInt64.size := by decide +kernel
  exact ⟨⟨valid, fits⟩, seedsAlike_of_start {} valid mixedEntries.1 mixedEntries.2 fits⟩

end Application

end ReplicatedKv
