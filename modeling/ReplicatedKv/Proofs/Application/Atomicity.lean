import Mathlib.Control.Monad.Basic
import ReplicatedKv.Proofs.Application.Log
import ReplicatedKv.Proofs.Store.Backed

/-! # Atomic genesis

Seeding fails without a trace, wherever the store stops it, and a later attempt is as good as the
first one.

* `Application.initChain_cases` — the two ways in which an attempt ends.
* `Application.Unseeded` — what every call keeps as long as no attempt succeeds.
* `Application.AtomicGenesis` — what an attempt leaves, compared with the application before it and
  with a fresh one.
* `Application.initChain_atomic` — every attempt is atomic, after any calls that did not seed.
-/

namespace ReplicatedKv.Application

variable {σ : Type} [VersionedStore σ] {P : σ → Prop} {memory : σ → MemStore}

/-! ## One attempt -/

theorem initChain_cases (backed : BackedByMemory P memory) {app : Application σ}
    (uninitialized : app.phase = .uninitialized) (inside : P app.store) (document : Bytes) :
    (∃ cause after,
      app.initChain document = (.error (.genesis cause), { app with store := after }) ∧
      P after ∧ memory after = (memory app.store).discard) ∨
    ∃ genesis after, Genesis.ofDocument document = .ok genesis ∧
      app.initChain document = (.ok (), { app with store := after, phase := .ready }) ∧
      P after ∧ memory after = (memory app.store).setAll
        (genesis.writes.map (Write.inPartition app.config.storeKey)) := by
  match ran : Genesis.initChain app.config.storeKey document app.store with
  | (.error cause, after) =>
    obtain ⟨kept, rolledBack, -⟩ := Genesis.initChain_backed backed inside ran
    obtain ⟨keptDiscarded, discarded⟩ := backed.discard after kept
    refine .inl ⟨cause, VersionedStore.discard after, ?_, keptDiscarded, ?_⟩
    · simp only [initChain, uninitialized, ran]
    · rw [discarded, rolledBack]
  | (.ok size, after) =>
    obtain ⟨kept, -, complete⟩ := Genesis.initChain_backed backed inside ran
    obtain ⟨genesis, parsed, written⟩ := complete size rfl
    refine .inr ⟨genesis, after, parsed, ?_, kept, written⟩
    simp only [initChain, uninitialized, ran]

/-! ## Until an attempt succeeds -/

/-- The application is as the first one was when it started: nothing is pending, and the store holds
    what it held. -/
structure Unseeded (P : σ → Prop) (memory : σ → MemStore) (first app : Application σ) : Prop where
  sameConfig : app.config = first.config
  uninitialized : app.phase = .uninitialized
  inside : P app.store
  sameMemory : memory app.store = memory first.store
  nothingCommitted : (memory first.store).lastCommit.version = 0
  nothingPending : (memory first.store).pendingWrites = 0

variable {first app : Application σ}

theorem Unseeded.initChain_cases (backed : BackedByMemory P memory)
    (unseeded : Unseeded P memory first app) (document : Bytes) :
    (∃ cause after, app.initChain document = (.error (.genesis cause), after) ∧
      Unseeded P memory first after) ∨
    ∃ genesis after, Genesis.ofDocument document = .ok genesis ∧
      app.initChain document = (.ok (), after) ∧ P after.store ∧ after.phase = .ready ∧
      memory after.store = (memory first.store).setAll
        (genesis.writes.map (Write.inPartition first.config.storeKey)) := by
  obtain ⟨cause, after, failed, kept, rolledBack⟩ |
    ⟨genesis, after, parsed, seeded, kept, written⟩ :=
    Application.initChain_cases backed unseeded.uninitialized unseeded.inside document
  -- the discard takes back nothing else than what the attempt wrote, since nothing was pending
  · refine .inl ⟨cause, _, failed, unseeded.sameConfig, unseeded.uninitialized, kept, ?_,
      unseeded.nothingCommitted, unseeded.nothingPending⟩
    rw [rolledBack, unseeded.sameMemory, MemStore.discard_of_pendingWrites unseeded.nothingPending]
  · refine .inr ⟨genesis, _, parsed, seeded, kept, rfl, ?_⟩
    rw [written, unseeded.sameMemory, unseeded.sameConfig]

theorem Unseeded.of_initChain_eq_ok (backed : BackedByMemory P memory)
    (unseeded : Unseeded P memory first app) {document : Bytes} {after : Application σ}
    (attempt : app.initChain document = (.ok (), after)) :
    ∃ genesis, Genesis.ofDocument document = .ok genesis ∧ P after.store ∧ after.phase = .ready ∧
      memory after.store = (memory first.store).setAll
        (genesis.writes.map (Write.inPartition first.config.storeKey)) := by
  obtain ⟨cause, last, failed, -⟩ | ⟨genesis, last, parsed, seeded, kept, ready, written⟩ :=
    unseeded.initChain_cases backed document
  · nomatch (Prod.mk.inj (attempt.symm.trans failed)).1
  · obtain ⟨-, rfl⟩ := Prod.mk.inj (attempt.symm.trans seeded)
    exact ⟨genesis, parsed, kept, ready, written⟩

theorem Unseeded.call (backed : BackedByMemory P memory) (unseeded : Unseeded P memory first app)
    (c : Call) (failed : (app.call c).1 ≠ .seeded (.ok ())) :
    Unseeded P memory first (app.call c).2 := by
  cases c with
  | initChain document =>
    obtain ⟨cause, after, attempt, kept⟩ | ⟨genesis, after, -, attempt, -⟩ :=
      unseeded.initChain_cases backed document
    · simp only [Application.call, attempt]
      exact kept
    · simp only [Application.call, attempt, ne_eq, not_true_eq_false] at failed
  | finalizeBlock txs =>
    simp only [Application.call, finalizeBlock_of_uninitialized unseeded.uninitialized]
    exact unseeded
  | commit =>
    simp only [Application.call, commit_of_uninitialized unseeded.uninitialized]
    exact unseeded
  | checkTransaction | query | stateGet | info => exact unseeded

theorem Unseeded.run (backed : BackedByMemory P memory) (unseeded : Unseeded P memory first app)
    (calls : List Call) (failed : .seeded (.ok ()) ∉ (app.run calls).1) :
    Unseeded P memory first (app.run calls).2 := by
  induction calls generalizing app with
  | nil => exact unseeded
  | cons c calls ih =>
    obtain ⟨notNow, notLater⟩ := not_or.mp (mt List.mem_cons.mpr failed)
    exact ih (unseeded.call backed c (Ne.symm notNow)) notLater

/-! ## Atomicity -/

/-- An attempt to seed an application, which was `first` when it started.  A failed attempt changes
    nothing that can be observed; a successful one leads where the document leads a fresh
    application. -/
structure AtomicGenesis (memory : σ → MemStore) (first app : Application σ) (document : Bytes) :
    Prop where
  failed (error : AppError) (after : Application σ) :
    app.initChain document = (.error error, after) →
    (∃ cause, error = .genesis cause) ∧ after.phase = .uninitialized ∧
      (memory after.store).pendingWrites = 0 ∧
      (∀ key, KeyValueStore.get after.store key = KeyValueStore.get app.store key) ∧
      (∀ key, VersionedStore.committedGet after.store key =
        VersionedStore.committedGet app.store key) ∧
      VersionedStore.lastCommit after.store = VersionedStore.lastCommit app.store
  /-- A fresh application over the memory alone always takes the document. -/
  succeeded (after : Application σ) : app.initChain document = (.ok (), after) →
    ∃ fresh seeded : Application MemStore,
      Application.start first.config (memory first.store) = .ok fresh ∧
      fresh.initChain document = (.ok (), seeded) ∧ after.phase = seeded.phase ∧
      (∀ key, KeyValueStore.get after.store key = KeyValueStore.get seeded.store key) ∧
      (memory after.store).pending = seeded.store.pending
  repeated (after seeded : Application σ) : app.initChain document = (.ok (), after) →
    first.initChain document = (.ok (), seeded) → after.phase = seeded.phase ∧
      (∀ key, KeyValueStore.get after.store key = KeyValueStore.get seeded.store key) ∧
      (memory after.store).pending = (memory seeded.store).pending

theorem Unseeded.atomicGenesis (backed : BackedByMemory P memory)
    (unseeded : Unseeded P memory first app) (fresh : Unseeded P memory first first)
    (document : Bytes) : AtomicGenesis memory first app document where
  failed := by
    intro error after attempt
    obtain ⟨cause, last, failed, kept⟩ | ⟨genesis, last, -, seeded, -⟩ :=
      unseeded.initChain_cases backed document
    · obtain ⟨sameError, rfl⟩ := Prod.mk.inj (attempt.symm.trans failed)
      have same : memory after.store = memory app.store :=
        kept.sameMemory.trans unseeded.sameMemory.symm
      refine ⟨⟨cause, Except.error.inj sameError⟩, kept.uninitialized, ?_, ?_, ?_, ?_⟩
      · rw [kept.sameMemory, kept.nothingPending]
      · intro key
        rw [backed.get _ key kept.inside, backed.get _ key unseeded.inside, same]
      · intro key
        rw [backed.committedGet _ key kept.inside, backed.committedGet _ key unseeded.inside, same]
      · rw [backed.lastCommit _ kept.inside, backed.lastCommit _ unseeded.inside, same]
    · nomatch (Prod.mk.inj (attempt.symm.trans seeded)).1
  succeeded := by
    intro after attempt
    obtain ⟨genesis, parsed, kept, ready, written⟩ := unseeded.of_initChain_eq_ok backed attempt
    -- the memory store alone refuses no write, so there the whole document is written
    have started := start_of_valid first.valid (memory first.store)
    have version : ¬(memory first.store).lastCommit.version > 0 := by
      rw [fresh.nothingCommitted]
      exact UInt64.lt_irrefl 0
    refine ⟨_, _, started, initChain_of_parsed (if_neg version) parsed, ready, ?_, ?_⟩
    · intro key
      rw [backed.get _ key kept, written]
      rfl
    · rw [written]
  repeated := by
    intro after seeded attempt attemptFirst
    obtain ⟨genesis, parsed, kept, ready, written⟩ := unseeded.of_initChain_eq_ok backed attempt
    obtain ⟨genesis', parsed', kept', ready', written'⟩ :=
      fresh.of_initChain_eq_ok backed attemptFirst
    obtain rfl := Except.ok.inj (parsed.symm.trans parsed')
    have same : memory after.store = memory seeded.store := written.trans written'.symm
    refine ⟨ready.trans ready'.symm, ?_, congrArg MemStore.pending same⟩
    intro key
    rw [backed.get _ key kept, backed.get _ key kept', same]

/-- However often seeding an application has failed, the next attempt is atomic.  The store may
    refuse any write; when the application starts, nothing is committed or pending in it. -/
theorem initChain_atomic (backed : BackedByMemory P memory) (config : Config)
    (valid : config.validate = .ok ()) (store : σ) (inside : P store)
    (uncommitted : (VersionedStore.lastCommit store).version = 0)
    (clean : (memory store).pendingWrites = 0) :
    ∃ first, start config store = .ok first ∧
      ∀ calls, .seeded (.ok ()) ∉ (first.run calls).1 →
        ∀ document, AtomicGenesis memory first (first.run calls).2 document := by
  have version : ¬(VersionedStore.lastCommit store).version > 0 := by
    rw [uncommitted]
    exact UInt64.lt_irrefl 0
  have started := start_of_valid valid store
  rw [if_neg version] at started
  refine ⟨_, started, ?_⟩
  intro calls failed document
  have fresh : Unseeded P memory ⟨config, valid, store, .uninitialized⟩
      ⟨config, valid, store, .uninitialized⟩ := by
    refine ⟨rfl, rfl, inside, rfl, ?_, clean⟩
    rw [← backed.lastCommit store inside, uncommitted]
  exact (fresh.run backed calls failed).atomicGenesis backed fresh document

deriving instance DecidableEq for Answer

/-- A store that refuses one key, and any write after the third. -/
def narrowStore : FaultyStore MemStore where
  inner := .empty
  plan := { rejectedKeys := [Partition.fullKey "main" [0x62]], capacity := some 3 }

def narrowApp : Application (FaultyStore MemStore) := ⟨{}, rfl, narrowStore, .uninitialized⟩

/-- A document that does not parse, and one of which two entries are written before the third is
    refused. -/
def failingCalls : List Call :=
  [.initChain [0x7b], .commit,
    .initChain (Utf8.encode (Genesis.mk [⟨"a", "1"⟩, ⟨"a", "2"⟩, ⟨"b", "3"⟩]).toDocument)]

/-- A document that `narrowStore` takes, also after the calls that fail. -/
def lateDocument : Bytes := Utf8.encode (Genesis.mk [⟨"c", "4"⟩]).toDocument

theorem initChain_atomic_narrowStore :
    (BackedByMemory (fun store : FaultyStore MemStore => True ∧ store.plan.unreadableKeys = [])
        (fun store => store.inner) ∧
      ({} : Config).validate = .ok () ∧ (True ∧ narrowStore.plan.unreadableKeys = []) ∧
      (VersionedStore.lastCommit narrowStore).version = 0 ∧
      narrowStore.inner.pendingWrites = 0) ∧
      start {} narrowStore = .ok narrowApp ∧
      (narrowApp.run failingCalls).1 =
        [.seeded (.error (.genesis (.parse .endInObject))), .committed (.error .notInitialized),
          .seeded (.error (.genesis (.store (.writeRejected "key 6d61696e2f62"))))] ∧
      ((narrowApp.run failingCalls).2.initChain lateDocument).1 = .ok () ∧
      AtomicGenesis (fun store => store.inner) narrowApp (narrowApp.run failingCalls).2
        lateDocument := by
  have backed := FaultyStore.backedByMemory MemStore.backedByMemory
  have valid : ({} : Config).validate = .ok () := rfl
  have inside : True ∧ narrowStore.plan.unreadableKeys = [] := ⟨trivial, rfl⟩
  have started : start {} narrowStore = .ok narrowApp := start_of_valid valid narrowStore
  have answers : (narrowApp.run failingCalls).1 =
      [.seeded (.error (.genesis (.parse .endInObject))), .committed (.error .notInitialized),
        .seeded (.error (.genesis (.store (.writeRejected "key 6d61696e2f62"))))] := by
    decide +kernel
  have failed : .seeded (.ok ()) ∉ (narrowApp.run failingCalls).1 := by simp [answers]
  obtain ⟨first, same, atomic⟩ := initChain_atomic backed {} valid narrowStore inside rfl rfl
  obtain rfl := Except.ok.inj (started.symm.trans same)
  exact ⟨⟨backed, valid, inside, rfl, rfl⟩, started, answers, by decide +kernel,
    atomic failingCalls failed lateDocument⟩

end ReplicatedKv.Application
