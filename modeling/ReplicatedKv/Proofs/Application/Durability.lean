import ReplicatedKv.Proofs.Application.Atomicity

/-! # Durability

Commits may fail, and blocks may run between a failed commit and the next one.  Nothing that an
application has acknowledged is lost by that, and nothing of it is committed before a commit
succeeds.

* `Ledger` — what the answers of an application say: the state last committed, and the writes
  acknowledged since.
* `Application.FollowsLedger` — the store holds what the ledger says; every call keeps this.
* `Application.CommitsLedger` — what a commit does, whether it fails or succeeds.
* `Application.run_commitsLedger` — at every point of every run, a commit does this.
-/

namespace ReplicatedKv

/-! ## The ledger -/

/-- An account of an application's answers. -/
structure Ledger where
  /-- The version of the last successful commit. -/
  version : UInt64
  /-- The entries that it committed. -/
  committed : Entries
  /-- The writes acknowledged since, under their full keys. -/
  pending : List Write

namespace Ledger

/-- The state that the next successful commit has to commit: of several writes to a key the last
    one counts. -/
def next (ledger : Ledger) : Entries := ledger.committed.overlay ledger.pending

/-- The writes of a genesis document. -/
def documentWrites (document : Bytes) : List Write :=
  match Genesis.ofDocument document with
  | .ok genesis => genesis.writes
  | .error _ => []

/-- Writes to a partition that were acknowledged. -/
def acknowledge (ledger : Ledger) (storeKey : String) (writes : List Write) : Ledger :=
  { ledger with pending := ledger.pending ++ writes.map (Write.inPartition storeKey) }

/-- The account after a call with its answer. -/
def record (storeKey : String) (ledger : Ledger) : Call × Answer → Ledger
  | (.initChain document, .seeded (.ok ())) =>
    ledger.acknowledge storeKey (documentWrites document)
  -- a failed genesis takes its writes back, and whatever else was pending
  | (.initChain _, .seeded (.error (.genesis _))) => { ledger with pending := [] }
  | (.finalizeBlock txs, .block (.ok block)) =>
    ledger.acknowledge storeKey (acknowledgedWrites txs block.receipts)
  | (.commit, .committed (.ok info)) => ⟨info.version, ledger.next, []⟩
  | _ => ledger

def recordAll (storeKey : String) (ledger : Ledger) (transcript : List (Call × Answer)) : Ledger :=
  transcript.foldl (record storeKey) ledger

/-- The account that a store begins with: its pending writes were acknowledged before. -/
def ofMemory (store : MemStore) : Ledger :=
  ⟨store.lastCommit.version, store.committed, store.pending.writes.writes⟩

theorem next_acknowledge (ledger : Ledger) (storeKey : String) (writes : List Write) :
    (ledger.acknowledge storeKey writes).next =
      ledger.next.overlay (writes.map (Write.inPartition storeKey)) :=
  Entries.overlay_append _ _ _

/-- Only a successful commit is the account of another version. -/
theorem version_record (ledger : Ledger) (storeKey : String) (c : Call) {answer : Answer}
    (notCommitted : ∀ info, answer ≠ .committed (.ok info)) :
    (ledger.record storeKey (c, answer)).version = ledger.version := by
  unfold record
  split
  case h_4 info recorded => exact absurd (Prod.mk.inj recorded).2 (notCommitted info)
  all_goals rfl

end Ledger

namespace Application

variable {σ : Type} {P : σ → Prop} {memory : σ → MemStore}

/-! ## The store behind the ledger -/

/-- The memory behind the store holds what the ledger says. -/
structure FollowsLedger (P : σ → Prop) (memory : σ → MemStore) (ledger : Ledger)
    (app : Application σ) : Prop where
  inside : P app.store
  version : (memory app.store).lastCommit.version = ledger.version
  committed : (memory app.store).committed = ledger.committed
  working : (memory app.store).working = ledger.next

theorem FollowsLedger.ofMemory (app : Application σ) (inside : P app.store) :
    FollowsLedger P memory (.ofMemory (memory app.store)) app :=
  ⟨inside, rfl, rfl, MemStore.working_eq_overlay _⟩

variable {ledger : Ledger} {app : Application σ}

theorem FollowsLedger.of_memory_eq (follows : FollowsLedger P memory ledger app)
    {after : Application σ} (inside : P after.store)
    (same : memory after.store = memory app.store) : FollowsLedger P memory ledger after :=
  ⟨inside, same ▸ follows.version, same ▸ follows.committed, same ▸ follows.working⟩

theorem FollowsLedger.acknowledge (follows : FollowsLedger P memory ledger app)
    {after : Application σ} {storeKey : String} {writes : List Write} (inside : P after.store)
    (written : memory after.store =
      (memory app.store).setAll (writes.map (Write.inPartition storeKey))) :
    FollowsLedger P memory (ledger.acknowledge storeKey writes) after where
  inside := inside
  version := by
    rw [written, MemStore.lastCommit_setAll, follows.version]
    rfl
  committed := by
    rw [written, MemStore.committed_setAll, follows.committed]
    rfl
  working := by
    rw [written, MemStore.working_setAll_eq_overlay, follows.working, Ledger.next_acknowledge]

theorem FollowsLedger.discard (follows : FollowsLedger P memory ledger app)
    {after : Application σ} (inside : P after.store)
    (rolledBack : memory after.store = (memory app.store).discard) :
    FollowsLedger P memory { ledger with pending := [] } after where
  inside := inside
  version := by
    rw [rolledBack]
    exact follows.version
  committed := by
    rw [rolledBack]
    exact follows.committed
  working := by
    rw [rolledBack, MemStore.working_discard]
    exact follows.committed

theorem FollowsLedger.commit (follows : FollowsLedger P memory ledger app)
    {after : Application σ} (inside : P after.store)
    (held : memory after.store = (memory app.store).commit) :
    FollowsLedger P memory ⟨(memory app.store).commit.lastCommit.version, ledger.next, []⟩ after
    where
  inside := inside
  version := by rw [held]
  committed := by rw [held, MemStore.committed_commit, follows.working]
  working := by
    rw [held, MemStore.working_commit, follows.working]
    rfl

variable [VersionedStore σ]

/-! ## One commit -/

/-- The ways in which a commit of a ready application ends. -/
theorem commit_cases (lawful : CommitsToMemory P memory) (ready : app.phase = .ready)
    (inside : P app.store) :
    (∃ cause after, app.commit = (.error (.store cause), { app with store := after }) ∧
      P after ∧ memory after = memory app.store) ∨
    ∃ after, app.commit =
        (.ok (memory app.store).commit.lastCommit, { app with store := after }) ∧
      P after ∧ memory after = (memory app.store).commit := by
  match made : VersionedStore.commit app.store with
  | (.error cause, after) =>
    obtain ⟨kept, same⟩ := lawful.failed app.store after cause inside made
    refine .inl ⟨cause, after, ?_, kept, same⟩
    simp only [Application.commit, ready, made]
  | (.ok info, after) =>
    obtain ⟨kept, held, rfl⟩ := lawful.committed app.store after info inside made
    refine .inr ⟨after, ?_, kept, held⟩
    simp only [Application.commit, ready, made]

/-! ## One call -/

theorem FollowsLedger.call (lawful : CommitsToMemory P memory)
    (follows : FollowsLedger P memory ledger app) (c : Call) :
    FollowsLedger P memory (ledger.record app.config.storeKey (c, (app.call c).1))
      (app.call c).2 := by
  cases c with
  | initChain document =>
    cases phase : app.phase with
    | ready =>
      simp only [Application.call, initChain_of_ready phase]
      exact follows
    | uninitialized =>
      obtain ⟨cause, after, failed, kept, rolledBack⟩ |
        ⟨genesis, after, parsed, seeded, kept, written⟩ :=
        initChain_cases lawful.toBackedByMemory phase follows.inside document
      · simp only [Application.call, failed]
        exact follows.discard kept rolledBack
      · simp only [Application.call, seeded, Ledger.record, Ledger.documentWrites, parsed]
        exact follows.acknowledge kept written
  | finalizeBlock txs =>
    cases phase : app.phase with
    | uninitialized =>
      simp only [Application.call, finalizeBlock_of_uninitialized phase]
      exact follows
    | ready =>
      obtain ⟨kept, written⟩ := Executor.runBlock_backed lawful.toBackedByMemory
        app.config.executor txs follows.inside
      simp only [Application.call, finalizeBlock_of_ready phase]
      exact follows.acknowledge kept written
  | commit =>
    cases phase : app.phase with
    | uninitialized =>
      simp only [Application.call, commit_of_uninitialized phase]
      exact follows
    | ready =>
      obtain ⟨cause, after, failed, kept, same⟩ | ⟨after, committed, kept, held⟩ :=
        commit_cases lawful phase follows.inside
      · simp only [Application.call, failed]
        exact follows.of_memory_eq kept same
      · simp only [Application.call, committed]
        exact follows.commit kept held
  | checkTransaction | query | stateGet | info => exact follows

/-! ## Runs -/

/-- The calls of a run with their answers. -/
def transcript (app : Application σ) (calls : List Call) : List (Call × Answer) :=
  calls.zip (app.run calls).1

theorem FollowsLedger.run (lawful : CommitsToMemory P memory)
    (follows : FollowsLedger P memory ledger app) (calls : List Call) :
    FollowsLedger P memory (ledger.recordAll app.config.storeKey (app.transcript calls))
      (app.run calls).2 := by
  induction calls generalizing ledger app with
  | nil => exact follows
  | cons c calls ih =>
    have last := ih (follows.call lawful c)
    rw [config_call] at last
    exact last

/-- What a commit does, compared with the ledger.  A failed one leaves the application as it was, as
    far as anyone can see.  A successful one gives the next version to all that was acknowledged,
    laid over the state committed before. -/
structure CommitsLedger (memory : σ → MemStore) (ledger : Ledger) (app : Application σ) : Prop where
  failed (error : AppError) (after : Application σ) : app.phase = .ready →
    app.commit = (.error error, after) →
    (∃ cause, error = .store cause) ∧ after.phase = .ready ∧
      (∀ key, after.query key = app.query key) ∧ (∀ key, after.stateGet key = app.stateGet key) ∧
      after.info = app.info
  committed (info : CommitInfo) (after : Application σ) : app.commit = (.ok info, after) →
    info.version.toNat = min (ledger.version.toNat + 1) (UInt64.size - 1) ∧
      info.appHash = stateRoot ledger.next ∧ (memory after.store).committed = ledger.next ∧
      ∀ full, VersionedStore.committedGet after.store full =
        .ok ((lastValue? full ledger.pending).or ledger.committed[full]?)

theorem FollowsLedger.commitsLedger (lawful : CommitsToMemory P memory)
    (follows : FollowsLedger P memory ledger app) : CommitsLedger memory ledger app where
  failed := by
    intro error after ready commit
    obtain ⟨cause, store, failed, kept, same⟩ | ⟨store, committed, -, -⟩ :=
      commit_cases lawful ready follows.inside
    · obtain ⟨sameError, rfl⟩ := Prod.mk.inj (commit.symm.trans failed)
      have inside := follows.inside
      refine ⟨⟨cause, Except.error.inj sameError⟩, ready, ?_, ?_, ?_⟩
      · intro key
        rw [query, query, lawful.committedGet _ _ kept, lawful.committedGet _ _ inside, same]
      · intro key
        rw [stateGet, stateGet, Partition.get, Partition.get, lawful.get _ _ kept,
          lawful.get _ _ inside, same]
      · rw [info, info, lawful.lastCommit _ kept, lawful.lastCommit _ inside, same]
    · nomatch (Prod.mk.inj (commit.symm.trans committed)).1
  committed := by
    intro info after commit
    cases phase : app.phase with
    | uninitialized =>
      nomatch (Prod.mk.inj (commit.symm.trans (commit_of_uninitialized phase))).1
    | ready =>
      obtain ⟨cause, store, failed, -, -⟩ | ⟨store, committed, kept, held⟩ :=
        commit_cases lawful phase follows.inside
      · nomatch (Prod.mk.inj (commit.symm.trans failed)).1
      · obtain ⟨sameInfo, rfl⟩ := Prod.mk.inj (commit.symm.trans committed)
        obtain rfl := Except.ok.inj sameInfo
        have entries : (memory store).committed = ledger.next := by
          rw [held, MemStore.committed_commit, follows.working]
        refine ⟨?_, ?_, entries, ?_⟩
        · rw [MemStore.lastCommit_commit, follows.version, Saturating.toNat_add]
          rfl
        · rw [MemStore.lastCommit_commit, follows.working]
        · intro full
          rw [lawful.committedGet _ _ kept, MemStore.committedGet?, entries, Ledger.next,
            Entries.getElem?_overlay]

/-- Whatever calls were made before, and however many commits have failed among them, a commit fails
    without a trace or commits all that was acknowledged. -/
theorem run_commitsLedger (lawful : CommitsToMemory P memory) (app : Application σ)
    (inside : P app.store) (calls : List Call) :
    CommitsLedger memory
      ((Ledger.ofMemory (memory app.store)).recordAll app.config.storeKey (app.transcript calls))
      (app.run calls).2 :=
  ((FollowsLedger.ofMemory app inside).run lawful calls).commitsLedger lawful

/-- A store that refuses one key and fails the first two commits. -/
def flakyStore : FaultyStore MemStore where
  inner := .empty
  plan := { rejectedKeys := [Partition.fullKey "main" [0x62]], failingCommits := [1, 2] }

def flakyApp : Application (FaultyStore MemStore) :=
  ⟨{}, Config.validate_default, flakyStore, .uninitialized⟩

/-- Genesis and two blocks, of which one has a write that is refused, with two failed commits
    between them. -/
def flakyCalls : List Call :=
  [.initChain (Utf8.encode (Genesis.mk [⟨"a", "0"⟩]).toDocument), .commit,
    .finalizeBlock [Write.encode ⟨[0x61], [0x31]⟩, Write.encode ⟨[0x62], [0x32]⟩], .commit,
    .finalizeBlock [Write.encode ⟨[0x61], [0x33]⟩]]

/-- What the answers to `flakyCalls` say. -/
def flakyLedger : Ledger :=
  (Ledger.ofMemory flakyStore.inner).recordAll "main" (flakyApp.transcript flakyCalls)

theorem run_commitsLedger_flakyCalls :
    (CommitsToMemory (fun store : FaultyStore MemStore => True ∧ store.plan.unreadableKeys = [])
        (fun store => store.inner) ∧ (True ∧ flakyStore.plan.unreadableKeys = [])) ∧
      flakyLedger.version = 0 ∧
      flakyLedger.pending =
        [⟨Partition.fullKey "main" [0x61], [0x30]⟩, ⟨Partition.fullKey "main" [0x61], [0x31]⟩,
          ⟨Partition.fullKey "main" [0x61], [0x33]⟩] ∧
      (flakyApp.run flakyCalls).2.commit.1.isOk = true ∧
      CommitsLedger (fun store => store.inner) flakyLedger (flakyApp.run flakyCalls).2 := by
  have lawful := FaultyStore.commitsToMemory MemStore.commitsToMemory
  have inside : True ∧ flakyStore.plan.unreadableKeys = [] := ⟨trivial, rfl⟩
  exact ⟨⟨lawful, inside⟩, by decide +kernel, by decide +kernel, by decide +kernel,
    run_commitsLedger lawful flakyApp inside flakyCalls⟩

end Application

end ReplicatedKv
