import ReplicatedKv.Proofs.Application.Calls
import ReplicatedKv.Proofs.Execution.Memory

/-! # The application as a log

An application over the memory store, described without a store: a growing list of writes, of which
a first part is committed.

* `Log` — the description, with its own answer to every call.
* `Application.Follows` — an application is in the state that a log describes.
* `Application.run_follows_log` — from the start on, every run answers like the log, and a failed
  call changes nothing.
-/

namespace ReplicatedKv

/-! ## The log -/

/-- All writes of an application's life, and how many of them are committed. -/
structure Log where
  phase : Phase := .uninitialized
  /-- The entries of genesis, followed by the writes of every block. -/
  writes : List Write := []
  /-- How many writes the last commit covers. -/
  committed : Nat := 0
  /-- How many commits there were. -/
  commits : Nat := 0

namespace Log

/-- The writes that the last commit covers. -/
def committedWrites (log : Log) : List Write := log.writes.take log.committed

/-- The entries that writes to a partition leave in the store. -/
def entries (storeKey : String) (writes : List Write) : Entries :=
  .ofWrites (writes.map (Write.inPartition storeKey))

/-- The number of commits, as far as it fits into 64 bits, and the root of the committed state. -/
def commitInfo (storeKey : String) (log : Log) : CommitInfo :=
  ⟨.ofNat (min log.commits (UInt64.size - 1)), stateRoot (entries storeKey log.committedWrites)⟩

/-- The log's answer to a call, and the log after it. -/
def call (config : Config) (log : Log) : Call → Answer × Log
  | .initChain document =>
    match log.phase, Genesis.ofDocument document with
    | .ready, _ => (.seeded (.error .alreadyInitialized), log)
    | .uninitialized, .error fault => (.seeded (.error (.genesis (.parse fault))), log)
    | .uninitialized, .ok genesis =>
      (.seeded (.ok ()), { log with phase := .ready, writes := genesis.writes })
  | .finalizeBlock txs =>
    match log.phase with
    | .uninitialized => (.block (.error .notInitialized), log)
    | .ready => (.block (.ok ⟨txs.map config.executor.receiptOf⟩),
        { log with writes := log.writes ++ decodedWrites txs })
  | .commit =>
    match log.phase with
    | .uninitialized => (.committed (.error .notInitialized), log)
    | .ready =>
      let log := { log with committed := log.writes.length, commits := log.commits + 1 }
      (.committed (.ok (log.commitInfo config.storeKey)), log)
  | .checkTransaction raw =>
    match Write.decode raw with
    | .ok _ => (.checked {}, log)
    | .error error => (.checked (Executor.undecodedReceipt config.codespace error), log)
  | .query key => (.value (.ok (lastValue? key log.committedWrites)), log)
  | .stateGet key => (.value (.ok (lastValue? key log.writes)), log)
  | .info =>
    let last := log.commitInfo config.storeKey
    (.info ⟨config.appName, last.version, last.appHash⟩, log)

def run (config : Config) (log : Log) : List Call → List Answer × Log
  | [] => ([], log)
  | call :: calls =>
    let first := log.call config call
    let others := first.2.run config calls
    (first.1 :: others.1, others.2)

end Log

/-! ## What an application and its log share -/

/-- The application is in the state that the log describes.  Before genesis both are as they were
    at the start: there is nothing that a failed genesis could lose. -/
structure Application.Follows (config : Config) (log : Log) (app : Application MemStore) :
    Prop where
  sameConfig : app.config = config
  samePhase : app.phase = log.phase
  fresh : log.phase = .uninitialized → app.store = .empty ∧ log = {}
  committed : app.store.committed = Log.entries config.storeKey log.committedWrites
  working : app.store.working = Log.entries config.storeKey log.writes
  lastCommit : app.store.lastCommit = log.commitInfo config.storeKey
  bound : log.committed ≤ log.writes.length

namespace Application

theorem commitInfo_start (storeKey : String) : Log.commitInfo storeKey {} = .initial := by
  show CommitInfo.mk _ (stateRoot ∅) = _
  rw [stateRoot_of_toList_nil rfl]
  rfl

theorem Follows.start (app : Application MemStore) (store : app.store = .empty)
    (phase : app.phase = .uninitialized) : Follows app.config {} app where
  sameConfig := rfl
  samePhase := phase
  fresh _ := ⟨store, rfl⟩
  committed := by
    rw [store]
    rfl
  working := by
    rw [store, MemStore.working_empty]
    rfl
  lastCommit := by
    rw [store, commitInfo_start]
    rfl
  bound := Nat.le_refl 0

variable {config : Config} {log : Log} {app : Application MemStore}

/-! ## Calls that only read -/

theorem Follows.query (follows : Follows config log app) (key : Bytes) :
    app.query key = .ok (lastValue? key log.committedWrites) := by
  show Except.ok (app.store.committed[_]?) = _
  rw [follows.committed, follows.sameConfig, Log.entries, Entries.getElem?_ofWrites,
    lastValue?_inPartition]

theorem Follows.stateGet (follows : Follows config log app) (key : Bytes) :
    app.stateGet key = .ok (lastValue? key log.writes) := by
  show Except.ok (app.store.get? _) = _
  rw [MemStore.get?_eq_working, follows.working, follows.sameConfig, Log.entries,
    Entries.getElem?_ofWrites, lastValue?_inPartition]

theorem Follows.info (follows : Follows config log app) :
    app.info = ⟨config.appName, (log.commitInfo config.storeKey).version,
      (log.commitInfo config.storeKey).appHash⟩ := by
  show AppInfo.mk app.config.appName app.store.lastCommit.version app.store.lastCommit.appHash = _
  rw [follows.sameConfig, follows.lastCommit]

/-! ## Calls that write -/

/-- Writes to the partition go to the end of the log. -/
theorem Follows.setAll (follows : Follows config log app) {p q : Phase} (readyLog : p = .ready)
    (readyApp : q = .ready) (writes : List Write) :
    Follows config { log with phase := p, writes := log.writes ++ writes }
      { app with
        phase := q, store := app.store.setAll (writes.map (Write.inPartition config.storeKey)) }
    where
  sameConfig := follows.sameConfig
  samePhase := by rw [readyLog, readyApp]
  fresh := by
    intro uninitialized
    nomatch uninitialized.symm.trans readyLog
  committed := by
    rw [MemStore.committed_setAll, follows.committed, Log.committedWrites, Log.committedWrites,
      List.take_append_of_le_length follows.bound]
  working := by
    rw [MemStore.working_setAll follows.working, Log.entries, List.map_append]
  lastCommit := by
    rw [MemStore.lastCommit_setAll, follows.lastCommit, Log.commitInfo, Log.commitInfo,
      Log.committedWrites, Log.committedWrites, List.take_append_of_le_length follows.bound]
  bound := by
    have := follows.bound
    simp only [List.length_append]
    omega

/-- The count of commits stops at the end of the range. -/
theorem add_one_commits (n : Nat) :
    Saturating.add (.ofNat (min n (UInt64.size - 1))) 1 =
      .ofNat (min (n + 1) (UInt64.size - 1)) := by
  apply UInt64.toNat_inj.mp
  rw [Saturating.toNat_add, UInt64.toNat_ofNat_of_lt', UInt64.toNat_ofNat_of_lt']
  · show min (min n (UInt64.size - 1) + 1) (UInt64.size - 1) = _
    omega
  · simp only [UInt64.size]
    omega
  · simp only [UInt64.size]
    omega

theorem Follows.commit (follows : Follows config log app) (ready : log.phase = .ready) :
    Follows config { log with committed := log.writes.length, commits := log.commits + 1 }
      { app with store := app.store.commit } where
  sameConfig := follows.sameConfig
  samePhase := follows.samePhase
  fresh := by
    intro uninitialized
    nomatch uninitialized.symm.trans ready
  committed := by
    rw [MemStore.committed_commit, follows.working, Log.committedWrites, List.take_length]
  working := by
    rw [MemStore.working_commit, follows.working]
  lastCommit := by
    rw [MemStore.lastCommit_commit, follows.lastCommit, follows.working, Log.commitInfo,
      Log.commitInfo, add_one_commits, Log.committedWrites, List.take_length]
  bound := Nat.le_refl _

theorem initChain_of_fault (uninitialized : app.phase = .uninitialized) {document : Bytes}
    {fault : Json.Fault} (parsed : Genesis.ofDocument document = .error fault) :
    app.initChain document =
      (.error (.genesis (.parse fault)), { app with store := app.store.discard }) := by
  simp only [initChain, uninitialized, Genesis.initChain_memStore_error parsed]
  rfl

theorem initChain_of_malformed (uninitialized : app.phase = .uninitialized)
    (empty : app.store = .empty) {document : Bytes} {fault : Json.Fault}
    (parsed : Genesis.ofDocument document = .error fault) :
    app.initChain document = (.error (.genesis (.parse fault)), app) := by
  -- nothing was written, and what is discarded was empty before
  have discarded : app.store.discard = app.store := by
    rw [empty]
    rfl
  rw [initChain_of_fault uninitialized parsed, discarded]

theorem initChain_of_parsed (uninitialized : app.phase = .uninitialized) {document : Bytes}
    {genesis : Genesis} (parsed : Genesis.ofDocument document = .ok genesis) :
    app.initChain document = (.ok (), { app with
      phase := .ready
      store := app.store.setAll
        (genesis.writes.map (Write.inPartition app.config.storeKey)) }) := by
  simp only [initChain, uninitialized, Genesis.initChain_memStore_ok parsed]

theorem finalizeBlock_memStore (ready : app.phase = .ready) (txs : List Bytes) :
    app.finalizeBlock txs = (.ok ⟨txs.map app.config.executor.receiptOf⟩, { app with
      store := app.store.setAll
        ((decodedWrites txs).map (Write.inPartition app.config.storeKey)) }) := by
  rw [finalizeBlock_of_ready ready, Executor.runBlock, Executor.runAll_memStore]
  rfl

theorem commit_of_ready (ready : app.phase = .ready) :
    app.commit = (.ok app.store.commit.lastCommit, { app with store := app.store.commit }) := by
  simp only [commit, ready]
  rfl

/-! ## Runs -/

/-- Application and log answer the call alike, and the one follows the other after it. -/
def InStep (config : Config) (log : Log) (app : Application MemStore) (c : Call) : Prop :=
  (app.call c).1 = (log.call config c).1 ∧ Follows config (log.call config c).2 (app.call c).2

theorem Follows.inStep_initChain (follows : Follows config log app) (document : Bytes) :
    InStep config log app (.initChain document) := by
  rw [InStep, Application.call, Log.call]
  cases phase : log.phase with
  | ready =>
    rw [initChain_of_ready (follows.samePhase.trans phase)]
    exact ⟨rfl, follows⟩
  | uninitialized =>
    have uninitialized := follows.samePhase.trans phase
    obtain ⟨empty, fresh⟩ := follows.fresh phase
    cases parsed : Genesis.ofDocument document with
    | error fault =>
      rw [initChain_of_malformed uninitialized empty parsed]
      exact ⟨rfl, follows⟩
    | ok genesis =>
      -- the log was empty until now, so the entries of genesis come first
      have seeded := follows.setAll (p := .ready) (q := .ready) rfl rfl genesis.writes
      have noWrites : log.writes = [] := congrArg Log.writes fresh
      rw [noWrites, List.nil_append, ← follows.sameConfig] at seeded
      rw [initChain_of_parsed uninitialized parsed, ← follows.sameConfig]
      exact ⟨rfl, seeded⟩

theorem Follows.inStep_finalizeBlock (follows : Follows config log app) (txs : List Bytes) :
    InStep config log app (.finalizeBlock txs) := by
  rw [InStep, Application.call, Log.call]
  cases phase : log.phase with
  | uninitialized =>
    rw [finalizeBlock_of_uninitialized (follows.samePhase.trans phase)]
    exact ⟨rfl, follows⟩
  | ready =>
    have ready := follows.samePhase.trans phase
    have executed := follows.setAll (p := .ready) rfl ready (decodedWrites txs)
    rw [← follows.sameConfig] at executed ⊢
    rw [finalizeBlock_memStore ready]
    exact ⟨rfl, executed⟩

theorem Follows.inStep_commit (follows : Follows config log app) :
    InStep config log app .commit := by
  rw [InStep, Application.call, Log.call]
  cases phase : log.phase with
  | uninitialized =>
    rw [commit_of_uninitialized (follows.samePhase.trans phase)]
    exact ⟨rfl, follows⟩
  | ready =>
    have committed := follows.commit phase
    rw [phase] at committed
    rw [commit_of_ready (follows.samePhase.trans phase)]
    exact ⟨congrArg (fun info => Answer.committed (.ok info)) committed.lastCommit, committed⟩

theorem Follows.inStep_checkTransaction (follows : Follows config log app) (raw : Bytes) :
    InStep config log app (.checkTransaction raw) := by
  rw [InStep, Application.call, Log.call, checkTransaction, follows.sameConfig]
  cases Write.decode raw with
  | ok w => exact ⟨rfl, follows⟩
  | error error => exact ⟨rfl, follows⟩

/-- One call. -/
theorem Follows.call (follows : Follows config log app) (c : Call) : InStep config log app c := by
  cases c with
  | initChain document => exact follows.inStep_initChain document
  | finalizeBlock txs => exact follows.inStep_finalizeBlock txs
  | commit => exact follows.inStep_commit
  | checkTransaction raw => exact follows.inStep_checkTransaction raw
  | query key => exact ⟨congrArg Answer.value (follows.query key), follows⟩
  | stateGet key => exact ⟨congrArg Answer.value (follows.stateGet key), follows⟩
  | info => exact ⟨congrArg Answer.info follows.info, follows⟩

theorem Follows.run (follows : Follows config log app) (calls : List Call) :
    (app.run calls).1 = (log.run config calls).1 ∧
      Follows config (log.run config calls).2 (app.run calls).2 := by
  induction calls generalizing log app with
  | nil => exact ⟨rfl, follows⟩
  | cons c calls ih =>
    obtain ⟨answer, next⟩ := follows.call c
    obtain ⟨answers, last⟩ := ih next
    refine ⟨?_, last⟩
    show _ :: _ = _ :: _
    rw [answer, answers]

/-! ## Failed calls -/

theorem Follows.call_failed (follows : Follows config log app) {c : Call}
    (failed : (app.call c).1.Failed) : (app.call c).2 = app := by
  have samePhase := follows.samePhase
  cases c with
  | initChain document =>
    cases phase : log.phase with
    | ready => simp only [Application.call, initChain_of_ready (samePhase.trans phase)]
    | uninitialized =>
      obtain ⟨empty, -⟩ := follows.fresh phase
      cases parsed : Genesis.ofDocument document with
      | error fault =>
        simp only [Application.call, initChain_of_malformed (samePhase.trans phase) empty parsed]
      | ok genesis =>
        simp only [Application.call, initChain_of_parsed (samePhase.trans phase) parsed] at failed
        cases failed
  | finalizeBlock txs =>
    cases phase : log.phase with
    | uninitialized =>
      simp only [Application.call, finalizeBlock_of_uninitialized (samePhase.trans phase)]
    | ready =>
      simp only [Application.call, finalizeBlock_of_ready (samePhase.trans phase)] at failed
      cases failed
  | commit =>
    cases phase : log.phase with
    | uninitialized =>
      simp only [Application.call, commit_of_uninitialized (samePhase.trans phase)]
    | ready =>
      simp only [Application.call, commit_of_ready (samePhase.trans phase)] at failed
      cases failed
  | checkTransaction | query | stateGet | info => rfl

end Application

theorem Log.call_failed {config : Config} {log : Log} {c : Call}
    (failed : (log.call config c).1.Failed) : (log.call config c).2 = log := by
  cases c with
  | initChain document =>
    cases phase : log.phase with
    | ready => simp only [Log.call, phase]
    | uninitialized =>
      cases parsed : Genesis.ofDocument document with
      | error fault => simp only [Log.call, phase, parsed]
      | ok genesis =>
        simp only [Log.call, phase, parsed] at failed
        cases failed
  | finalizeBlock txs =>
    cases phase : log.phase with
    | uninitialized => simp only [Log.call, phase]
    | ready =>
      simp only [Log.call, phase] at failed
      cases failed
  | commit =>
    cases phase : log.phase with
    | uninitialized => simp only [Log.call, phase]
    | ready =>
      simp only [Log.call, phase] at failed
      cases failed
  | checkTransaction raw => cases decoded : Write.decode raw <;> simp only [Log.call, decoded]
  | query | stateGet | info => rfl

/-! ## The application -/

/-- What can be observed of an application at one point of a run, and the log at that point.  The
    last field says that a failed call loses nothing. -/
structure Application.AgreesWith (config : Config) (log : Log) (app : Application MemStore) :
    Prop where
  stateGet (key : Bytes) : app.stateGet key = .ok (lastValue? key log.writes)
  query (key : Bytes) : app.query key = .ok (lastValue? key (log.writes.take log.committed))
  info : app.info = ⟨config.appName, .ofNat (min log.commits (UInt64.size - 1)),
    stateRoot (Log.entries config.storeKey (log.writes.take log.committed))⟩
  failed (c : Call) : (app.call c).1.Failed →
    (app.call c).2 = app ∧ (log.call config c).2 = log

namespace Application

theorem Follows.agreesWith {config : Config} {log : Log} {app : Application MemStore}
    (follows : Follows config log app) : AgreesWith config log app where
  stateGet := follows.stateGet
  query := follows.query
  info := follows.info
  failed := by
    intro c failed
    have failedLog := failed
    rw [(follows.call c).1] at failedLog
    exact ⟨follows.call_failed failed, Log.call_failed failedLog⟩

/-- An application with a usable configuration over an empty store answers every list of calls like
    its log, and agrees with it wherever the calls stop. -/
theorem run_follows_log (config : Config) (valid : config.validate = .ok ()) :
    ∃ app : Application MemStore, start config MemStore.empty = .ok app ∧
      ∀ calls, (app.run calls).1 = (Log.run config {} calls).1 ∧
        AgreesWith config (Log.run config {} calls).2 (app.run calls).2 := by
  refine ⟨⟨config, valid, .empty, .uninitialized⟩, start_of_valid valid _, ?_⟩
  intro calls
  have follows := Follows.start ⟨config, valid, .empty, .uninitialized⟩ rfl rfl
  obtain ⟨answers, last⟩ := follows.run calls
  exact ⟨answers, last.agreesWith⟩

/-- Calls in the wrong phase, a genesis that does not parse and one that does, and two blocks of
    which one is committed. -/
def sampleCalls : List Call :=
  [.commit, .initChain [0x7b], .initChain (Utf8.encode Genesis.sample.toDocument),
    .finalizeBlock [Write.encode ⟨[0x61], [0x31]⟩, [0xff]], .commit, .initChain [],
    .finalizeBlock [Write.encode ⟨[0x61], []⟩], .query [0x61], .stateGet [0x61], .info]

theorem run_follows_log_sampleCalls :
    ({} : Config).validate = .ok () ∧
      (Log.run {} {} sampleCalls).2.writes =
        Genesis.sample.writes ++ [⟨[0x61], [0x31]⟩, ⟨[0x61], []⟩] ∧
      (Log.run {} {} sampleCalls).2.committed = 3 ∧
      ∃ app : Application MemStore, start {} MemStore.empty = .ok app ∧
        (app.run sampleCalls).1 = (Log.run {} {} sampleCalls).1 ∧
        AgreesWith {} (Log.run {} {} sampleCalls).2 (app.run sampleCalls).2 := by
  have valid : ({} : Config).validate = .ok () := rfl
  obtain ⟨app, started, agrees⟩ := run_follows_log {} valid
  exact ⟨valid, by decide +kernel, by decide +kernel, app, started, agrees sampleCalls⟩

end Application

end ReplicatedKv
