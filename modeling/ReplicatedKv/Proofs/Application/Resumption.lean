import ReplicatedKv.Proofs.Application.Durability

/-! # Resumption

An application may stop anywhere, and another one be constructed over the store that it leaves.
Construction takes the store as it is.  So the new application starts from what was last committed
exactly where the writes acknowledged since then change nothing.

* `MemStore.Alike`, `Application.Alike` — stores and applications that no call tells apart.
* `Application.discard_run` — whatever is done without a successful commit, a discard undoes.
* `Application.StartsCommitted` — an application goes on like one that never saw a pending write.
* `Application.Resumption`, `Application.start_resumption` — what a new application finds, and when
  it starts from the last commit.
* `Application.start_interrupted` — two interrupted runs whose lost work is found again.
-/

namespace ReplicatedKv

/-! ## Stores that no call tells apart -/

/-- Pending writes may be there in the one store and not in the other, where they repeat what is
    committed. -/
structure MemStore.Alike (store other : MemStore) : Prop where
  committed : store.committed = other.committed
  working : store.working = other.working
  lastCommit : store.lastCommit = other.lastCommit

namespace MemStore.Alike

variable {store other : MemStore}

theorem setAll (alike : Alike store other) (writes : List Write) :
    Alike (store.setAll writes) (other.setAll writes) where
  committed := by rw [committed_setAll, committed_setAll, alike.committed]
  working := by rw [working_setAll_eq_overlay, working_setAll_eq_overlay, alike.working]
  lastCommit := by rw [lastCommit_setAll, lastCommit_setAll, alike.lastCommit]

theorem commit (alike : Alike store other) : Alike store.commit other.commit where
  committed := alike.working
  working := by rw [working_commit, working_commit, alike.working]
  lastCommit := by rw [lastCommit_commit, lastCommit_commit, alike.lastCommit, alike.working]

theorem discard (alike : Alike store other) : Alike store.discard other.discard where
  committed := alike.committed
  working := by rw [working_discard, working_discard, alike.committed]
  lastCommit := alike.lastCommit

theorem of_working_eq (same : store.working = store.committed) : Alike store store.discard where
  committed := rfl
  working := by rw [working_discard, same]
  lastCommit := rfl

end MemStore.Alike

namespace Application

/-! ## Applications that no call tells apart -/

structure Alike (app other : Application MemStore) : Prop where
  sameConfig : app.config = other.config
  samePhase : app.phase = other.phase
  store : app.store.Alike other.store

variable {app other : Application MemStore}

theorem Alike.query (alike : Alike app other) (key : Bytes) : app.query key = other.query key := by
  show Except.ok (app.store.committed[_]?) = Except.ok (other.store.committed[_]?)
  rw [alike.sameConfig, alike.store.committed]

theorem Alike.stateGet (alike : Alike app other) (key : Bytes) :
    app.stateGet key = other.stateGet key := by
  show Except.ok (app.store.get? _) = Except.ok (other.store.get? _)
  rw [MemStore.get?_eq_working, MemStore.get?_eq_working, alike.sameConfig, alike.store.working]

theorem Alike.info (alike : Alike app other) : app.info = other.info := by
  show AppInfo.mk app.config.appName app.store.lastCommit.version app.store.lastCommit.appHash = _
  rw [alike.sameConfig, alike.store.lastCommit]
  rfl

/-- One call. -/
theorem Alike.call (alike : Alike app other) (c : Call) :
    (app.call c).1 = (other.call c).1 ∧ Alike (app.call c).2 (other.call c).2 := by
  have query := alike.query
  have stateGet := alike.stateGet
  have info := alike.info
  -- configuration and phase are one, so both applications take the same branch
  obtain ⟨config, valid, store, phase⟩ := app
  obtain ⟨_, _, store', _⟩ := other
  obtain ⟨rfl, rfl, stores⟩ := alike
  cases c with
  | initChain document =>
    rw [Application.call, Application.call]
    cases phase with
    | ready =>
      rw [initChain_of_ready rfl, initChain_of_ready rfl]
      exact ⟨rfl, rfl, rfl, stores⟩
    | uninitialized =>
      cases parsed : Genesis.ofDocument document with
      | error fault =>
        rw [initChain_of_fault rfl parsed, initChain_of_fault rfl parsed]
        exact ⟨rfl, rfl, rfl, stores.discard⟩
      | ok genesis =>
        rw [initChain_of_parsed rfl parsed, initChain_of_parsed rfl parsed]
        exact ⟨rfl, rfl, rfl, stores.setAll _⟩
  | finalizeBlock txs =>
    rw [Application.call, Application.call]
    cases phase with
    | uninitialized =>
      rw [finalizeBlock_of_uninitialized rfl, finalizeBlock_of_uninitialized rfl]
      exact ⟨rfl, rfl, rfl, stores⟩
    | ready =>
      rw [finalizeBlock_memStore rfl, finalizeBlock_memStore rfl]
      exact ⟨rfl, rfl, rfl, stores.setAll _⟩
  | commit =>
    rw [Application.call, Application.call]
    cases phase with
    | uninitialized =>
      rw [commit_of_uninitialized rfl, commit_of_uninitialized rfl]
      exact ⟨rfl, rfl, rfl, stores⟩
    | ready =>
      rw [commit_of_ready rfl, commit_of_ready rfl, stores.commit.lastCommit]
      exact ⟨rfl, rfl, rfl, stores.commit⟩
  | checkTransaction raw => exact ⟨rfl, rfl, rfl, stores⟩
  | query key => exact ⟨congrArg Answer.value (query key), rfl, rfl, stores⟩
  | stateGet key => exact ⟨congrArg Answer.value (stateGet key), rfl, rfl, stores⟩
  | info => exact ⟨congrArg Answer.info info, rfl, rfl, stores⟩

theorem Alike.run (alike : Alike app other) (calls : List Call) :
    (app.run calls).1 = (other.run calls).1 ∧ Alike (app.run calls).2 (other.run calls).2 := by
  induction calls generalizing app other with
  | nil => exact ⟨rfl, alike⟩
  | cons c calls ih =>
    obtain ⟨answer, next⟩ := alike.call c
    obtain ⟨answers, last⟩ := ih next
    refine ⟨?_, last⟩
    show _ :: _ = _ :: _
    rw [answer, answers]

/-! ## Lost work -/

theorem run_append (app : Application MemStore) (calls later : List Call) :
    (app.run (calls ++ later)).2 = ((app.run calls).2.run later).2 := by
  induction calls generalizing app with
  | nil => rfl
  | cons c calls ih => exact ih (app.call c).2

theorem discard_call (c : Call) (uncommitted : ∀ info, (app.call c).1 ≠ .committed (.ok info)) :
    (app.call c).2.store.discard = app.store.discard := by
  cases c with
  | initChain document =>
    rw [Application.call]
    cases phase : app.phase with
    | ready => rw [initChain_of_ready phase]
    | uninitialized =>
      cases parsed : Genesis.ofDocument document with
      | error fault =>
        rw [initChain_of_fault phase parsed]
        rfl
      | ok genesis =>
        rw [initChain_of_parsed phase parsed]
        exact MemStore.discard_setAll _ _
  | finalizeBlock txs =>
    rw [Application.call]
    cases phase : app.phase with
    | uninitialized => rw [finalizeBlock_of_uninitialized phase]
    | ready =>
      rw [finalizeBlock_memStore phase]
      exact MemStore.discard_setAll _ _
  | commit =>
    rw [Application.call] at uncommitted ⊢
    cases phase : app.phase with
    | uninitialized => rw [commit_of_uninitialized phase]
    | ready =>
      rw [commit_of_ready phase] at uncommitted
      exact absurd rfl (uncommitted _)
  | checkTransaction | query | stateGet | info => rfl

/-- Until a commit succeeds, dropping the pending writes leads back to where the calls began. -/
theorem discard_run (calls : List Call)
    (uncommitted : ∀ info, .committed (.ok info) ∉ (app.run calls).1) :
    (app.run calls).2.store.discard = app.store.discard := by
  induction calls generalizing app with
  | nil => rfl
  | cons c calls ih =>
    have now : ∀ info, (app.call c).1 ≠ .committed (.ok info) := fun info same =>
      uncommitted info (List.mem_cons.mpr (.inl same.symm))
    have later := fun info member => uncommitted info (List.mem_cons_of_mem _ member)
    exact (ih later).trans (discard_call c now)

/-! ## Starting from the last commit -/

/-- `next` starts from what its store has committed: no pending write is read, and whatever calls
    follow, it goes on like `clean`, in whose store there are no pending writes. -/
structure StartsCommitted (next clean : Application MemStore) : Prop where
  sameReads (key : Bytes) : next.stateGet key = next.query key
  sameAnswers (calls : List Call) : (next.run calls).1 = (clean.run calls).1
  sameWorking (calls : List Call) (full : Bytes) :
    KeyValueStore.get (next.run calls).2.store full =
      KeyValueStore.get (clean.run calls).2.store full
  sameCommitted (calls : List Call) (full : Bytes) :
    VersionedStore.committedGet (next.run calls).2.store full =
      VersionedStore.committedGet (clean.run calls).2.store full

theorem startsCommitted_iff (config : Config) (valid : config.validate = .ok ())
    (store : MemStore) (phase : Phase) :
    StartsCommitted ⟨config, valid, store, phase⟩ ⟨config, valid, store.discard, phase⟩ ↔
      store.working = store.committed := by
  constructor
  · intro starts
    apply Std.ExtTreeMap.ext_getElem?
    intro full
    have same : store.get? full = store.discard.get? full :=
      Except.ok.inj (starts.sameWorking [] full)
    rwa [MemStore.get?_eq_working, MemStore.get?_eq_working, MemStore.working_discard] at same
  · intro same
    have alike : Alike ⟨config, valid, store, phase⟩ ⟨config, valid, store.discard, phase⟩ :=
      ⟨rfl, rfl, .of_working_eq same⟩
    refine ⟨fun key => ?_, fun calls => (alike.run calls).1, fun calls full => ?_,
      fun calls full => ?_⟩
    · show Except.ok (store.get? _) = Except.ok (store.committed[_]?)
      rw [MemStore.get?_eq_working, same]
    · show Except.ok (MemStore.get? _ _) = Except.ok (MemStore.get? _ _)
      rw [MemStore.get?_eq_working, MemStore.get?_eq_working, (alike.run calls).2.store.working]
    · show Except.ok _[_]? = Except.ok _[_]?
      rw [(alike.run calls).2.store.committed]

/-- What the answers of an application say about its store. -/
def ledger (app : Application MemStore) (calls : List Call) : Ledger :=
  (Ledger.ofMemory app.store).recordAll app.config.storeKey (app.transcript calls)

theorem followsLedger_run (app : Application MemStore) (calls : List Call) :
    FollowsLedger (fun _ => True) (fun store => store) (app.ledger calls) (app.run calls).2 :=
  (FollowsLedger.ofMemory app trivial).run MemStore.commitsToMemory calls

/-- An application is constructed over the store that `first` leaves after some calls: `next` over
    the store as it is, `clean` over the same store without its pending writes. -/
structure Resumption (config : Config) (first : Application MemStore) (calls : List Call)
    (next clean : Application MemStore) : Prop where
  started : start config (first.run calls).2.store = .ok next
  startedClean : start config (first.run calls).2.store.discard = .ok clean
  /-- The store of `clean` is that of a replica which stopped before the work that was lost. -/
  replica (done lost : List Call) : calls = done ++ lost →
    (∀ info, .committed (.ok info) ∉ ((first.run done).2.run lost).1) →
    (first.run done).2.store.pendingWrites = 0 →
    (first.run calls).2.store.discard = (first.run done).2.store
  query (key : Bytes) : next.query key =
    .ok (first.ledger calls).committed[Partition.fullKey config.storeKey key]?
  /-- Every write acknowledged since the last commit is read. -/
  stateGet (key : Bytes) : next.stateGet key =
    .ok ((lastValue? (Partition.fullKey config.storeKey key) (first.ledger calls).pending).or
      (first.ledger calls).committed[Partition.fullKey config.storeKey key]?)
  startsCommitted_iff : StartsCommitted next clean ↔
    (first.ledger calls).next = (first.ledger calls).committed

theorem start_resumption (config : Config) (valid : config.validate = .ok ())
    (first : Application MemStore) (calls : List Call) :
    ∃ next clean, Resumption config first calls next clean := by
  have follows := first.followsLedger_run calls
  -- a discard keeps the version, so both applications start in the same phase
  refine ⟨_, _, start_of_valid valid (first.run calls).2.store,
    start_of_valid valid (first.run calls).2.store.discard, ?replica, ?query, ?stateGet, ?starts⟩
  case replica =>
    intro done lost split uncommitted nothingPending
    rw [split, run_append, discard_run lost uncommitted,
      MemStore.discard_of_pendingWrites nothingPending]
  case query =>
    intro key
    show Except.ok (first.run calls).2.store.committed[_]? = _
    rw [follows.committed]
  case stateGet =>
    intro key
    show Except.ok ((first.run calls).2.store.get? _) = _
    rw [MemStore.get?_eq_working, follows.working, Ledger.next, Entries.getElem?_overlay]
  case starts =>
    rw [← follows.working, ← follows.committed]
    exact startsCommitted_iff config valid (first.run calls).2.store _

/-- Over a store in which nothing was ever written. -/
def untouched : Application MemStore := ⟨{}, Config.validate_default, .empty, .uninitialized⟩

/-- The genesis document with one entry. -/
def seed (key value : String) : Call :=
  .initChain (Utf8.encode (Genesis.mk [⟨key, value⟩]).toDocument)

/-- The block that is cut off repeats a value of the genesis. -/
def repeatingCalls : List Call :=
  [seed "a" "1", .commit, .finalizeBlock [Write.encode ⟨[0x61], [0x31]⟩]]

theorem start_resumption_repeatingCalls :
    ({} : Config).validate = .ok () ∧
      (untouched.run repeatingCalls).2.store.pendingWrites = 1 ∧
      ∃ next clean, Resumption {} untouched repeatingCalls next clean ∧
        StartsCommitted next clean := by
  obtain ⟨next, clean, resumption⟩ :=
    start_resumption {} Config.validate_default untouched repeatingCalls
  have unchanged :
      (untouched.ledger repeatingCalls).next = (untouched.ledger repeatingCalls).committed :=
    Std.ExtTreeMap.toList_inj.mp (by decide +kernel)
  exact ⟨Config.validate_default, by decide +kernel, next, clean, resumption,
    resumption.startsCommitted_iff.mpr unchanged⟩

/-- A genesis that was never committed stays, and the next genesis commits it as well; a block that
    was never committed stays, too. -/
theorem start_interrupted :
    (∃ next, start {} (untouched.run [seed "a" "1"]).2.store = .ok next ∧
      next.query [0x61] = .ok none ∧ next.stateGet [0x61] = .ok (some [0x31]) ∧
      (next.run [seed "b" "2", .commit]).2.query [0x61] = .ok (some [0x31]) ∧
      (untouched.run [seed "b" "2", .commit]).2.query [0x61] = .ok none) ∧
    ∃ next, start {} (untouched.run [.initChain [], .commit,
        .finalizeBlock [Write.encode ⟨[0x61], [0x31]⟩]]).2.store = .ok next ∧
      next.query [0x61] = .ok none ∧ next.stateGet [0x61] = .ok (some [0x31]) :=
  ⟨⟨_, start_of_valid Config.validate_default _, by decide +kernel, by decide +kernel,
      by decide +kernel, by decide +kernel⟩,
    _, start_of_valid Config.validate_default _, by decide +kernel, by decide +kernel⟩

end Application

end ReplicatedKv
