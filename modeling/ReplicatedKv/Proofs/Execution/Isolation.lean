import ReplicatedKv.Proofs.Execution.Memory
import ReplicatedKv.Proofs.Store.Partition

/-! # Isolation

Two applications over one memory store, each with a partition of its own.  Whatever the one does
between the calls of the other, the other cannot tell: its answers and what it reads are those of a
run without the first one's calls.

* `SharedCall` — execution and seeding by one of two sides, and commits and discards for both.
* `runShared` — a list of calls with their answers.
* `AgreeOn` — two stores read alike in one partition.
* `Isolated`, `runShared_isolated` — two runs that differ in the calls of the other side.
-/

namespace ReplicatedKv

/-- One of two applications over a store. -/
inductive Side where
  | left
  | right
  deriving DecidableEq

/-! ## Calls -/

/-- A call to a store that two sides share. -/
inductive SharedCall where
  | block (side : Side) (txs : List Bytes)
  | initChain (side : Side) (document : Bytes)
  | apply (side : Side) (genesis : Genesis)
  | commit
  | discard

inductive SharedAnswer where
  | block (block : BlockReceipt)
  | seeded (result : Except GenesisError Nat)
  | applied (result : Except GenesisError Unit)
  | committed (result : Except StoreError CommitInfo)
  | discarded

namespace SharedCall

/-- The side that a call belongs to; commits and discards belong to neither. -/
def side? : SharedCall → Option Side
  | block side _ => some side
  | initChain side _ => some side
  | apply side _ => some side
  | commit => none
  | discard => none

def run (configs : Side → Config) (store : MemStore) : SharedCall → SharedAnswer × MemStore
  | block side txs =>
    let execution := (configs side).executor.runBlock txs store
    (.block execution.1, execution.2)
  | initChain side document =>
    let seeding := Genesis.initChain (configs side).storeKey document store
    (.seeded seeding.1, seeding.2)
  | apply side genesis =>
    let seeding := genesis.apply (configs side).storeKey store
    (.applied seeding.1, seeding.2)
  | commit =>
    let commit := VersionedStore.commit store
    (.committed commit.1, commit.2)
  | discard => (.discarded, VersionedStore.discard store)

end SharedCall

/-- Makes calls one after the other, and keeps every call with its answer. -/
def runShared (configs : Side → Config) :
    List SharedCall → MemStore → List (SharedCall × SharedAnswer) × MemStore
  | [], store => ([], store)
  | call :: calls, store =>
    let first := call.run configs store
    let others := runShared configs calls first.2
    ((call, first.1) :: others.1, others.2)

/-- The results that a side gets. -/
def resultsOf (side : Side) (transcript : List (SharedCall × SharedAnswer)) :
    List (SharedCall × SharedAnswer) :=
  transcript.filter fun entry => entry.1.side? = some side

/-- The calls of a run in which those of the other side are deleted. -/
def callsFor (side : Side) (calls : List SharedCall) : List SharedCall :=
  calls.filter fun call => call.side?.all (· = side)

variable {configs : Side → Config} {side : Side} {call : SharedCall}

theorem runShared_cons (configs : Side → Config) (call : SharedCall) (calls : List SharedCall)
    (store : MemStore) : runShared configs (call :: calls) store =
      ((call, (call.run configs store).1) ::
          (runShared configs calls (call.run configs store).2).1,
        (runShared configs calls (call.run configs store).2).2) := rfl

theorem resultsOf_cons_own (own : call.side? = some side) (answer : SharedAnswer)
    (transcript : List (SharedCall × SharedAnswer)) :
    resultsOf side ((call, answer) :: transcript) =
      (call, answer) :: resultsOf side transcript :=
  List.filter_cons_of_pos (decide_eq_true own)

theorem resultsOf_cons_of_ne (notOwn : call.side? ≠ some side) (answer : SharedAnswer)
    (transcript : List (SharedCall × SharedAnswer)) :
    resultsOf side ((call, answer) :: transcript) = resultsOf side transcript :=
  List.filter_cons_of_neg (by simpa using notOwn)

theorem callsFor_cons_own (own : call.side? = some side) (calls : List SharedCall) :
    callsFor side (call :: calls) = call :: callsFor side calls :=
  List.filter_cons_of_pos (by simp [own])

theorem callsFor_cons_shared (shared : call.side? = none) (calls : List SharedCall) :
    callsFor side (call :: calls) = call :: callsFor side calls :=
  List.filter_cons_of_pos (by simp [shared])

theorem callsFor_cons_other {other : Side} (made : call.side? = some other) (notOwn : other ≠ side)
    (calls : List SharedCall) : callsFor side (call :: calls) = callsFor side calls :=
  List.filter_cons_of_neg (by simp [made, notOwn])

/-- A call by a side is answered without looking at the store, and writes to the side's partition
    only. -/
theorem SharedCall.exists_writes (configs : Side → Config) (own : call.side? = some side) :
    ∃ answer, ∃ writes : List Write, ∀ store, call.run configs store =
      (answer, store.setAll (writes.map (Write.inPartition (configs side).storeKey))) := by
  cases call with
  | block side txs =>
    obtain rfl := Option.some.inj own
    refine ⟨.block ⟨txs.map (configs side).executor.receiptOf⟩, decodedWrites txs, ?_⟩
    intro store
    simp only [SharedCall.run, Executor.runBlock, Executor.runAll_memStore]
    rfl
  | initChain side document =>
    obtain rfl := Option.some.inj own
    cases parsed : Genesis.ofDocument document with
    | error fault =>
      refine ⟨.seeded (.error (.parse fault)), [], ?_⟩
      intro store
      simp only [SharedCall.run, Genesis.initChain_memStore_error parsed]
      rfl
    | ok genesis =>
      refine ⟨.seeded (.ok genesis.size), genesis.writes, ?_⟩
      intro store
      simp only [SharedCall.run, Genesis.initChain_memStore_ok parsed]
  | apply side genesis =>
    obtain rfl := Option.some.inj own
    refine ⟨.applied (.ok ()), genesis.writes, ?_⟩
    intro store
    simp only [SharedCall.run, Genesis.apply_memStore]
  | commit => nomatch own
  | discard => nomatch own

/-! ## Agreement on one partition -/

/-- Two stores read alike in the partition, before and after a commit. -/
structure AgreeOn (name : String) (store other : MemStore) : Prop where
  working (full : Bytes) : Partition.Holds name full →
    store.working[full]? = other.working[full]?
  committed (full : Bytes) : Partition.Holds name full →
    store.committed[full]? = other.committed[full]?

namespace AgreeOn

variable {name : String} {store other : MemStore}

theorem refl (name : String) (store : MemStore) : AgreeOn name store store :=
  ⟨fun _ _ => rfl, fun _ _ => rfl⟩

theorem setAll (agree : AgreeOn name store other) (writes : List Write) :
    AgreeOn name (store.setAll writes) (other.setAll writes) where
  working := by
    intro full holds
    rw [MemStore.getElem?_working_setAll, MemStore.getElem?_working_setAll,
      agree.working full holds]
  committed := by
    intro full holds
    rw [MemStore.committed_setAll, MemStore.committed_setAll, agree.committed full holds]

theorem setAll_left (agree : AgreeOn name store other) {elsewhere : String}
    (disjoint : ∀ {full}, Partition.Holds name full → ¬Partition.Holds elsewhere full)
    (writes : List Write) :
    AgreeOn name (store.setAll (writes.map (Write.inPartition elsewhere))) other where
  working := by
    intro full holds
    rw [MemStore.getElem?_working_setAll,
      lastValue?_inPartition_of_not_holds (disjoint holds), Option.none_or,
      agree.working full holds]
  committed := by
    intro full holds
    rw [MemStore.committed_setAll, agree.committed full holds]

theorem commit (agree : AgreeOn name store other) : AgreeOn name store.commit other.commit where
  working := by
    intro full holds
    rw [MemStore.working_commit, MemStore.working_commit, agree.working full holds]
  committed := by
    intro full holds
    rw [MemStore.committed_commit, MemStore.committed_commit, agree.working full holds]

theorem discard (agree : AgreeOn name store other) :
    AgreeOn name store.discard other.discard where
  working := by
    intro full holds
    rw [MemStore.working_discard, MemStore.working_discard, agree.committed full holds]
  committed := agree.committed

end AgreeOn

/-! ## Two runs -/

theorem AgreeOn.run_shared {name : String} {store other : MemStore}
    (agree : AgreeOn name store other) (shared : call.side? = none) :
    AgreeOn name (call.run configs store).2 (call.run configs other).2 := by
  cases call with
  | commit => exact agree.commit
  | discard => exact agree.discard
  | block | initChain | apply => nomatch shared

theorem AgreeOn.runShared
    (disjoint : ∀ {other full}, side ≠ other → Partition.Holds (configs side).storeKey full →
      ¬Partition.Holds (configs other).storeKey full)
    {store other : MemStore} (agree : AgreeOn (configs side).storeKey store other)
    (calls : List SharedCall) :
    resultsOf side (runShared configs calls store).1 =
        resultsOf side (runShared configs (callsFor side calls) other).1 ∧
      AgreeOn (configs side).storeKey (runShared configs calls store).2
        (runShared configs (callsFor side calls) other).2 := by
  -- a call of the other side is made to one of the two stores only
  induction calls generalizing store other with
  | nil => exact ⟨rfl, agree⟩
  | cons call calls ih =>
    cases made : call.side? with
    | none =>
      obtain ⟨results, last⟩ := ih (agree.run_shared made)
      have notOwn : call.side? ≠ some side := by simp [made]
      rw [callsFor_cons_shared made, runShared_cons, runShared_cons]
      refine ⟨?_, last⟩
      rw [resultsOf_cons_of_ne notOwn, resultsOf_cons_of_ne notOwn, results]
    | some maker =>
      obtain ⟨answer, writes, ran⟩ := SharedCall.exists_writes configs made
      by_cases own : maker = side
      · obtain rfl := own
        obtain ⟨results, last⟩ :=
          ih (agree.setAll (writes.map (Write.inPartition (configs maker).storeKey)))
        rw [callsFor_cons_own made, runShared_cons, runShared_cons, ran, ran]
        refine ⟨?_, last⟩
        rw [resultsOf_cons_own made, resultsOf_cons_own made, results]
      · obtain ⟨results, last⟩ := ih (agree.setAll_left (disjoint (Ne.symm own)) writes)
        have notOwn : call.side? ≠ some side := by simp [made, own]
        rw [callsFor_cons_other made own, runShared_cons, ran]
        refine ⟨?_, last⟩
        rw [resultsOf_cons_of_ne notOwn, results]

/-! ## Keys -/

/-- Every key of the store belongs to one of the partitions. -/
def Confined (configs : Side → Config) (store : MemStore) : Prop :=
  ∀ full, full ∈ store.working ∨ full ∈ store.committed →
    ∃ side, Partition.Holds (configs side).storeKey full

theorem Confined.empty : Confined configs .empty := by
  intro full member
  rw [MemStore.working_empty] at member
  simp [MemStore.empty] at member

theorem Confined.setAll {store : MemStore} (confined : Confined configs store) (side : Side)
    (writes : List Write) :
    Confined configs (store.setAll (writes.map (Write.inPartition (configs side).storeKey))) := by
  intro full member
  rw [MemStore.committed_setAll] at member
  obtain working | committed := member
  · obtain ⟨w, written, rfl⟩ | kept := MemStore.mem_working_setAll working
    · obtain ⟨inside, -, rfl⟩ := List.mem_map.mp written
      exact ⟨side, Partition.holds_fullKey _ inside.key⟩
    · exact confined full (.inl kept)
  · exact confined full (.inr committed)

theorem Confined.run {store : MemStore} (confined : Confined configs store) (call : SharedCall) :
    Confined configs (call.run configs store).2 := by
  cases made : call.side? with
  | some side =>
    obtain ⟨answer, writes, ran⟩ := SharedCall.exists_writes configs made
    rw [ran]
    exact confined.setAll side writes
  | none =>
    intro full member
    cases call with
    | commit =>
      have working : full ∈ store.working := by
        obtain working | committed := member
        · rwa [← MemStore.working_commit]
        · exact committed
      exact confined full (.inl working)
    | discard =>
      have committed : full ∈ store.committed := by
        obtain working | committed := member
        · rwa [← MemStore.working_discard]
        · exact committed
      exact confined full (.inr committed)
    | block | initChain | apply => nomatch made

theorem Confined.runShared {store : MemStore} (confined : Confined configs store)
    (calls : List SharedCall) : Confined configs (runShared configs calls store).2 := by
  induction calls generalizing store with
  | nil => exact confined
  | cons call calls ih => exact ih (confined.run call)

/-! ## Isolation -/

/-- Two sides that make calls to one store, which was empty before, do not meet.  Each of them gets
    the results, and reads the values, of the run in which the calls of the other are deleted. -/
structure Isolated (configs : Side → Config) (calls : List SharedCall) : Prop where
  results (side : Side) : resultsOf side (runShared configs calls .empty).1 =
    resultsOf side (runShared configs (callsFor side calls) .empty).1
  get (side : Side) (key : Bytes) :
    KeyValueStore.get (runShared configs calls .empty).2
        (Partition.fullKey (configs side).storeKey key) =
      KeyValueStore.get (runShared configs (callsFor side calls) .empty).2
        (Partition.fullKey (configs side).storeKey key)
  committedGet (side : Side) (key : Bytes) :
    VersionedStore.committedGet (runShared configs calls .empty).2
        (Partition.fullKey (configs side).storeKey key) =
      VersionedStore.committedGet (runShared configs (callsFor side calls) .empty).2
        (Partition.fullKey (configs side).storeKey key)
  confined (full : Bytes) : full ∈ (runShared configs calls .empty).2.pending.writes ∨
      full ∈ (runShared configs calls .empty).2.committed →
    ∃ side, Partition.Holds (configs side).storeKey full
  disjoint (full : Bytes) : ¬(Partition.Holds (configs .left).storeKey full ∧
    Partition.Holds (configs .right).storeKey full)

/-- Usable configurations with different store keys isolate the two sides, in whatever order their
    calls come and wherever the store is committed or discarded. -/
theorem runShared_isolated (configs : Side → Config)
    (valid : ∀ side, (configs side).validate = .ok ())
    (differ : (configs .left).storeKey ≠ (configs .right).storeKey) (calls : List SharedCall) :
    Isolated configs calls := by
  have names {side other : Side} (different : side ≠ other) :
      (configs side).storeKey ≠ (configs other).storeKey := by
    cases side <;> cases other
    · exact absurd rfl different
    · exact differ
    · exact differ.symm
    · exact absurd rfl different
  have disjoint {side other : Side} {full : Bytes} (different : side ≠ other)
      (holds : Partition.Holds (configs side).storeKey full) :
      ¬Partition.Holds (configs other).storeKey full :=
    Config.not_holds_of_holds (valid side) (valid other) (names different) holds
  have alike (side : Side) := (AgreeOn.refl (configs side).storeKey .empty).runShared disjoint calls
  refine ⟨fun side => (alike side).1, ?_, ?_, ?_, ?_⟩
  · intro side key
    show Except.ok (MemStore.get? _ _) = Except.ok (MemStore.get? _ _)
    rw [MemStore.get?_eq_working, MemStore.get?_eq_working,
      (alike side).2.working _ (Partition.holds_fullKey _ key)]
  · intro side key
    exact congrArg Except.ok ((alike side).2.committed _ (Partition.holds_fullKey _ key))
  · intro full member
    refine Confined.empty.runShared calls full ?_
    obtain pending | committed := member
    · exact .inl (MemStore.mem_working_of_mem_pending pending)
    · exact .inr committed
  · intro full ⟨left, right⟩
    exact disjoint (by decide) left right

/-- The name of the one partition begins with the name of the other. -/
def nestedNames : Side → Config
  | .left => { storeKey := "a" }
  | .right => { storeKey := "ab" }

/-- Both sides write under keys that are or contain separators, between them stand a commit and a
    discard, and a genesis of the right side fails. -/
def interleavedCalls : List SharedCall :=
  [.apply .left ⟨[⟨"/", "1"⟩]⟩, .block .right [Write.encode ⟨[0x2f], [0x32]⟩, [0xff]], .commit,
    .initChain .right [0x7b], .block .left [Write.encode ⟨[0x62, 0x2f], [0x33]⟩],
    .block .right [Write.encode ⟨[], [0x34]⟩], .discard, .block .left [Write.encode ⟨[], [0x35]⟩]]

theorem runShared_isolated_interleavedCalls :
    ((∀ side, (nestedNames side).validate = .ok ()) ∧
      (nestedNames .left).storeKey ≠ (nestedNames .right).storeKey) ∧
      (callsFor .left interleavedCalls).length = 5 ∧
      (runShared nestedNames interleavedCalls .empty).2.get? [0x61, 0x2f, 0x2f] = some [0x31] ∧
      (runShared nestedNames interleavedCalls .empty).2.get? [0x61, 0x62, 0x2f, 0x2f] =
        some [0x32] ∧
      Isolated nestedNames interleavedCalls := by
  have valid : ∀ side, (nestedNames side).validate = .ok () := by
    intro side
    cases side <;> rfl
  have differ : (nestedNames .left).storeKey ≠ (nestedNames .right).storeKey := by decide
  exact ⟨⟨valid, differ⟩, rfl, by decide +kernel, by decide +kernel,
    runShared_isolated nestedNames valid differ interleavedCalls⟩

end ReplicatedKv
