import ReplicatedKv.Proofs.Genesis.Initialization

/-! # Memory behind refusals

A store that may refuse any write, but is a memory store in all other respects: what it holds is a
memory store, in which exactly the acknowledged writes were made.

* `BackedByMemory` — the laws of such a store.
* `MemStore.backedByMemory`, `FaultyStore.backedByMemory` — the memory store itself, and a store
  that refuses chosen writes to one.
* `CommitsToMemory` — the laws of such a store that may also fail commits.
* `Genesis.initChain_backed` — what a genesis does, wherever it is stopped.
* `Executor.runBlock_backed` — what a block does: exactly what its receipts report.
-/

namespace ReplicatedKv

variable {σ : Type} [VersionedStore σ]

/-- Each of the stores described by `P` holds a memory store, and may refuse any write.  Such stores
    stay such stores. -/
structure BackedByMemory (P : σ → Prop) (memory : σ → MemStore) : Prop where
  get (store : σ) (key : Bytes) : P store →
    KeyValueStore.get store key = .ok ((memory store).get? key)
  committedGet (store : σ) (key : Bytes) : P store →
    VersionedStore.committedGet store key = .ok ((memory store).committedGet? key)
  lastCommit (store : σ) : P store → VersionedStore.lastCommit store = (memory store).lastCommit
  acknowledged (store after : σ) (key value : Bytes) : P store →
    KeyValueStore.set store key value = (.ok (), after) →
    P after ∧ memory after = (memory store).set key value
  refused (store after : σ) (key value : Bytes) (error : StoreError) : P store →
    KeyValueStore.set store key value = (.error error, after) →
    P after ∧ memory after = memory store
  discard (store : σ) : P store →
    P (VersionedStore.discard store) ∧
      memory (VersionedStore.discard store) = (memory store).discard

/-! ## Stores of this kind -/

theorem MemStore.backedByMemory : BackedByMemory (fun _ => True) (fun store : MemStore => store)
    where
  get _ _ _ := rfl
  committedGet _ _ _ := rfl
  lastCommit _ _ := rfl
  acknowledged _ _ _ _ _ set := ⟨trivial, (congrArg Prod.snd set).symm⟩
  refused _ _ _ _ _ _ set := nomatch congrArg Prod.fst set
  discard _ _ := ⟨trivial, rfl⟩

/-- Refusing more writes to such a store gives such a store again. -/
theorem FaultyStore.backedByMemory {P : σ → Prop} {memory : σ → MemStore}
    (backed : BackedByMemory P memory) :
    BackedByMemory (fun store : FaultyStore σ => P store.inner ∧ store.plan.unreadableKeys = [])
      (fun store => memory store.inner) where
  get := by
    intro store key ⟨inside, readable⟩
    rw [get_of_readable store readable, backed.get store.inner key inside]
  committedGet := by
    intro store key ⟨inside, readable⟩
    show store.read key VersionedStore.committedGet = _
    simp [FaultyStore.read, FaultPlan.readFault?, readable,
      backed.committedGet store.inner key inside]
  lastCommit := by
    intro store ⟨inside, _⟩
    exact backed.lastCommit store.inner inside
  acknowledged := by
    intro store after key value ⟨inside, readable⟩ acknowledged
    obtain ⟨inner, made, rfl⟩ := set_eq_ok acknowledged
    obtain ⟨kept, written⟩ := backed.acknowledged store.inner inner key value inside made
    exact ⟨⟨kept, readable⟩, written⟩
  refused := by
    intro store after key value error ⟨inside, readable⟩ refused
    obtain rfl | ⟨fault, inner, made, rfl⟩ := set_eq_error refused
    · exact ⟨⟨inside, readable⟩, rfl⟩
    · obtain ⟨kept, same⟩ := backed.refused store.inner inner key value fault inside made
      exact ⟨⟨kept, readable⟩, same⟩
  discard := by
    intro store ⟨inside, readable⟩
    obtain ⟨kept, discarded⟩ := backed.discard store.inner inside
    exact ⟨⟨kept, readable⟩, discarded⟩

/-! ## Commits that may fail -/

/-- A store of this kind may fail any commit, and loses nothing by it. -/
structure CommitsToMemory (P : σ → Prop) (memory : σ → MemStore) : Prop
    extends BackedByMemory P memory where
  committed (store after : σ) (info : CommitInfo) : P store →
    VersionedStore.commit store = (.ok info, after) →
    P after ∧ memory after = (memory store).commit ∧ info = (memory store).commit.lastCommit
  failed (store after : σ) (error : StoreError) : P store →
    VersionedStore.commit store = (.error error, after) → P after ∧ memory after = memory store

theorem MemStore.commitsToMemory :
    CommitsToMemory (fun _ => True) (fun store : MemStore => store) where
  toBackedByMemory := backedByMemory
  committed := by
    intro store after info _ commit
    obtain ⟨answer, rfl⟩ := Prod.mk.inj commit
    exact ⟨trivial, rfl, (Except.ok.inj answer).symm⟩
  failed _ _ _ _ commit := nomatch congrArg Prod.fst commit

/-- The ways in which a commit of a faulty store ends: the plan fails it, or the store inside
    answers. -/
theorem FaultyStore.commit_cases (store : FaultyStore σ) :
    (∃ fault, VersionedStore.commit store =
      (.error fault, { store with commitCalls := store.commitCalls + 1 })) ∨
    ∃ answer inner, VersionedStore.commit store.inner = (answer, inner) ∧
      VersionedStore.commit store =
        (answer, { store with inner, commitCalls := store.commitCalls + 1 }) := by
  show (∃ fault, store.commit = _) ∨ ∃ answer inner, _ ∧ store.commit = _
  cases planned : store.plan.commitFault? (store.commitCalls + 1) with
  | some fault => exact .inl ⟨fault, by simp only [FaultyStore.commit, planned]⟩
  | none =>
    match made : VersionedStore.commit store.inner with
    | (answer, inner) =>
      exact .inr ⟨answer, inner, rfl, by simp only [FaultyStore.commit, planned, made]⟩

theorem FaultyStore.commitsToMemory {P : σ → Prop} {memory : σ → MemStore}
    (lawful : CommitsToMemory P memory) :
    CommitsToMemory (fun store : FaultyStore σ => P store.inner ∧ store.plan.unreadableKeys = [])
      (fun store => memory store.inner) where
  toBackedByMemory := backedByMemory lawful.toBackedByMemory
  committed := by
    intro store after info ⟨inside, readable⟩ commit
    obtain ⟨fault, ended⟩ | ⟨answer, inner, made, ended⟩ := store.commit_cases
    · nomatch (Prod.mk.inj (commit.symm.trans ended)).1
    · obtain ⟨rfl, rfl⟩ := Prod.mk.inj (commit.symm.trans ended)
      obtain ⟨kept, held, reported⟩ := lawful.committed store.inner inner info inside made
      exact ⟨⟨kept, readable⟩, held, reported⟩
  failed := by
    intro store after error ⟨inside, readable⟩ commit
    obtain ⟨fault, ended⟩ | ⟨answer, inner, made, ended⟩ := store.commit_cases
    · obtain ⟨-, rfl⟩ := Prod.mk.inj (commit.symm.trans ended)
      exact ⟨⟨inside, readable⟩, rfl⟩
    · obtain ⟨rfl, rfl⟩ := Prod.mk.inj (commit.symm.trans ended)
      obtain ⟨kept, same⟩ := lawful.failed store.inner inner error inside made
      exact ⟨⟨kept, readable⟩, same⟩

/-! ## Genesis entries -/

variable {P : σ → Prop} {memory : σ → MemStore} {storeKey : String} {store after : σ}

theorem Genesis.Written.backed (backed : BackedByMemory P memory) {made : List GenesisEntry}
    (inside : P store) (written : Written storeKey store made after) :
    P after ∧ memory after = (memory store).setAll
      ((Genesis.mk made).writes.map (Write.inPartition storeKey)) := by
  induction written with
  | nil => exact ⟨inside, rfl⟩
  | cons set _ ih =>
    obtain ⟨kept, first⟩ := backed.acknowledged _ _ _ _ inside set
    obtain ⟨keptAll, others⟩ := ih kept
    refine ⟨keptAll, ?_⟩
    rw [others, first]
    rfl

/-- Reading and writing a genesis ends with the whole document written, or with some writes made
    that a discard takes back. -/
theorem Genesis.initChain_backed (backed : BackedByMemory P memory) {document : Bytes}
    {result : Except GenesisError Nat} (inside : P store)
    (ran : initChain storeKey document store = (result, after)) :
    P after ∧ (memory after).discard = (memory store).discard ∧
      (∀ size, result = .ok size → ∃ g, ofDocument document = .ok g ∧
        memory after = (memory store).setAll (g.writes.map (Write.inPartition storeKey))) := by
  obtain ⟨_, _, _, _, seeding⟩ := exists_seeding storeKey document store
  obtain ⟨rfl, rfl⟩ := Prod.mk.inj (seeding.initChain_eq.symm.trans ran)
  cases seeding with
  | malformed parsed =>
    refine ⟨inside, rfl, ?_⟩
    intro size impossible
    cases impossible
  | refused parsed split written last =>
    obtain ⟨kept, held⟩ := written.backed backed inside
    obtain ⟨keptAfter, same⟩ := backed.refused _ _ _ _ _ kept last
    refine ⟨keptAfter, ?_, ?_⟩
    · rw [same, held, MemStore.discard_setAll]
    · intro size impossible
      cases impossible
  | @complete g _ parsed written =>
    obtain ⟨kept, held⟩ := written.backed backed inside
    refine ⟨kept, ?_, fun size _ => ⟨g, parsed, held⟩⟩
    rw [held, MemStore.discard_setAll]

/-! ## Blocks -/

namespace Executor

/-- One transaction makes the write that its receipt reports, or none. -/
theorem Outcome.backed (backed : BackedByMemory P memory) {x : Executor} {raw : Bytes}
    {receipt : Receipt} (inside : P store) (outcome : x.Outcome raw store receipt after) :
    P after ∧ memory after = (memory store).setAll
      ((acknowledgedWrite? raw receipt).toList.map (Write.inPartition x.storeKey)) := by
  cases outcome with
  | undecoded error text failed worded => exact ⟨inside, rfl⟩
  | acknowledged w gas after decoded set clamped =>
    obtain ⟨kept, made⟩ := backed.acknowledged store after _ _ inside set
    refine ⟨kept, made.trans ?_⟩
    simp only [acknowledgedWrite?, decoded, if_true, Except.toOption]
    rfl
  | refused w error text gas after decoded set worded clamped =>
    exact backed.refused store after _ _ error inside set

theorem runBlock_backed (backed : BackedByMemory P memory) (x : Executor) (txs : List Bytes)
    (inside : P store) :
    P (x.runBlock txs store).2 ∧ memory (x.runBlock txs store).2 = (memory store).setAll
      ((acknowledgedWrites txs (x.runBlock txs store).1.receipts).map
        (Write.inPartition x.storeKey)) := by
  induction txs generalizing store with
  | nil => exact ⟨inside, rfl⟩
  | cons raw txs ih =>
    obtain ⟨kept, first⟩ := (runTransaction_outcome x raw store).backed backed inside
    obtain ⟨keptAll, others⟩ := ih kept
    refine ⟨keptAll, ?_⟩
    rw [store_runBlock_cons, others, first, receipts_runBlock_cons, acknowledgedWrites_cons,
      List.map_append, MemStore.setAll, MemStore.setAll, MemStore.setAll, List.foldl_append]

end Executor

end ReplicatedKv
