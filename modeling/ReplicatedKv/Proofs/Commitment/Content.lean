import ReplicatedKv.Proofs.Execution.Memory
import ReplicatedKv.Proofs.Store.Changes

/-! # The commitment is one of content

What a memory store commits to is its committed entries, not the way that led to them.

* `MemStore.SameCommitment` — two stores commit to the same entries.
* `Executor.commitEach`, `Executor.commitOnce` — transactions with a commit after every block, and
  with one commit at the end.
* `MemStore.sameCommitment_of_committedGet` — two histories that can be read alike commit alike.
-/

namespace ReplicatedKv

/-- Two stores list the same committed entries, in ascending order of their keys, under the same
    hash. -/
structure MemStore.SameCommitment (store other : MemStore) : Prop where
  entries : store.entries = other.entries
  ascending : store.entries.Pairwise fun entry later => compare entry.1 later.1 = .lt
  appHash : store.lastCommit.appHash = other.lastCommit.appHash

theorem MemStore.ascending_entries (store : MemStore) :
    store.entries.Pairwise fun entry later => compare entry.1 later.1 = .lt :=
  Std.ExtTreeMap.ordered_keys_toList

theorem MemStore.Sealed.sameCommitment {store other : MemStore} (sealed : store.Sealed)
    (otherSealed : other.Sealed) (same : store.committed = other.committed) :
    SameCommitment store other where
  entries := by rw [MemStore.entries, MemStore.entries, same]
  ascending := store.ascending_entries
  appHash := by rw [sealed, otherSealed, same]

/-! ## Commits between blocks -/

namespace Executor

variable (x : Executor)

/-- Runs blocks in order, with a commit after every one. -/
def commitEach (blocks : List (List Bytes)) (store : MemStore) : MemStore :=
  blocks.foldl (fun store txs => (x.runBlock txs store).2.commit) store

/-- Runs transactions in order, with a commit at the end. -/
def commitOnce (txs : List Bytes) (store : MemStore) : MemStore := (x.runBlock txs store).2.commit

theorem working_runBlock (txs : List Bytes) (store : MemStore) :
    (x.runBlock txs store).2.working =
      store.working.overlay ((decodedWrites txs).map (Write.inPartition x.storeKey)) := by
  rw [runBlock, runAll_memStore, MemStore.working_setAll_eq_overlay]

theorem committed_commitOnce (txs : List Bytes) (store : MemStore) :
    (x.commitOnce txs store).committed =
      store.working.overlay ((decodedWrites txs).map (Write.inPartition x.storeKey)) := by
  rw [commitOnce, MemStore.committed_commit, working_runBlock]

theorem working_commitOnce (txs : List Bytes) (store : MemStore) :
    (x.commitOnce txs store).working = (x.commitOnce txs store).committed :=
  MemStore.working_commit _

theorem decodedWrites_append (txs others : List Bytes) :
    decodedWrites (txs ++ others) = decodedWrites txs ++ decodedWrites others :=
  List.filterMap_append

/-- Where the first commit stands makes no difference to a later one. -/
theorem committed_commitEach_cons (first : List Bytes) (blocks : List (List Bytes))
    (store : MemStore) :
    (x.commitEach (first :: blocks) store).committed =
      (x.commitOnce (first :: blocks).flatten store).committed := by
  induction blocks generalizing first store with
  | nil =>
    rw [List.flatten_cons, List.flatten_nil, List.append_nil]
    rfl
  | cons second blocks ih =>
    have unfolded : x.commitEach (first :: second :: blocks) store =
        x.commitEach (second :: blocks) (x.commitOnce first store) := rfl
    rw [unfolded, ih, committed_commitOnce, working_commitOnce, committed_commitOnce,
      ← Entries.overlay_append, ← List.map_append, ← decodedWrites_append, committed_commitOnce,
      List.flatten_cons (l := first)]

theorem sealed_commitEach_cons (first : List Bytes) (blocks : List (List Bytes))
    (store : MemStore) : (x.commitEach (first :: blocks) store).Sealed := by
  induction blocks generalizing first store with
  | nil => exact MemStore.sealed_commit _
  | cons second blocks ih => exact ih second (x.commitOnce first store)

end Executor

/-! ## One commitment -/

/-- Two histories of a store, whatever they write, overwrite and discard and wherever they commit,
    end in the same commitment if every key reads alike in what they committed.  Before the first
    commit that is the commitment of the empty store.  So it makes no difference whether the
    transactions of several blocks are committed block by block or together in the end. -/
theorem MemStore.sameCommitment_of_committedGet :
    (∀ changes others : List StoreChange,
      (∀ key, VersionedStore.committedGet (empty.changeAll changes) key =
        VersionedStore.committedGet (empty.changeAll others) key) →
      SameCommitment (empty.changeAll changes) (empty.changeAll others)) ∧
    ∀ (x : Executor) (first : List Bytes) (blocks : List (List Bytes)) (store : MemStore),
      SameCommitment (x.commitEach (first :: blocks) store)
        (x.commitOnce (first :: blocks).flatten store) := by
  constructor
  · intro changes others agree
    refine (sealed_changeAll changes).sameCommitment (sealed_changeAll others) ?_
    apply Std.ExtTreeMap.ext_getElem?
    intro key
    exact Except.ok.inj (agree key)
  · intro x first blocks store
    exact (Executor.sealed_commitEach_cons x first blocks store).sameCommitment
      (MemStore.sealed_commit _) (Executor.committed_commitEach_cons x first blocks store)

/-- A history with a commit in the end. -/
def plainHistory : List StoreChange :=
  [.set [0x61] [0x31], .set [0x62] [0x32], .commit]

/-- The same content by a longer way: a value that is overwritten, a write that is discarded, three
    commits, and a write that is still pending. -/
def windingHistory : List StoreChange :=
  [.set [0x62] [0x39], .commit, .set [0x62] [0x32], .commit, .set [0x63] [0x33], .discard,
    .set [0x61] [0x31], .commit, .set [0x61] []]

theorem MemStore.sameCommitment_of_committedGet_windingHistory :
    (∀ key, VersionedStore.committedGet (empty.changeAll plainHistory) key =
        VersionedStore.committedGet (empty.changeAll windingHistory) key) ∧
      (empty.changeAll windingHistory).entries = [([0x61], [0x31]), ([0x62], [0x32])] ∧
      SameCommitment (empty.changeAll plainHistory) (empty.changeAll windingHistory) := by
  have plain : (empty.changeAll plainHistory).entries = [([0x61], [0x31]), ([0x62], [0x32])] := by
    decide +kernel
  have winding :
      (empty.changeAll windingHistory).entries = [([0x61], [0x31]), ([0x62], [0x32])] := by
    decide +kernel
  have agree (key : Bytes) : VersionedStore.committedGet (empty.changeAll plainHistory) key =
      VersionedStore.committedGet (empty.changeAll windingHistory) key := by
    have same : (empty.changeAll plainHistory).committed =
        (empty.changeAll windingHistory).committed :=
      Std.ExtTreeMap.toList_inj.mp (plain.trans winding.symm)
    show Except.ok ((empty.changeAll plainHistory).committed[key]?) = _
    rw [same]
    rfl
  exact ⟨agree, winding, sameCommitment_of_committedGet.1 plainHistory windingHistory agree⟩

end ReplicatedKv
