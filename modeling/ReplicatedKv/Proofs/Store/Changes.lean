import ReplicatedKv.Proofs.Store.Memory

/-! # Histories of a memory store

The life of a memory store as a list of changes, and what is true of the store wherever the list
ends.

* `StoreChange`, `MemStore.changeAll` — writes, commits and discards in any order.
* `MemStore.Sealed` — the last commit states the root of the committed entries.
* `MemStore.sealed_changeAll` — every history from the empty store on leaves a sealed store.
-/

namespace ReplicatedKv

/-- A change to a store. -/
inductive StoreChange where
  | set (key value : Bytes)
  | commit
  | discard

namespace MemStore

def change (store : MemStore) : StoreChange → MemStore
  | .set key value => store.set key value
  | .commit => store.commit
  | .discard => store.discard

def changeAll (store : MemStore) (changes : List StoreChange) : MemStore :=
  changes.foldl change store

/-- The last commit states the root of the entries that are committed now. -/
def Sealed (store : MemStore) : Prop := store.lastCommit.appHash = stateRoot store.committed

theorem Sealed.empty : Sealed .empty := (stateRoot_of_toList_nil rfl).symm

theorem sealed_commit (store : MemStore) : store.commit.Sealed := by
  rw [Sealed, lastCommit_commit, committed_commit]

theorem Sealed.change {store : MemStore} (kept : store.Sealed) (c : StoreChange) :
    (store.change c).Sealed := by
  cases c with
  | set key value => exact kept
  | commit => exact sealed_commit store
  | discard => exact kept

theorem Sealed.changeAll {store : MemStore} (kept : store.Sealed) (changes : List StoreChange) :
    (store.changeAll changes).Sealed := by
  induction changes generalizing store with
  | nil => exact kept
  | cons c changes ih => exact ih (kept.change c)

theorem sealed_changeAll (changes : List StoreChange) : (empty.changeAll changes).Sealed :=
  Sealed.empty.changeAll changes

end MemStore

end ReplicatedKv
