import ReplicatedKv.Commitment.StateRoot
import ReplicatedKv.Saturating
import ReplicatedKv.Store.Basic
import ReplicatedKv.Store.Overlay

/-! # The memory store

A versioned store that holds everything in memory and refuses nothing: the committed entries, the
writes pending over them, and the last commit.
-/

namespace ReplicatedKv

/-- Committed entries with pending writes over them. -/
structure MemStore where
  committed : Entries := ∅
  pending : Overlay := {}
  lastCommit : CommitInfo := .initial

namespace MemStore

def empty : MemStore := {}

/-- The value of a key: its pending write, or else its committed value. -/
def get? (store : MemStore) (key : Bytes) : Option Bytes :=
  (store.pending.get? key).or store.committed[key]?

def committedGet? (store : MemStore) (key : Bytes) : Option Bytes := store.committed[key]?

def set (store : MemStore) (key value : Bytes) : MemStore :=
  { store with pending := store.pending.set key value }

def pendingWrites (store : MemStore) : Nat := store.pending.size

def discard (store : MemStore) : MemStore := { store with pending := .empty }

/-- Merges the pending writes into the committed entries, as the next version. -/
def commit (store : MemStore) : MemStore :=
  let entries := store.pending.applyTo store.committed
  { committed := entries
    pending := .empty
    lastCommit := ⟨Saturating.add store.lastCommit.version 1, stateRoot entries⟩ }

def entries (store : MemStore) : List (Bytes × Bytes) := store.committed.toList

instance : VersionedStore MemStore where
  get store key := .ok (store.get? key)
  set store key value := (.ok (), store.set key value)
  commit store := (.ok store.commit.lastCommit, store.commit)
  discard := discard
  lastCommit := MemStore.lastCommit
  committedGet store key := .ok (store.committedGet? key)

end MemStore

end ReplicatedKv
